import TensorBridge.Proofs.Shape.ElementParts
import TensorBridge.Proofs.Shape.Layout

/-!
# Long numerals in the tokens of a shape

The tokens of a shape hold numerals: the extents of its axes, and the number of channels of its element. A numeral
of more digits than are read as a number breaks the reading of a shape off; everything else that is wrong with a
shape is refused. Whether the reading comes to such a numeral depends on the tokens that are read before.
-/

namespace TensorBridge

/-- Tokens of a shape in which the reading comes to a long numeral. The element is read first: it has one, or it is
read and so are the dimensions in front of one that does. -/
def Value.IsLongShape (tokens : Value) : Prop :=
  ∃ front last, tokens = .array (front ++ [last]) ∧
    (last.IsLongElement ∨ (∃ element, Element.ofToken last = .ok element) ∧
      StopsFirst (fun token => ∃ dim, Dim.ofToken token = .ok dim) Value.IsLongDim front)

namespace Shape

/-- Reading the tokens of a shape ends in a fault exactly if it comes to a long numeral. -/
theorem ofTokens_eq_fault_iff {tokens : List Value} {f : Fault} :
    ofTokens tokens = .error (.fault f) ↔ f = .numeralTooLong ∧ (Value.array tokens).IsLongShape := by
  rcases List.eq_nil_or_concat' tokens with rfl | ⟨front, last, rfl⟩
  · refine iff_of_false (fun h => nomatch h) ?_
    rintro ⟨_, front, last, heq, _⟩
    simp at heq
  · have hshape : (Value.array (front ++ [last])).IsLongShape ↔
        last.IsLongElement ∨ (∃ element, Element.ofToken last = .ok element) ∧
          StopsFirst (fun token => ∃ dim, Dim.ofToken token = .ok dim) Value.IsLongDim front := by
      constructor
      · rintro ⟨front', last', heq, h⟩
        obtain ⟨rfl, hlast⟩ := List.append_inj' (Value.array.inj heq) rfl
        obtain rfl := List.singleton_inj.mp hlast
        exact h
      · exact fun h => ⟨front, last, rfl, h⟩
    have hdims : Dim.ofTokens front = .error (.fault f) ↔ f = .numeralTooLong ∧
        StopsFirst (fun token => ∃ dim, Dim.ofToken token = .ok dim) Value.IsLongDim front := by
      rw [Dim.ofTokens_eq_mapM, except_mapM_eq_error_iff, ← stopsFirst_and]
      simp only [Dim.ofToken_eq_fault_iff]
    rw [hshape, and_or_left, ← Element.ofToken_eq_fault_iff, and_left_comm, ← hdims]
    unfold ofTokens
    rw [List.getLast?_concat, List.dropLast_concat]
    dsimp only
    rw [except_bind_eq_error]
    refine or_congr_right ⟨?_, ?_⟩
    · rintro ⟨element, helement, h⟩
      rcases except_bind_eq_error.mp h with h | ⟨dims, _, h⟩
      · exact ⟨⟨element, helement⟩, h⟩
      · split at h <;> cases h
    · rintro ⟨⟨element, helement⟩, h⟩
      exact ⟨element, helement, except_bind_eq_error.mpr (.inl h)⟩

/-- Reading a shape ends in a fault exactly if it comes to a long numeral. -/
theorem read_eq_fault_iff {tokens : Value} {f : Fault} :
    (read tokens).outcome = .error (.fault f) ↔ f = .numeralTooLong ∧ tokens.IsLongShape := by
  cases tokens with
  | array items =>
    rw [← ofTokens_eq_fault_iff]
    refine Traced.outcome_bind_eq_error.trans (or_iff_left ?_)
    rintro ⟨s, _, h⟩
    cases h
  | _ =>
    refine iff_of_false (fun h => nomatch h) ?_
    rintro ⟨_, _, _, heq, _⟩
    cases heq

end Shape

end TensorBridge
