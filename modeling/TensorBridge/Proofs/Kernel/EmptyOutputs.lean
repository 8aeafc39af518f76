import TensorBridge.Proofs.Conversion.EmptyLayers
import TensorBridge.Proofs.Conversion.IntoTensor
import TensorBridge.Proofs.Shape.Printed

/-!
# Outputs of empty containers

The extents of an output are inferred before the kernel runs, and those of its tensor are set when it runs. For an
empty container both have one extent for each axis, and from the second axis on the tensor has every extent that is
known. Along the first axis an empty container has no position, so the tensor fits the inferred extents exactly if the
first one is not known.
-/

namespace TensorBridge

open Conversion

/-- Whether a tensor fits inferred extents: it has as many axes, and the known extents are its own. -/
def IsCompatible (inferred : List Extent) (extents : List Nat) : Prop :=
  List.Forall₂ (fun e n => ∀ known ∈ e, n = known) inferred extents

/-- Extents that are zero where they are not known fit. -/
theorem isCompatible_map_getD (inferred : List Extent) : IsCompatible inferred (inferred.map (·.getD 0)) := by
  refine List.forall₂_map_right_iff.mpr (List.forall₂_same.mpr fun e _ known hknown => ?_)
  rw [Option.mem_def.mp hknown]
  rfl

/-- A tensor of a known extent has it at the axis of that extent. -/
theorem IsCompatible.getElem? {inferred : List Extent} {extents : List Nat} (h : IsCompatible inferred extents)
    {axis known : Nat} (hknown : inferred[axis]? = some (some known)) : extents[axis]? = some known := by
  induction h generalizing axis with
  | nil => cases hknown
  | cons hhead _ ih =>
    cases axis with
    | zero =>
      cases hknown
      exact congrArg some (hhead known rfl)
    | succ axis => exact ih hknown

namespace Shape

variable {s : Shape}

/-- The extents for an empty container are the inferred ones with zero for the first one and for those that are not
known. -/
theorem emptyExtents_eq {first : Extent} {rest : List Extent} (hvectors : s.vectors = first :: rest) :
    ∃ behind, s.inferredExtents = first :: behind ∧ s.emptyExtents = 0 :: behind.map (·.getD 0) := by
  refine ⟨rest ++ s.block ++ List.replicate s.element.channelAxes (some s.element.channels), ?_, ?_⟩
  · rw [inferredExtents, extents, hvectors, List.cons_append, List.cons_append]
  · have hbehind : (first :: rest ++ s.block).drop 1 = rest ++ s.block := rfl
    rw [emptyExtents, extents, hvectors, hbehind, channelExtents, List.map_append, List.map_append, List.map_append,
      List.map_replicate]
    rfl

end Shape

section Run

variable {α : Type} {m : Platform α} {s : Shape} {σ : State α}

/-- The statements for an output, run on an empty container, allocate its tensor and do nothing else. -/
theorem runAll_outputStatements_empty {name : String} {index : Int} {stmts : List Stmt}
    (hstmts : (outputStatements name index s).outcome = .ok stmts) (hvectors : s.vectors ≠ []) {item : ObjectType}
    (hvalue : σ.get? (Names.value ⟨name⟩) = some (.vector item [])) :
    ∃ τ, runAll m stmts σ = .next τ ∧ τ.outputs = σ.outputs ++ [⟨index, s.emptyExtents, []⟩] := by
  obtain ⟨values, _, rfl⟩ := outputStatements_eq hstmts
  let n : Names := ⟨name⟩
  have hdeclare : run m (.define "Tensor*" n.tensorOut (.name "nullptr")) σ =
      .next (σ.declare (n.part .tensorOut) (.pointer none)) := rfl
  have hkept : (σ.declare (n.part .tensorOut) (.pointer none)).get? (n.part .value) = some (.vector item []) := by
    rw [State.get?_declare_part, if_neg (by simp)]
    exact hvalue
  obtain ⟨τ, hrun, houtputs⟩ := run_copyStatement_empty (m := m) (n := n) hvectors index values hkept
  rw [State.outputs_declare] at houtputs
  exact ⟨τ, (runAll_cons_of_next m hdeclare _).trans (runAll_singleton_of_next m hrun), houtputs⟩

end Run

/-- The tensor of an empty container has as many axes as are inferred, no position along the first one, and every
later extent that is known. So it fits the inferred extents exactly if the first one is not known. -/
theorem emptyOutput_isCompatible_iff {α : Type} {tokens : List Value} {s : Shape}
    (hs : Shape.ofTokens tokens = .ok s) (hvectors : s.vectors ≠ []) (name : String) (index : Int)
    {stmts : List Stmt} (hstmts : (outputStatements name index s).outcome = .ok stmts) (m : Platform α) (σ : State α)
    (item : ObjectType) (hvalue : σ.get? (Names.value ⟨name⟩) = some (.vector item [])) :
    ∃ τ extents, runAll m stmts σ = .next τ ∧ τ.outputs = σ.outputs ++ [⟨index, extents, []⟩] ∧
      extents.length = (ShapeInference.ofOutput index s).extents.length ∧ extents[0]? = some 0 ∧
      (∀ axis known, 0 < axis → (ShapeInference.ofOutput index s).extents[axis]? = some (some known) →
        extents[axis]? = some known) ∧
      (IsCompatible (ShapeInference.ofOutput index s).extents extents ↔ s.vectors.head? = some none) := by
  obtain ⟨τ, hrun, houtputs⟩ := runAll_outputStatements_empty (m := m) hstmts hvectors hvalue
  obtain ⟨first, rest, hfirst⟩ := List.exists_cons_of_ne_nil hvectors
  obtain ⟨behind, hinferred, hempty⟩ := Shape.emptyExtents_eq hfirst
  have hfits := isCompatible_map_getD behind
  have hpositive : ∀ known ∈ first, 0 < known := by
    have hmem : first ∈ s.extents := by
      rw [Shape.extents, hfirst]
      exact List.mem_cons_self
    exact fun known hknown => (Shape.isWritable_of_ofTokens hs first hmem known hknown).1
  refine ⟨τ, s.emptyExtents, hrun, houtputs, ?_⟩
  rw [ShapeInference.ofOutput, hinferred, hempty, hfirst]
  refine ⟨?_, rfl, ?_, ?_⟩
  · rw [List.length_cons, List.length_cons, List.length_map]
  · intro axis known haxis hknown
    obtain ⟨later, rfl⟩ := Nat.exists_eq_succ_of_ne_zero (Nat.ne_of_gt haxis)
    exact hfits.getElem? hknown
  · rw [IsCompatible, List.forall₂_cons, List.head?_cons, Option.some.injEq]
    constructor
    · rintro ⟨hzero, _⟩
      exact Option.eq_none_iff_forall_not_mem.mpr fun known hknown =>
        Nat.ne_of_gt (hpositive known hknown) (hzero known hknown).symm
    · rintro rfl
      exact ⟨fun known hknown => absurd hknown (Option.not_mem_none known), hfits⟩

/-- A container of rows of three blocks with two channels: the tensor of an empty one fits. -/
theorem emptyOutput_isCompatible_rows :
    Shape.ofTokens [.string "vector:none", .string "vector:3", .string "none", .string "CV_8UC2"] =
        .ok ⟨[none, some 3], [none], .matrix .u8 (some 1) .mat false⟩ ∧
      ∃ stmts τ extents, (outputStatements "x" 4 ⟨[none, some 3], [none], .matrix .u8 (some 1) .mat false⟩).outcome =
          .ok stmts ∧
        runAll (.wrapping fun _ => false) stmts (valueState (.vector (.vector .mat) [])) = .next τ ∧
        τ.outputs = [⟨4, extents, []⟩] ∧ extents[1]? = some 3 ∧ extents[3]? = some 2 ∧
        IsCompatible [none, some 3, none, some 2] extents := by
  have htokens : Shape.ofTokens [.string "vector:none", .string "vector:3", .string "none", .string "CV_8UC2"] =
      .ok ⟨[none, some 3], [none], .matrix .u8 (some 1) .mat false⟩ := by rfl
  obtain ⟨τ, extents, hrun, houtputs, _, _, hknown, hfits⟩ := emptyOutput_isCompatible_iff htokens
    (List.cons_ne_nil _ _) "x" 4 rfl (.wrapping fun _ => false) (valueState (.vector (.vector .mat) [])) _ rfl
  exact ⟨htokens, _, τ, extents, rfl, hrun, houtputs, hknown 1 3 Nat.one_pos rfl, hknown 3 2 (by decide) rfl,
    hfits.mpr rfl⟩

/-- Three numbers are inferred, and the tensor of an empty container has none. -/
theorem emptyOutput_of_known_length :
    Shape.ofTokens [.string "vector:3", .string "int"] = .ok ⟨[some 3], [], .primitive .int false⟩ ∧
      (ShapeInference.ofOutput 0 ⟨[some 3], [], .primitive .int false⟩).extents = [some 3] ∧
      ∃ stmts τ, (outputStatements "x" 0 ⟨[some 3], [], .primitive .int false⟩).outcome = .ok stmts ∧
        runAll (.wrapping fun _ => false) stmts (valueState (.vector (.scalar "int") [])) = .next τ ∧
        τ.outputs = [⟨0, [0], []⟩] ∧ ¬ IsCompatible [some 3] [0] := by
  refine ⟨by rfl, rfl, _, _, rfl, rfl, rfl, ?_⟩
  rw [IsCompatible, List.forall₂_cons]
  rintro ⟨h, _⟩
  exact absurd (h 3 rfl) (by decide)

end TensorBridge
