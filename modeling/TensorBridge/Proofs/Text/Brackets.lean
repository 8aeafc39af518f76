import Mathlib.Algebra.Group.Nat.Even

/-!
# Brackets and quotes

A text is well bracketed if its double quotes come in pairs and, without what stands between the quotes of a pair, its
round, square and curly brackets are properly nested. Proper nesting is a grammar. It can also be checked in one scan
from left to right that keeps the brackets that are still open, and the main statements say that the scan finds
exactly the texts of the grammar.
-/

namespace TensorBridge

/-- The kinds of brackets. -/
inductive Bracket
  | round
  | square
  | curly
deriving DecidableEq, Repr

namespace Bracket

/-- The character that opens a bracket. -/
def opening : Bracket → Char
  | .round => '\x28'
  | .square => '\x5b'
  | .curly => '\x7b'

/-- The character that closes a bracket. -/
def closing : Bracket → Char
  | .round => '\x29'
  | .square => '\x5d'
  | .curly => '\x7d'

/-- The kinds of brackets, listed. -/
def all : List Bracket := [.round, .square, .curly]

/-- The bracket that a character opens. -/
def ofOpening? (c : Char) : Option Bracket := all.find? (·.opening == c)

/-- The bracket that a character closes. -/
def ofClosing? (c : Char) : Option Bracket := all.find? (·.closing == c)

/-- Every kind is listed. -/
theorem mem_all (b : Bracket) : b ∈ all := by cases b <;> decide

/-- A character opens the bracket of which it is the opening. -/
theorem ofOpening?_eq_some {c : Char} {b : Bracket} (h : ofOpening? c = some b) : c = b.opening := by
  have hfound := List.find?_some h
  exact (beq_iff_eq.mp hfound).symm

/-- A character closes the bracket of which it is the closing. -/
theorem ofClosing?_eq_some {c : Char} {b : Bracket} (h : ofClosing? c = some b) : c = b.closing := by
  have hfound := List.find?_some h
  exact (beq_iff_eq.mp hfound).symm

end Bracket

/-- A character that opens or closes a bracket. -/
def IsBracket (c : Char) : Prop := ∃ b : Bracket, c = b.opening ∨ c = b.closing

/-- A bracket is one of the listed characters. -/
theorem isBracket_iff {c : Char} :
    IsBracket c ↔ c ∈ Bracket.all.map Bracket.opening ∨ c ∈ Bracket.all.map Bracket.closing := by
  simp only [IsBracket, List.mem_map, Bracket.mem_all, true_and, exists_or, eq_comm]

/-- The characters of brackets are tried one by one. -/
instance (c : Char) : Decidable (IsBracket c) := decidable_of_iff _ isBracket_iff.symm

/-- Characters whose brackets are properly nested: each is closed by its own kind, behind characters of this sort. -/
inductive IsBalanced : List Char → Prop
  | nil : IsBalanced []
  | other {c : Char} {rest : List Char} (hc : ¬ IsBracket c) (hrest : IsBalanced rest) : IsBalanced (c :: rest)
  | pair (b : Bracket) {inner rest : List Char} (hinner : IsBalanced inner) (hrest : IsBalanced rest) :
    IsBalanced (b.opening :: (inner ++ b.closing :: rest))

/-- The characters without those between each odd-numbered double quote and the next one; `quoted` says whether such a
quote stands in front of them. -/
def outsideQuotes (quoted : Bool) : List Char → List Char
  | [] => []
  | c :: rest =>
    if c = '\x22' then c :: outsideQuotes (!quoted) rest
    else if quoted then outsideQuotes quoted rest
    else c :: outsideQuotes quoted rest

/-- Characters whose double quotes come in pairs and whose brackets outside these pairs are properly nested. -/
structure IsWellBracketed (cs : List Char) : Prop where
  even_quotes : Even (cs.count '\x22')
  isBalanced : IsBalanced (outsideQuotes false cs)

/-- Properly nested characters in a row are properly nested. -/
theorem IsBalanced.append {as bs : List Char} (ha : IsBalanced as) (hb : IsBalanced bs) : IsBalanced (as ++ bs) := by
  induction ha with
  | nil => exact hb
  | other hc _ ih => exact .other hc ih
  | pair b hinner _ _ ih =>
    rw [List.cons_append, List.append_assoc, List.cons_append]
    exact .pair b hinner ih

/-! ## The brackets that are open -/

/-- The brackets that are open behind a character, the innermost first; none if it closes one that is not open. -/
def nest (opened : List Bracket) (c : Char) : Option (List Bracket) :=
  match Bracket.ofOpening? c with
  | some b => some (b :: opened)
  | none =>
    match Bracket.ofClosing? c with
    | some b => if opened.head? = some b then some opened.tail else none
    | none => some opened

section Nest

variable {opened : List Bracket} {c : Char}

/-- An opening character opens its bracket. -/
@[simp] theorem nest_opening (b : Bracket) : nest opened b.opening = some (b :: opened) := by
  cases b <;> rfl

/-- A closing character closes its bracket, if that is the innermost one. -/
@[simp] theorem nest_closing (b : Bracket) : nest (b :: opened) b.closing = some opened := by
  cases b <;> rfl

/-- Any other character changes nothing. -/
theorem nest_of_not_isBracket (hc : ¬ IsBracket c) : nest opened c = some opened := by
  have hopening : Bracket.ofOpening? c = none :=
    Option.eq_none_iff_forall_ne_some.mpr fun b hb => hc ⟨b, .inl (Bracket.ofOpening?_eq_some hb)⟩
  have hclosing : Bracket.ofClosing? c = none :=
    Option.eq_none_iff_forall_ne_some.mpr fun b hb => hc ⟨b, .inr (Bracket.ofClosing?_eq_some hb)⟩
  rw [nest, hopening, hclosing]

/-- What a character does to the open brackets. -/
theorem nest_cases {opened' : List Bracket} (h : nest opened c = some opened') :
    (∃ b : Bracket, c = b.opening ∧ opened' = b :: opened) ∨
      (∃ b : Bracket, c = b.closing ∧ opened = b :: opened') ∨ (¬ IsBracket c ∧ opened' = opened) := by
  by_cases hc : IsBracket c
  · obtain ⟨b, rfl | rfl⟩ := hc
    · rw [nest_opening] at h
      exact .inl ⟨b, rfl, (Option.some.inj h).symm⟩
    · have hclosing : Bracket.ofOpening? b.closing = none ∧ Bracket.ofClosing? b.closing = some b := by
        cases b <;> exact ⟨rfl, rfl⟩
      rw [nest, hclosing.1, hclosing.2] at h
      dsimp only at h
      split at h
      · next hhead =>
        obtain ⟨outer, rfl⟩ := List.head?_eq_some_iff.mp hhead
        exact .inr (.inl ⟨b, rfl, by rw [← Option.some.inj h, List.tail_cons]⟩)
      · cases h
  · rw [nest_of_not_isBracket hc] at h
    exact .inr (.inr ⟨hc, (Option.some.inj h).symm⟩)

/-- Further open brackets outside those that a character closes are left alone. -/
theorem nest_append {opened' : List Bracket} (h : nest opened c = some opened') (outer : List Bracket) :
    nest (opened ++ outer) c = some (opened' ++ outer) := by
  obtain ⟨b, rfl, rfl⟩ | ⟨b, rfl, rfl⟩ | ⟨hc, rfl⟩ := nest_cases h
  · exact nest_opening b
  · exact nest_closing b
  · exact nest_of_not_isBracket hc

end Nest

/-- Properly nested characters leave open what was open in front of them. -/
theorem IsBalanced.foldlM_nest {cs : List Char} (h : IsBalanced cs) (opened : List Bracket) :
    cs.foldlM nest opened = some opened := by
  induction h generalizing opened with
  | nil => rfl
  | other hc _ ih =>
    rw [List.foldlM_cons, nest_of_not_isBracket hc]
    exact ih opened
  | @pair b inner rest _ _ ihinner ihrest =>
    rw [List.foldlM_cons, nest_opening]
    change (inner ++ b.closing :: rest).foldlM nest (b :: opened) = some opened
    rw [List.foldlM_append, ihinner]
    change (b.closing :: rest).foldlM nest (b :: opened) = some opened
    rw [List.foldlM_cons, nest_closing]
    exact ihrest opened

/-- Characters that close some open brackets one by one, the innermost first, and are properly nested in between. -/
def Closes : List Bracket → List Char → Prop
  | [], cs => IsBalanced cs
  | b :: outer, cs => ∃ inner rest, IsBalanced inner ∧ Closes outer rest ∧ cs = inner ++ b.closing :: rest

/-- Properly nested characters may stand in front. -/
theorem IsBalanced.append_closes {opened : List Bracket} {as cs : List Char} (ha : IsBalanced as)
    (h : Closes opened cs) : Closes opened (as ++ cs) := by
  cases opened with
  | nil => exact ha.append h
  | cons b outer =>
    obtain ⟨inner, rest, hinner, hrest, rfl⟩ := h
    exact ⟨as ++ inner, rest, ha.append hinner, hrest, (List.append_assoc _ _ _).symm⟩

/-- Characters behind which nothing is open any more close all that was open. -/
theorem closes_of_foldlM_nest {cs : List Char} {opened : List Bracket} (h : cs.foldlM nest opened = some []) :
    Closes opened cs := by
  induction cs generalizing opened with
  | nil =>
    cases h
    exact .nil
  | cons c rest ih =>
    rw [List.foldlM_cons] at h
    obtain ⟨opened', hstep, hrest⟩ := Option.bind_eq_some_iff.mp h
    obtain ⟨b, rfl, rfl⟩ | ⟨b, rfl, rfl⟩ | ⟨hc, rfl⟩ := nest_cases hstep
    · -- the bracket that opens here is closed by the rest, and the two make a pair in front of what follows
      obtain ⟨inner, rest', hinner, hrest', rfl⟩ := ih hrest
      have hpair : IsBalanced (b.opening :: (inner ++ [b.closing])) := .pair b hinner .nil
      simpa using hpair.append_closes hrest'
    · exact ⟨[], rest, .nil, ih hrest, rfl⟩
    · exact (IsBalanced.other hc .nil).append_closes (ih hrest)

/-- Characters are properly nested exactly if nothing is open behind them. -/
theorem isBalanced_iff {cs : List Char} : IsBalanced cs ↔ cs.foldlM nest [] = some [] :=
  ⟨fun h => h.foldlM_nest [], fun h => closes_of_foldlM_nest h⟩

/-! ## One scan -/

/-- What a scan has found so far: whether a quote is open, and the brackets that are, the innermost first. -/
structure Scan where
  quoted : Bool
  opened : List Bracket
deriving DecidableEq, Repr

namespace Scan

/-- The scan behind one more character. -/
def step (scan : Scan) (c : Char) : Option Scan :=
  if c = '\x22' then some { scan with quoted := !scan.quoted }
  else if scan.quoted then some scan
  else (nest scan.opened c).map fun opened => { scan with opened }

/-- The scan behind some characters. -/
def through (scan : Scan) (cs : List Char) : Option Scan := cs.foldlM step scan

section Inside

variable {quoted quoted' : Bool} {opened opened' : List Bracket}

/-- A step that works inside some open brackets also works inside further ones. -/
theorem step_inside {c : Char} (h : step ⟨quoted, opened⟩ c = some ⟨quoted', opened'⟩) (outer : List Bracket) :
    step ⟨quoted, opened ++ outer⟩ c = some ⟨quoted', opened' ++ outer⟩ := by
  unfold step at h ⊢
  by_cases hquote : c = '\x22'
  · rw [if_pos hquote] at h ⊢
    cases h
    rfl
  rw [if_neg hquote] at h ⊢
  cases quoted with
  | true =>
    cases h
    rfl
  | false =>
    obtain ⟨opened'', hnest, hopened⟩ := Option.map_eq_some_iff.mp h
    cases hopened
    exact Option.map_eq_some_iff.mpr ⟨_, nest_append hnest outer, rfl⟩

/-- A scan that comes through some characters inside some open brackets also does so inside further ones. -/
theorem through_inside {cs : List Char} (h : through ⟨quoted, opened⟩ cs = some ⟨quoted', opened'⟩)
    (outer : List Bracket) : through ⟨quoted, opened ++ outer⟩ cs = some ⟨quoted', opened' ++ outer⟩ := by
  induction cs generalizing quoted opened with
  | nil =>
    cases h
    rfl
  | cons c rest ih =>
    rw [through, List.foldlM_cons] at h ⊢
    obtain ⟨⟨quoted'', opened''⟩, hstep, hrest⟩ := Option.bind_eq_some_iff.mp h
    rw [step_inside hstep outer]
    exact ih hrest

end Inside

/-- A scan comes through some characters exactly if the brackets outside quotes let it, and each quote turns it over. -/
theorem through_eq_some_iff {quoted quoted' : Bool} {opened opened' : List Bracket} {cs : List Char} :
    through ⟨quoted, opened⟩ cs = some ⟨quoted', opened'⟩ ↔
      (Even (cs.count '\x22') ↔ quoted = quoted') ∧ (outsideQuotes quoted cs).foldlM nest opened = some opened' := by
  induction cs generalizing quoted opened with
  | nil => simp [through, outsideQuotes]
  | cons c rest ih =>
    rw [through, List.foldlM_cons, step, outsideQuotes]
    by_cases hquote : c = '\x22'
    · have hnest : nest opened '\x22' = some opened := rfl
      subst hquote
      rw [if_pos rfl, if_pos rfl, List.foldlM_cons, hnest, List.count_cons_self, Nat.even_add_one]
      refine Iff.trans ih (and_congr_left fun _ => ?_)
      cases quoted <;> cases quoted' <;> simp
    · rw [if_neg hquote, if_neg hquote, List.count_cons_of_ne hquote]
      cases quoted with
      | true => exact ih
      | false =>
        rw [if_neg Bool.false_ne_true, if_neg Bool.false_ne_true, List.foldlM_cons]
        cases hstep : nest opened c with
        | none => simp
        | some opened'' => exact ih

end Scan

/-- Characters are well bracketed exactly if a scan ends outside quotes with nothing open. -/
theorem isWellBracketed_iff {cs : List Char} :
    IsWellBracketed cs ↔ Scan.through ⟨false, []⟩ cs = some ⟨false, []⟩ := by
  rw [Scan.through_eq_some_iff, ← isBalanced_iff, iff_true_right rfl]
  exact ⟨fun h => ⟨h.even_quotes, h.isBalanced⟩, fun h => ⟨h.1, h.2⟩⟩

/-- Whether characters are well bracketed is decided by a scan. -/
instance (cs : List Char) : Decidable (IsWellBracketed cs) := decidable_of_iff _ isWellBracketed_iff.symm

/-- A bracket between quotes needs no partner. -/
example : IsWellBracketed "f(\x22[\x22)".toList ∧ ¬ IsWellBracketed "f([)]".toList := by decide

end TensorBridge
