import TensorBridge.Proofs.Shape.ElementTokens
import TensorBridge.Proofs.Shape.Layout

/-!
# Printed shapes

A shape that has been read is printed again as tokens: its dimensions, and its element with the container of a matrix
element behind a colon. Numbers are printed in ASCII digits and without line breaks, so tokens that are spelled in
different ways may be printed alike; but they are if and only if they describe the same shape, and the printed tokens
describe this shape again.
-/

namespace TensorBridge

/-! ## Printed tokens -/

/-- The token of an element. Only that of a matrix element has a container. -/
def Element.printed (e : Element) : String :=
  e.canonical ++ if e.isMatrix then ":" ++ e.container.name else ""

/-- The tokens of a shape as it is printed. -/
def Shape.printed (s : Shape) : List Value :=
  s.dims.map (fun d => .string d.text) ++ [.string s.element.printed]

/-- What is known of a shape once it has been read. -/
structure ShapeFacts where
  tensorRank : Nat
  rank : Nat
  vectorRank : Nat
  blockRank : Nat
  dims : List Dim
  blockDims : List Dim
  element : ElementFacts
  kind : ShapeKind
  declaredType : String
  blockType : Option String
deriving DecidableEq, Repr

/-- The facts of a shape. -/
def Shape.facts (s : Shape) : ShapeFacts :=
  { tensorRank := s.tensorRank
    rank := s.rank
    vectorRank := s.vectorRank
    blockRank := s.blockRank
    dims := s.dims
    blockDims := s.block.map .block
    element := s.element.facts
    kind := s.kind
    declaredType := s.declaredType
    blockType := s.blockType? }

/-! ## Reading back -/

/-- A printed element is read back if it has one channel in a fixed container. -/
theorem Element.ofToken_printed {e : Element} (h : e.container.isFixed = true → e.channels = 1) :
    Element.ofToken (.string e.printed) = .ok e := by
  rw [ofToken_eq_ok_iff]
  cases e with
  | primitive type endsLine =>
    have hmat : ("", Container.mat) ∈ (":", .mat) :: containerTexts := by decide
    exact ⟨h, "", hmat, .inl rfl, rfl⟩
  | matrix depth written container endsLine =>
    exact ⟨h, ":" ++ container.name, List.mem_cons_of_mem _ (mem_containerTexts container), .inr rfl, rfl⟩

/-- Dimensions that have been read can be written. -/
theorem ReadAs.isWritable {tokens : List Value} {dims : List Dim} {element : Element}
    (h : ReadAs tokens dims element) : ∀ d ∈ dims, IsWritable d.extent := by
  obtain ⟨front, last, _, hdims, _⟩ := h
  intro d hd
  obtain ⟨token, _, htoken⟩ := exists_left_of_forall₂ hdims hd
  exact Dim.isWritable_of_ofToken htoken

/-- The extents of a shape that has been read can be written; in particular the known ones are not zero. -/
theorem Shape.isWritable_of_ofTokens {tokens : List Value} {s : Shape} (h : Shape.ofTokens tokens = .ok s) :
    ∀ e ∈ s.extents, IsWritable e := by
  obtain ⟨dims, element, hread, _, rfl⟩ := ofTokens_eq_ok_iff.mp h
  rw [extents, ofDims, ← List.map_append, List.takeWhile_append_dropWhile]
  exact List.forall_mem_map.mpr hread.isWritable

/-- A shape that has been read is read again from its printed tokens. -/
theorem Shape.ofTokens_printed {tokens : List Value} {s : Shape} (h : Shape.ofTokens tokens = .ok s) :
    Shape.ofTokens s.printed = .ok s := by
  obtain ⟨dims, element, hread, hlayout, rfl⟩ := ofTokens_eq_ok_iff.mp h
  have hwritable := hread.isWritable
  obtain ⟨front, last, _, hdims, helement⟩ := hread
  refine ofTokens_eq_ok_iff.mpr ⟨dims, element, ⟨_, _, rfl, ?_, ?_⟩, hlayout, rfl⟩
  · rw [dims_ofDims hlayout.vectors_first]
    exact List.forall₂_map_left_iff.mpr (List.forall₂_same.mpr fun d hd => Dim.ofToken_text (hwritable d hd))
  · exact Element.ofToken_printed (Element.channels_of_ofToken helement)

/-- The printed tokens are a part of the facts of a shape. -/
theorem Shape.printed_eq_of_facts {s t : Shape} (h : s.facts = t.facts) : s.printed = t.printed := by
  have hdims : s.dims = t.dims := congrArg ShapeFacts.dims h
  have helement : s.element.facts = t.element.facts := congrArg ShapeFacts.element h
  have hcanonical : s.element.canonical = t.element.canonical := congrArg ElementFacts.canonical helement
  have hmatrix : s.element.isMatrix = t.element.isMatrix := congrArg ElementFacts.isMatrix helement
  have hcontainer : s.element.container = t.element.container := congrArg ElementFacts.container helement
  rw [printed, printed, Element.printed, Element.printed, hdims, hcanonical, hmatrix, hcontainer]

/-- The printed tokens of a shape that has been read are read as this shape, so two shapes that have been read agree in
everything exactly if they are printed alike. -/
theorem Shape.printed_determines_facts :
    (∀ (tokens : List Value) (s : Shape), ofTokens tokens = .ok s → ofTokens s.printed = .ok s) ∧
      ∀ (a b : List Value) (s t : Shape), ofTokens a = .ok s → ofTokens b = .ok t →
        (s.facts = t.facts ↔ s.printed = t.printed) := by
  refine ⟨fun tokens s h => ofTokens_printed h, fun a b s t ha hb => ⟨printed_eq_of_facts, fun hprinted => ?_⟩⟩
  have hs := ofTokens_printed ha
  rw [hprinted, ofTokens_printed hb] at hs
  cases hs
  rfl

/-- A number and a numeral of two scripts with a line break behind it are printed alike and describe the same shape. -/
theorem Shape.printed_determines_facts_spellings :
    ∃ s t : Shape, ofTokens [.int 13, .string "CV_8U"] = .ok s ∧
      ofTokens [.string "1٣\n", .string "CV_8U:Mat"] = .ok t ∧
        s.printed = [.string "13", .string "CV_8U:Mat"] ∧ ofTokens s.printed = .ok s ∧ s.facts = t.facts := by
  have hs : ofTokens [.int 13, .string "CV_8U"] = .ok ⟨[], [some 13], .matrix .u8 none .mat false⟩ := by rfl
  have ht : ofTokens [.string "1٣\n", .string "CV_8U:Mat"] = .ok ⟨[], [some 13], .matrix .u8 none .mat false⟩ := by
    rfl
  exact ⟨_, _, hs, ht, rfl, printed_determines_facts.1 _ _ hs, (printed_determines_facts.2 _ _ _ _ hs ht).mpr rfl⟩

end TensorBridge
