import TensorBridge.Conversion.Basic
import TensorBridge.Proofs.Text.Numerals
import TensorBridge.Proofs.Text.Trimmed

/-!
# What a type text says

The trees of a kernel hold types as text. This module reads such a text the way a compiler does as far as a
declaration depends on it: layers of vectors around a scalar, a `Mat`, or a container whose sizes are part of
its type. White space around names is passed over.

The main statements say that the texts written for a shape are read back as its layers, its sizes and its
element.
-/

namespace TensorBridge

/-- The type of an object. -/
inductive ObjectType
  | scalar (name : String)
  | mat
  | fixed (container : Container) (scalar : String) (sizes : List Nat)
  | vector (item : ObjectType)
deriving DecidableEq, Repr

namespace ObjectType

/-- The number of channels of a value of a type: the size of a `Vec`, and one for everything else. -/
def channels : ObjectType → Nat
  | .fixed .vec _ [n] => n
  | _ => 1

/-- A type inside some layers of vectors. -/
def layered (core : ObjectType) : Nat → ObjectType
  | 0 => core
  | layers + 1 => .vector (layered core layers)

end ObjectType

/-! ## Numerals -/

/-- The number that a numeral writes, if it is one. -/
def readNumeral? (digits : List Char) : Option Nat :=
  if digits ≠ [] ∧ digits.all isDecimalDigit then some (numeralValue digits) else none

/-- A printed number is a numeral for it. -/
theorem readNumeral?_toString (n : Nat) : readNumeral? (toString n).toList = some n := by
  have hdigits : (toString n).toList = Nat.toDigits 10 n := Nat.toList_repr
  have hall : ((toString n).toList).all isDecimalDigit = true :=
    List.all_eq_true.mpr fun c hc => isDecimalDigit_of_isDigit (isDigit_of_mem_toString hc)
  rw [readNumeral?, if_pos ⟨by simp, hall⟩, hdigits, numeralValue_toDigits]

/-- Printed numbers are numerals for them. -/
theorem mapM_readNumeral? (sizes : List Nat) :
    (sizes.map fun n => (toString n).toList).mapM readNumeral? = some sizes := by
  induction sizes with
  | nil => rfl
  | cons n rest ih =>
    rw [List.map_cons, List.mapM_cons, readNumeral?_toString, ih]
    rfl

/-! ## Reading types -/

/-- A name with arguments in angle brackets. -/
structure Template where
  name : List Char
  args : List (List Char)

/-- Splits a text into a name and the arguments behind it, if there are any. -/
def Template.ofChars (cs : List Char) : Template :=
  { name := trimChars (cs.takeWhile (· ≠ '<'))
    args := (((cs.dropWhile (· ≠ '<')).drop 1).dropLast.splitOn ',').map trimChars }

/-- What stands in front of the item type of a vector. -/
def vectorStart : List Char := ['v', 'e', 'c', 't', 'o', 'r', '<']

namespace ObjectType

/-- The type that a name with arguments stands for. -/
def ofTemplate (t : Template) : Option ObjectType :=
  match Container.ofName? (String.ofList t.name), t.args with
  | some .mat, [[]] => some .mat
  | some .mat, _ => none
  | some container, value :: sizes =>
    (sizes.mapM readNumeral?).map (.fixed container (String.ofList value))
  | none, [[]] => some (.scalar (String.ofList t.name))
  | _, _ => none

/-- Reads the text of a type. -/
def ofChars (cs : List Char) : Option ObjectType :=
  match _hstart : afterStart? vectorStart cs with
  | some inner => if inner.getLast? = some '>' then (ofChars inner.dropLast).map .vector else none
  | none => ofTemplate (Template.ofChars cs)
termination_by cs.length
decreasing_by
  have hcs := afterStart?_eq_some_iff.mp _hstart
  simp only [hcs, List.length_append, List.length_dropLast, vectorStart, List.length_cons, List.length_nil]
  omega

/-- The type that a text names. -/
def ofText (text : String) : Option ObjectType := ofChars text.toList

/-- A text that is no vector is read as a name with arguments. -/
theorem ofChars_of_none {cs : List Char} (h : afterStart? vectorStart cs = none) :
    ofChars cs = ofTemplate (Template.ofChars cs) := by
  rw [ofChars]
  split
  · next inner hinner => rw [h] at hinner; contradiction
  · rfl

/-- A vector is read by its item. -/
theorem ofChars_vector (inner : List Char) :
    ofChars (vectorStart ++ inner ++ ['>']) = (ofChars inner).map .vector := by
  have hstart : afterStart? vectorStart (vectorStart ++ inner ++ ['>']) = some (inner ++ ['>']) :=
    afterStart?_eq_some_iff.mpr (List.append_assoc _ _ _)
  rw [ofChars]
  split
  · next rest hrest =>
    obtain rfl : inner ++ ['>'] = rest := Option.some.inj (hstart.symm.trans hrest)
    simp
  · next hnone => rw [hstart] at hnone; contradiction

/-- Layers of vectors around a type are read as such. -/
theorem ofText_vectorType {core : String} {t : ObjectType} (h : ofText core = some t) (layers : Nat) :
    ofText (vectorType core layers) = some (t.layered layers) := by
  induction layers with
  | zero => exact h
  | succ layers ih =>
    have htext : (vectorType core (layers + 1)).toList = vectorStart ++ (vectorType core layers).toList ++ ['>'] := by
      simp [vectorType, vectorStart]
    rw [ofText, htext, ofChars_vector]
    change (ofText (vectorType core layers)).map vector = _
    rw [ih]
    rfl

end ObjectType

/-! ## Arguments in angle brackets -/

/-- A space in front is trimmed off. -/
theorem trimChars_space_cons (cs : List Char) : trimChars (' ' :: cs) = trimChars cs := rfl

/-- Text for one argument in angle brackets: no blank, and nothing that ends an argument or the name. -/
def IsArgument (cs : List Char) : Prop := ∀ c ∈ cs, isBlank c = false ∧ c ≠ ',' ∧ c ≠ '<'

instance (cs : List Char) : Decidable (IsArgument cs) := List.decidableBAll _ cs

/-- A printed number is text for one argument. -/
theorem isArgument_toString (n : Nat) : IsArgument (toString n).toList := by
  intro c hc
  have hdigit := isDigit_of_mem_toString hc
  simp only [Char.isDigit, Bool.and_eq_true, decide_eq_true_eq] at hdigit
  have hlow : 48 ≤ c.toNat := hdigit.1
  have hhigh : c.toNat ≤ 57 := hdigit.2
  refine ⟨?_, ?_, ?_⟩
  · simp only [isBlank, Bool.or_eq_false_iff, Bool.and_eq_false_iff, decide_eq_false_iff_not, beq_eq_false_iff_ne]
    omega
  · rintro rfl
    revert hlow
    decide
  · rintro rfl
    revert hhigh
    decide

/-- A list with a space after each comma, as one where the space belongs to the next item. -/
theorem intercalate_comma_space (item : List Char) (rest : List (List Char)) :
    [',', ' '].intercalate (item :: rest) = [','].intercalate (item :: rest.map (' ' :: ·)) := by
  induction rest generalizing item with
  | nil => rfl
  | cons next rest ih =>
    rw [List.intercalate_cons_cons, List.map_cons, List.intercalate_cons_cons, ih next]
    cases rest <;> simp [List.intercalate_cons_cons]

/-- A written list of arguments is split into them. -/
theorem splitOn_commaList {items : List String} (hne : items ≠ []) (hitems : ∀ item ∈ items, IsArgument item.toList) :
    ((commaList items).toList.splitOn ',').map trimChars = items.map String.toList := by
  cases items with
  | nil => contradiction
  | cons item rest =>
    have htrim (x : String) (hx : x ∈ item :: rest) : trimChars x.toList = x.toList :=
      trimChars_of_not_blank fun c hc => (hitems x hx c hc).1
    have hsplit : (commaList (item :: rest)).toList.splitOn ',' =
        item.toList :: rest.map fun x => ' ' :: x.toList := by
      rw [commaList, String.toList_intercalate, List.map_cons]
      change ([',', ' '].intercalate (item.toList :: rest.map String.toList)).splitOn ',' = _
      rw [intercalate_comma_space, List.splitOn_intercalate, List.map_map]
      · rfl
      · intro l hl
        rcases List.mem_cons.mp hl with rfl | hl
        · exact fun hc => (hitems item List.mem_cons_self ',' hc).2.1 rfl
        · obtain ⟨_, htext, rfl⟩ := List.mem_map.mp hl
          obtain ⟨x, hx, rfl⟩ := List.mem_map.mp htext
          intro hc
          rcases List.mem_cons.mp hc with hc | hc
          · exact absurd hc (by decide)
          · exact (hitems x (List.mem_cons_of_mem _ hx) ',' hc).2.1 rfl
      · simp
    rw [hsplit, List.map_cons, List.map_cons, htrim item List.mem_cons_self, List.map_map]
    refine congrArg _ (List.map_congr_left fun x hx => ?_)
    change trimChars (' ' :: x.toList) = x.toList
    rw [trimChars_space_cons, htrim x (List.mem_cons_of_mem _ hx)]

/-- A name with written arguments is split into name and arguments. -/
theorem Template.ofChars_brackets {name : String} {items : List String} (hname : IsArgument name.toList)
    (hne : items ≠ []) (hitems : ∀ item ∈ items, IsArgument item.toList) :
    Template.ofChars (name ++ "<" ++ commaList items ++ ">").toList = ⟨name.toList, items.map String.toList⟩ := by
  have htext : (name ++ "<" ++ commaList items ++ ">").toList =
      name.toList ++ '<' :: ((commaList items).toList ++ ['>']) := by
    simp
  have hopen : ∀ c ∈ name.toList, decide (c ≠ '<') = true := fun c hc => decide_eq_true (hname c hc).2.2
  rw [htext, Template.ofChars, List.takeWhile_append_of_pos hopen, List.dropWhile_append_of_pos hopen]
  simp only [ne_eq, not_true_eq_false, decide_false, List.takeWhile_cons, List.dropWhile_cons, Bool.false_eq_true,
    ↓reduceIte, List.append_nil, List.drop_succ_cons, List.drop_zero, List.dropLast_concat,
    splitOn_commaList hne hitems, trimChars_of_not_blank fun c hc => (hname c hc).1]

/-! ## The types of a shape -/

/-- The type of one value: a scalar, or a `Vec` of the channels if there are several. -/
def valueTypeOf (scalar : String) (channels : Nat) : ObjectType :=
  if 1 < channels then .fixed .vec scalar [channels] else .scalar scalar

/-- The number of channels that stands at the end of a type constant; none stands for one channel. -/
def readChannelCount? : List Char → Option Nat
  | [] => some 1
  | ['C', digit] => digitValue? digit
  | _ => none

/-- The type of the elements of a matrix that is made with a type constant. -/
def elementOfConstant? (constant : String) : Option ObjectType := do
  let code ← afterStart? ['C', 'V', '_'] (trimChars constant.toList)
  Depth.all.findSome? fun depth =>
    ((afterStart? depth.code.toList code).bind readChannelCount?).map (valueTypeOf depth.scalar)

namespace Element

/-- The name of the scalar type of an element, without a line break. -/
def scalarName : Element → String
  | .primitive type _ => type.name
  | .matrix depth _ _ _ => depth.scalar

/-- The type of one value of an element. -/
def objectType (e : Element) : ObjectType := valueTypeOf e.scalarName e.channels

/-- The type of an element has the channels of the element. -/
theorem channels_objectType (e : Element) : e.objectType.channels = e.channels := by
  unfold objectType valueTypeOf
  split
  · rfl
  · cases e with
    | primitive type endsLine => rfl
    | matrix depth written container endsLine =>
      cases written with
      | none => rfl
      | some k =>
        simp only [channels] at *
        change 1 = k.val + 1
        omega

/-- The name of a primitive type is read back, with or without a line break behind it. -/
theorem ofText_scalar_primitive (type : Primitive) (endsLine : Bool) :
    ObjectType.ofText (primitive type endsLine).scalar = some (.scalar type.name) := by
  rw [ObjectType.ofText, ObjectType.ofChars_of_none (by cases type <;> cases endsLine <;> rfl)]
  cases type <;> cases endsLine <;> rfl

/-- The name of a depth's scalar type is text for one argument. -/
theorem isArgument_scalar (depth : Depth) : IsArgument depth.scalar.toList := by
  cases depth <;> decide

end Element

/-- The name of a fixed container stands for it with a scalar and sizes. -/
theorem ofTemplate_fixed {container : Container} (hfixed : container.isFixed = true) (value : List Char)
    (sizes : List (List Char)) :
    ObjectType.ofTemplate ⟨container.name.toList, value :: sizes⟩ =
      (sizes.mapM readNumeral?).map (.fixed container (String.ofList value)) := by
  unfold ObjectType.ofTemplate
  rw [String.ofList_toList, Container.ofName?_name]
  cases container with
  | mat => simp [Container.isFixed] at hfixed
  | matx => rfl
  | vec => rfl

/-- A fixed container is read by its scalar and its sizes. -/
theorem ofText_fixed {container : Container} (hfixed : container.isFixed = true) {scalar : String}
    (hscalar : IsArgument scalar.toList) (sizes : List Nat) :
    ObjectType.ofText (container.name ++ "<" ++ commaList (scalar :: sizes.map toString) ++ ">") =
      some (.fixed container scalar sizes) := by
  have hname : IsArgument container.name.toList := by
    cases container <;> decide
  have hitems : ∀ item ∈ scalar :: sizes.map toString, IsArgument item.toList := by
    intro item hitem
    rcases List.mem_cons.mp hitem with rfl | hitem
    · exact hscalar
    · obtain ⟨n, _, rfl⟩ := List.mem_map.mp hitem
      exact isArgument_toString n
  have hnovector : afterStart? vectorStart
      (container.name ++ "<" ++ commaList (scalar :: sizes.map toString) ++ ">").toList = none := by
    cases container <;> simp [Container.name, vectorStart, afterStart?]
  rw [ObjectType.ofText, ObjectType.ofChars_of_none hnovector, Template.ofChars_brackets hname (by simp) hitems]
  rw [List.map_cons, ofTemplate_fixed hfixed, List.map_map]
  change ((sizes.map fun n => (toString n).toList).mapM readNumeral?).map _ = _
  rw [mapM_readNumeral?, String.ofList_toList]
  rfl

namespace Element

/-- A value type is read back. -/
theorem ofText_valueTypeOf (depth : Depth) (channels : Nat) :
    ObjectType.ofText
        (if 1 < channels then "Vec<" ++ depth.scalar ++ ", " ++ toString channels ++ ">" else depth.scalar) =
      some (valueTypeOf depth.scalar channels) := by
  unfold valueTypeOf
  split
  · have hfixed : Container.vec.isFixed = true := rfl
    have htext := ofText_fixed hfixed (isArgument_scalar depth) [channels]
    simpa [Container.name, commaList, String.append_assoc] using htext
  · rw [ObjectType.ofText, ObjectType.ofChars_of_none (by cases depth <;> rfl)]
    cases depth <;> rfl

/-- The type text of a matrix element's values is read back. -/
theorem ofText_valueType {e : Element} (h : e.isMatrix = true) : ObjectType.ofText e.valueType = some e.objectType := by
  cases e with
  | primitive type endsLine => simp [isMatrix] at h
  | matrix depth written container endsLine => exact ofText_valueTypeOf depth _

/-- The type constant of a matrix element names the type of its values. -/
theorem elementOfConstant?_matrixConstant {e : Element} (h : e.isMatrix = true) :
    elementOfConstant? e.matrixConstant = some e.objectType := by
  cases e with
  | primitive type endsLine => simp [isMatrix] at h
  | matrix depth written container endsLine =>
    cases written with
    | none =>
      change elementOfConstant? (depth.matrixType ++ "" ++ lineEnd endsLine) = some (valueTypeOf depth.scalar 1)
      cases depth <;> cases endsLine <;> rfl
    | some k =>
      change elementOfConstant? (depth.matrixType ++ ("C" ++ toString (k.val + 1)) ++ lineEnd endsLine) =
        some (valueTypeOf depth.scalar (k.val + 1))
      clear h
      revert k
      cases depth <;> cases endsLine <;> decide

end Element

end TensorBridge
