import TensorBridge.Proofs.Computation
import TensorBridge.Proofs.Operator.Literals
import TensorBridge.Proofs.Text.Trimmed

/-!
# Expressions of attribute types

An expression is the name of a type, an equals sign with any spaces around it, and a text that is a literal of the type
once it is trimmed. The reader takes the text up to a line break behind its first character and drops the rest, and it
takes a string that holds its own quote. So it reads an expression as it is meant exactly if nothing but blanks is
dropped and the quote of a string delimits it; the attribute types that it accepts are printed as expressions that it
reads back.
-/

namespace TensorBridge.AttrType

/-! ## The parts of an expression -/

/-- An expression consists of the name of a type, an equals sign with any spaces around it, and a text. -/
structure IsExpression (kind : AttrKind) (text : List Char) (s : String) : Prop where
  parts : ∃ before after, s.toList =
    kind.name.toList ++ (List.replicate before ' ' ++ '=' :: (List.replicate after ' ' ++ text))
  no_space : text.head? ≠ some ' '

/-- An expression describes an attribute type if the core of its text is the default and a literal of the type. -/
def Describes (s : String) (a : AttrType) : Prop :=
  ∃ text, IsExpression a.kind text s ∧ HasCore text a.default.toList ∧ IsLiteralOf a.kind a.default.toList

/-- The first character of a text and what follows it up to a line break. -/
def firstLine : List Char → List Char
  | [] => []
  | first :: rest => first :: rest.takeWhile (· ≠ '\n')

/-- Behind the first character of a text there is a line break with something else than blanks behind it. -/
def IsCut (text : List Char) : Prop :=
  ∃ front back, front ≠ [] ∧ text = front ++ '\n' :: back ∧ ∃ c ∈ back, isBlank c = false

/-- An expression of whose text something else than blanks is dropped. -/
def LosesText (s : String) : Prop := ∃ kind text, IsExpression kind text s ∧ IsCut text

/-- Spaces are dropped from the front of a text. -/
theorem dropSpaces_eq_iff {cs rest : List Char} :
    dropSpaces cs = rest ↔ rest.head? ≠ some ' ' ∧ ∃ n, cs = List.replicate n ' ' ++ rest := by
  unfold dropSpaces
  constructor
  · rintro rfl
    obtain ⟨hcs, hspaces, hfirst⟩ := parted_iff.mp ⟨(rfl : cs.takeWhile (· = ' ') = _), rfl⟩
    refine ⟨fun hspace => absurd (hfirst ' ' hspace) (by decide), (cs.takeWhile (· = ' ')).length, ?_⟩
    have hreplicate : cs.takeWhile (· = ' ') = List.replicate (cs.takeWhile (· = ' ')).length ' ' :=
      List.eq_replicate_iff.mpr ⟨rfl, fun c hc => of_decide_eq_true (hspaces c hc)⟩
    rwa [← hreplicate]
  · rintro ⟨hrest, n, rfl⟩
    refine (parted_iff.mpr ⟨rfl, fun c hc => ?_, fun c hc => ?_⟩).2
    · exact decide_eq_true (List.eq_of_mem_replicate hc)
    · rw [decide_eq_false_iff_not]
      rintro rfl
      exact hrest hc

/-- The type of an expression is found by its name. -/
theorem findSome?_afterStart?_eq_some {cs rest : List Char} {kind : AttrKind} :
    (AttrKind.all.findSome? fun kind => (afterStart? kind.name.toList cs).map (kind, ·)) = some (kind, rest) ↔
      cs = kind.name.toList ++ rest := by
  constructor
  · intro h
    obtain ⟨found, _, h⟩ := List.exists_of_findSome?_eq_some h
    obtain ⟨rest', hstart, h⟩ := Option.map_eq_some_iff.mp h
    obtain ⟨rfl, rfl⟩ := Prod.mk.inj h
    exact afterStart?_eq_some_iff.mp hstart
  · rintro rfl
    -- the names start with different letters
    cases kind <;> rfl

/-- The parts of an expression are found by its reader, the text as far as it is read. -/
theorem split?_eq_some_iff {s : String} {kind : AttrKind} {value : List Char} :
    split? s.toList = some (kind, value) ↔ ∃ text, IsExpression kind text s ∧ text ≠ [] ∧ value = firstLine text := by
  unfold split?
  constructor
  · intro h
    obtain ⟨⟨found, rest⟩, hkind, h⟩ := Option.bind_eq_some_iff.mp h
    rw [findSome?_afterStart?_eq_some] at hkind
    dsimp only at h
    split at h
    · next rest' hequals =>
      obtain ⟨_, before, hrest⟩ := dropSpaces_eq_iff.mp hequals
      split at h
      · next first line htext =>
        obtain ⟨hspace, after, hrest'⟩ := dropSpaces_eq_iff.mp htext
        cases h
        exact ⟨first :: line, ⟨⟨before, after, by rw [hkind, hrest, hrest']⟩, hspace⟩, List.cons_ne_nil _ _, rfl⟩
      · cases h
    · cases h
  · rintro ⟨text, ⟨⟨before, after, hs⟩, hspace⟩, hne, rfl⟩
    have hequals : dropSpaces (List.replicate before ' ' ++ '=' :: (List.replicate after ' ' ++ text)) =
        '=' :: (List.replicate after ' ' ++ text) := dropSpaces_eq_iff.mpr ⟨by simp, before, rfl⟩
    have htext : dropSpaces (List.replicate after ' ' ++ text) = text := dropSpaces_eq_iff.mpr ⟨hspace, after, rfl⟩
    refine Option.bind_eq_some_iff.mpr ⟨_, findSome?_afterStart?_eq_some.mpr hs, ?_⟩
    cases text with
    | nil => exact absurd rfl hne
    | cons first rest => simp only [hequals, htext, firstLine]

/-- An expression has one type and one text. -/
theorem IsExpression.unique {s : String} {kind kind' : AttrKind} {text text' : List Char}
    (h : IsExpression kind text s) (h' : IsExpression kind' text' s) : kind = kind' ∧ text = text' := by
  obtain ⟨⟨before, after, hs⟩, hspace⟩ := h
  obtain ⟨⟨before', after', hs'⟩, hspace'⟩ := h'
  have hfound := (findSome?_afterStart?_eq_some.mpr hs).symm.trans (findSome?_afterStart?_eq_some.mpr hs')
  obtain ⟨hkind, hrest⟩ := Prod.mk.inj (Option.some.inj hfound)
  have hequals := dropSpaces_eq_iff.mpr ⟨by simp, before, hrest.symm⟩
  rw [dropSpaces_eq_iff.mpr ⟨by simp, before', rfl⟩] at hequals
  have htext := dropSpaces_eq_iff.mpr ⟨hspace, after, (List.cons.inj hequals).2⟩
  rw [dropSpaces_eq_iff.mpr ⟨hspace', after', rfl⟩] at htext
  exact ⟨hkind, htext.symm⟩

/-! ## What is read of a text -/

/-- There is no line break behind the first character of what is read. -/
theorem newline_not_mem_firstLine (text : List Char) : '\n' ∉ (firstLine text).tail := by
  cases text with
  | nil => exact List.not_mem_nil
  | cons first rest => exact fun h => by simpa using List.mem_takeWhile_imp h

/-- A text without line breaks is read as a whole. -/
theorem firstLine_of_not_mem {text : List Char} (h : '\n' ∉ text) : firstLine text = text := by
  cases text with
  | nil => rfl
  | cons first rest =>
    rw [List.mem_cons, not_or] at h
    rw [firstLine, List.takeWhile_eq_self_iff.mpr fun c hc => by simpa using ne_of_mem_of_not_mem hc h.2]

/-- A line break that starts a text is trimmed away. -/
theorem newline_not_mem_trimChars {cs : List Char} (h : '\n' ∉ cs.tail) : '\n' ∉ trimChars cs := by
  cases cs with
  | nil => exact List.not_mem_nil
  | cons first rest =>
    by_cases hfirst : first = '\n'
    · subst hfirst
      exact fun hmem => h (mem_of_mem_trimChars hmem)
    · intro hmem
      rcases List.mem_cons.mp (mem_of_mem_trimChars hmem) with heq | hmem
      · exact hfirst heq.symm
      · exact h hmem

/-- What is read of a text has the core of the text exactly if nothing but blanks is dropped. -/
theorem trimChars_firstLine_iff {text : List Char} : trimChars (firstLine text) = trimChars text ↔ ¬ IsCut text := by
  constructor
  · rintro htrim ⟨front, back, hne, rfl, c, hc, hblank⟩
    -- the core of the text has at least one character more that is not blank
    obtain ⟨first, front, rfl⟩ := List.exists_cons_of_ne_nil hne
    have hread : (firstLine (first :: front ++ '\n' :: back)).Sublist (first :: front) := by
      rw [List.cons_append, firstLine]
      refine List.Sublist.cons_cons first ?_
      rw [List.takeWhile_append]
      split
      · rw [List.takeWhile_cons_of_neg (by simp), List.append_nil]
      · exact List.takeWhile_sublist _
    have hcount := congrArg (List.countP (!isBlank ·)) htrim
    rw [countP_trimChars, countP_trimChars, List.countP_append] at hcount
    have hle := hread.countP_le (p := (!isBlank ·))
    have hpos : 0 < ('\n' :: back).countP (!isBlank ·) :=
      List.countP_pos_iff.mpr ⟨c, List.mem_cons_of_mem _ hc, by simp [hblank]⟩
    omega
  · intro hcut
    cases text with
    | nil => rfl
    | cons first rest =>
      have hrest := List.takeWhile_append_dropWhile (p := (· ≠ '\n')) (l := rest)
      have hdropped : ∀ c ∈ rest.dropWhile (· ≠ '\n'), isBlank c = true := by
        cases hdrop : rest.dropWhile (· ≠ '\n') with
        | nil => exact List.forall_mem_nil _
        | cons newline back =>
          obtain ⟨_, _, hfirst⟩ := parted_at_iff.mp ⟨rfl, hdrop⟩
          obtain rfl := hfirst newline rfl
          refine List.forall_mem_cons.mpr ⟨rfl, fun c hc => ?_⟩
          by_contra hblank
          refine hcut ⟨first :: rest.takeWhile (· ≠ '\n'), back, List.cons_ne_nil _ _, ?_, c, hc, by simpa using hblank⟩
          rw [← hdrop, List.cons_append, hrest]
      rw [firstLine, ← trimChars_append_blank hdropped, List.cons_append, hrest]

/-- Whether an expression loses text is seen from its text. -/
theorem IsExpression.losesText_iff {s : String} {kind : AttrKind} {text : List Char} (h : IsExpression kind text s) :
    LosesText s ↔ IsCut text := by
  constructor
  · rintro ⟨_, _, h', hcut⟩
    obtain ⟨_, rfl⟩ := h.unique h'
    exact hcut
  · exact fun hcut => ⟨kind, text, h, hcut⟩

/-! ## Accepted expressions -/

/-- An expression is read as an attribute type if the core of what is read of its text is the default, and this is a
literal of the type or a string that holds its quote. -/
def IsReadAs (s : String) (a : AttrType) : Prop :=
  ∃ text, IsExpression a.kind text s ∧ HasCore (firstLine text) a.default.toList ∧
    (IsLiteralOf a.kind a.default.toList ∨ HoldsQuote a.kind a.default.toList)

/-- What is accepted as a literal is not empty. -/
theorem ne_nil_of_isLiteral {kind : AttrKind} {value : String} (h : isLiteral kind value = true) :
    value.toList ≠ [] := by
  have hempty : isLiteral kind "" = false := by cases kind <;> rfl
  intro hnil
  rw [String.toList_eq_nil_iff.mp hnil, hempty] at h
  cases h

/-- The default of an accepted expression is accepted as a literal of its type. -/
theorem isLiteral_of_ofExpression {expression : Value} {a : AttrType} (h : ofExpression expression = .ok a) :
    isLiteral a.kind a.default = true := by
  unfold ofExpression at h
  split at h
  · split at h
    · cases h
    · dsimp only at h
      split at h
      · next hliteral =>
        cases h
        exact hliteral
      · cases h
  · cases h

/-- An accepted expression is a text. -/
theorem exists_string_of_ofExpression {expression : Value} {a : AttrType} (h : ofExpression expression = .ok a) :
    ∃ s, expression = .string s := by
  unfold ofExpression at h
  split at h
  · exact ⟨_, rfl⟩
  · cases h

/-- Which expressions are accepted, and as what. -/
theorem ofExpression_eq_ok_iff {s : String} {a : AttrType} : ofExpression (.string s) = .ok a ↔ IsReadAs s a := by
  constructor
  · intro h
    have hliteral := isLiteral_of_ofExpression h
    unfold ofExpression at h
    dsimp only at h
    split at h
    · cases h
    · next kind value hsplit =>
      obtain ⟨text, hexpression, _, rfl⟩ := split?_eq_some_iff.mp hsplit
      split at h
      · cases h
        refine ⟨text, hexpression, ?_, isLiteral_iff.mp hliteral⟩
        rw [String.toList_ofList]
        exact hasCore_trimChars _
      · cases h
  · rintro ⟨text, hexpression, hcore, hliteral⟩
    rw [← isLiteral_iff] at hliteral
    rw [← trimChars_eq_iff] at hcore
    have hne : text ≠ [] := by
      rintro rfl
      exact ne_nil_of_isLiteral hliteral hcore.symm
    have hdefault : String.ofList (trimChars (firstLine text)) = a.default := by rw [hcore, String.ofList_toList]
    unfold ofExpression
    dsimp only
    rw [split?_eq_some_iff.mpr ⟨text, hexpression, hne, rfl⟩]
    dsimp only
    rw [hdefault, if_pos hliteral]

/-- An expression that is not accepted is refused as an attribute, and it is what the refusal blames. -/
theorem ofExpression_ok_or_refused (s : String) :
    (∃ a, ofExpression (.string s) = .ok a) ∨
      ∃ r, ofExpression (.string s) = refuse r ∧ r.kind = .attribute ∧ r.token = .string s := by
  unfold ofExpression
  dsimp only
  split
  · exact .inr ⟨_, rfl, rfl, rfl⟩
  · split
    · exact .inl ⟨_, rfl⟩
    · exact .inr ⟨_, rfl, rfl, rfl⟩

/-- The default of an accepted expression holds no line break. -/
theorem newline_not_mem_default {expression : Value} {a : AttrType} (h : ofExpression expression = .ok a) :
    '\n' ∉ a.default.toList := by
  obtain ⟨s, rfl⟩ := exists_string_of_ofExpression h
  obtain ⟨text, _, hcore, _⟩ := ofExpression_eq_ok_iff.mp h
  rw [← trimChars_eq_iff.mpr hcore]
  exact newline_not_mem_trimChars (newline_not_mem_firstLine text)

/-- An accepted expression describes what it is read as exactly if it loses no text and the quote of a string delimits
it. -/
theorem describes_iff_of_ofExpression {s : String} {a : AttrType} (h : ofExpression (.string s) = .ok a) :
    Describes s a ↔ ¬ LosesText s ∧ ¬ HoldsQuote a.kind a.default.toList := by
  obtain ⟨text, hexpression, hcore, hliteral⟩ := ofExpression_eq_ok_iff.mp h
  have hwhole : HasCore text a.default.toList ↔ ¬ IsCut text := by
    rw [← trimChars_firstLine_iff, trimChars_eq_iff.mpr hcore, ← trimChars_eq_iff, eq_comm]
  rw [hexpression.losesText_iff]
  constructor
  · rintro ⟨text', hexpression', htext, hdefault⟩
    obtain ⟨_, rfl⟩ := hexpression.unique hexpression'
    exact ⟨hwhole.mp htext, hdefault.not_holdsQuote⟩
  · rintro ⟨hcut, hquote⟩
    exact ⟨text, hexpression, hwhole.mpr hcut, hliteral.resolve_right hquote⟩

/-- An expression that describes an attribute type is read as this type exactly if it loses no text. -/
theorem ofExpression_iff_of_describes {s : String} {a : AttrType} (h : Describes s a) :
    ofExpression (.string s) = .ok a ↔ ¬ LosesText s := by
  obtain ⟨text, hexpression, hcore, hliteral⟩ := h
  have hread : HasCore (firstLine text) a.default.toList ↔ ¬ IsCut text := by
    rw [← trimChars_firstLine_iff, trimChars_eq_iff.mpr hcore, trimChars_eq_iff]
  rw [ofExpression_eq_ok_iff, hexpression.losesText_iff, ← hread]
  constructor
  · rintro ⟨text', hexpression', htext, _⟩
    obtain ⟨_, rfl⟩ := hexpression.unique hexpression'
    exact htext
  · exact fun htext => ⟨text, hexpression, htext, .inl hliteral⟩

/-- Which expressions are accepted and as what. This is what the expression describes exactly if it loses no text behind
a line break and, for a string, the quote does not stand inside; an expression that describes an attribute type is
accepted as this unless it loses text. Every other expression is refused. -/
theorem ofExpression_accepts_iff (s : String) :
    (∀ a, ofExpression (.string s) = .ok a ↔ IsReadAs s a) ∧
      (∀ a, ofExpression (.string s) = .ok a →
        (Describes s a ↔ ¬ LosesText s ∧ ¬ HoldsQuote a.kind a.default.toList)) ∧
      (∀ a, Describes s a → (ofExpression (.string s) = .ok a ↔ ¬ LosesText s)) ∧
      ((∃ a, ofExpression (.string s) = .ok a) ∨
        ∃ r, ofExpression (.string s) = refuse r ∧ r.kind = .attribute ∧ r.token = .string s) :=
  ⟨fun _ => ofExpression_eq_ok_iff, fun _ => describes_iff_of_ofExpression, fun _ => ofExpression_iff_of_describes,
    ofExpression_ok_or_refused s⟩

/-- Spaces around the equals sign and white space behind the value, a line break among it, lose nothing. -/
theorem ofExpression_accepts_iff_spaced :
    ofExpression (.string "float=   1.25 \n") = .ok ⟨.float, "1.25"⟩ ∧
      Describes "float=   1.25 \n" ⟨.float, "1.25"⟩ := by
  have hread : ofExpression (.string "float=   1.25 \n") = .ok ⟨.float, "1.25"⟩ := rfl
  have hexpression : IsExpression .float ['1', '.', '2', '5', ' ', '\n'] "float=   1.25 \n" :=
    ⟨⟨0, 3, rfl⟩, by decide⟩
  have hkept : ¬ LosesText "float=   1.25 \n" := hexpression.losesText_iff.not.mpr (trimChars_firstLine_iff.mp rfl)
  exact ⟨hread, ((ofExpression_accepts_iff _).2.1 _ hread).mpr ⟨hkept, fun h => nomatch h.1⟩⟩

/-- A text behind a line break is dropped, though the expression describes nothing. -/
theorem brokenExpression_accepted :
    ofExpression (.string "int = 3\nrest") = .ok ⟨.int, "3"⟩ ∧ ¬ ∃ a, Describes "int = 3\nrest" a := by
  refine ⟨rfl, ?_⟩
  rintro ⟨⟨kind, default⟩, text, hexpression, hcore, hliteral⟩
  have hparts : IsExpression .int ['3', '\n', 'r', 'e', 's', 't'] "int = 3\nrest" := ⟨⟨1, 1, rfl⟩, by decide⟩
  obtain ⟨rfl, rfl⟩ := hparts.unique hexpression
  have haccepted := isLiteral_iff.mpr (.inl hliteral)
  rw [← String.toList_inj.mp ((String.toList_ofList).trans (trimChars_eq_iff.mpr hcore))] at haccepted
  cases haccepted

/-! ## Attribute types as expressions -/

/-- An accepted attribute type has a default without blanks at its ends and without line breaks, and its text is read
back. -/
theorem ofExpression_text {s : String} {a : AttrType} (h : ofExpression (.string s) = .ok a) :
    ∃ first last, a.default.toList.head? = some first ∧ a.default.toList.getLast? = some last ∧
      isBlank first = false ∧ isBlank last = false ∧ '\n' ∉ a.default.toList ∧
        ofExpression (.string a.text) = .ok a := by
  have hne := ne_nil_of_isLiteral (isLiteral_of_ofExpression h)
  have hbreak := newline_not_mem_default h
  obtain ⟨text, _, hcore, hliteral⟩ := ofExpression_eq_ok_iff.mp h
  have hfirst := List.head?_eq_some_head hne
  have hlast := List.getLast?_eq_some_getLast hne
  refine ⟨_, _, hfirst, hlast, hcore.head _ hfirst, hcore.last _ hlast, hbreak, ?_⟩
  have hexpression : IsExpression a.kind a.default.toList a.text := by
    refine ⟨⟨1, 1, ?_⟩, ?_⟩
    · rw [AttrType.text, String.toList_append, String.toList_append, List.append_assoc]
      rfl
    · intro hspace
      exact absurd (hcore.head _ hspace) (by decide)
  refine ofExpression_eq_ok_iff.mpr ⟨_, hexpression, ?_, hliteral⟩
  rw [firstLine_of_not_mem hbreak]
  exact ⟨⟨[], [], by simp, List.forall_mem_nil _, List.forall_mem_nil _⟩, hcore.head, hcore.last⟩

/-- A value that starts on a line of its own is read, and printed behind the equals sign. -/
theorem ofExpression_text_line :
    ofExpression (.string "int=\n-12\t") = .ok ⟨.int, "-12"⟩ ∧
      ofExpression (.string "int = -12") = .ok ⟨.int, "-12"⟩ := by
  have h : ofExpression (.string "int=\n-12\t") = .ok ⟨.int, "-12"⟩ := rfl
  obtain ⟨_, _, _, _, _, _, _, hback⟩ := ofExpression_text h
  exact ⟨h, hback⟩

end TensorBridge.AttrType
