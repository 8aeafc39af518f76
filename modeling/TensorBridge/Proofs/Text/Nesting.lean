import TensorBridge.Proofs.Text.Brackets
import TensorBridge.Proofs.Text.NormalForms
import TensorBridge.Proofs.Text.Numerals

/-!
# Texts in a scan of brackets

A text is put together from pieces that need not be well bracketed by themselves: one line opens a block and a later
one closes it. What a piece does is said by the scan in front of it and the scan behind it, and pieces in a row are
joined where these meet. A text that closes all that it opens, and nothing else, can stand anywhere outside quotes;
indentation and the separators of a list do not change that.
-/

namespace TensorBridge

/-- A scan that has come to the front of a text gets through it, and then stands at `after`. -/
def Leads (before : Scan) (text : String) (after : Scan) : Prop := before.through text.toList = some after

/-- A character that is neither a bracket nor a double quote. -/
def IsPlainChar (c : Char) : Prop := ¬ IsBracket c ∧ c ≠ '\x22'

/-- A text without brackets and double quotes. -/
def IsPlainText (text : String) : Prop := ∀ c ∈ text.toList, IsPlainChar c

instance (c : Char) : Decidable (IsPlainChar c) := inferInstanceAs (Decidable (¬ IsBracket c ∧ c ≠ '\x22'))

instance (text : String) : Decidable (IsPlainText text) :=
  List.decidableBAll IsPlainChar text.toList

/-- A text that, outside quotes, closes all the brackets and quotes that it opens, and no others. -/
def IsClosedText (text : String) : Prop := ∀ opened, Leads ⟨false, opened⟩ text ⟨false, opened⟩

/-- A text is closed exactly if it is well bracketed. -/
theorem isClosedText_iff {text : String} : IsClosedText text ↔ IsWellBracketed text.toList :=
  ⟨fun h => isWellBracketed_iff.mpr (h []), fun h => Scan.through_inside (isWellBracketed_iff.mp h)⟩

/-- The characters of a literal are scanned inside any open brackets as they are inside those that they close. -/
theorem leads_ofList {quoted quoted' : Bool} {cs : List Char} (before after : List Bracket)
    (h : Scan.through ⟨quoted, before⟩ cs = some ⟨quoted', after⟩) (opened : List Bracket) :
    Leads ⟨quoted, before ++ opened⟩ (String.ofList cs) ⟨quoted', after ++ opened⟩ := by
  rw [Leads, String.toList_ofList]
  exact Scan.through_inside h opened

/-- A literal of well bracketed characters is closed. -/
theorem isClosedText_ofList {cs : List Char} (h : IsWellBracketed cs) : IsClosedText (String.ofList cs) := by
  rwa [isClosedText_iff, String.toList_ofList]

/-! ## Pieces in a row -/

/-- A scan goes through the parts of a row one after the other. -/
theorem Scan.through_append (scan : Scan) (as bs : List Char) :
    scan.through (as ++ bs) = (scan.through as).bind fun scan' => scan'.through bs :=
  List.foldlM_append

/-- Two texts in a row. -/
theorem Leads.append {before mid after : Scan} {a b : String} (ha : Leads before a mid) (hb : Leads mid b after) :
    Leads before (a ++ b) after := by
  unfold Leads at ha hb ⊢
  rw [String.toList_append, Scan.through_append, ha]
  exact hb

/-- Closed texts in a row are closed. -/
theorem IsClosedText.append {a b : String} (ha : IsClosedText a) (hb : IsClosedText b) : IsClosedText (a ++ b) :=
  fun opened => (ha opened).append (hb opened)

/-- A closed text with the brackets in front of it that are closed behind it, the innermost first, is closed. -/
theorem IsClosedText.between {front text back : String} (h : IsClosedText text) (brackets : List Bracket)
    (hfront : ∀ opened, Leads ⟨false, opened⟩ front ⟨false, brackets ++ opened⟩)
    (hback : ∀ opened, Leads ⟨false, brackets ++ opened⟩ back ⟨false, opened⟩) :
    IsClosedText (front ++ text ++ back) :=
  fun opened => ((hfront opened).append (h _)).append (hback opened)

/-- Between quotes, a scan passes over all but quotes. -/
theorem Scan.through_of_not_mem {cs : List Char} (h : '\x22' ∉ cs) (opened : List Bracket) :
    through ⟨true, opened⟩ cs = some ⟨true, opened⟩ := by
  induction cs with
  | nil => rfl
  | cons c rest ih =>
    rw [List.mem_cons, not_or] at h
    rw [through, List.foldlM_cons, step, if_neg (Ne.symm h.1)]
    exact ih h.2

/-- A text without quotes between texts that open and close a quote. -/
theorem isClosedText_quoted {front body back : String} (hbody : '\x22' ∉ body.toList) (brackets : List Bracket)
    (hfront : ∀ opened, Leads ⟨false, opened⟩ front ⟨true, brackets ++ opened⟩)
    (hback : ∀ opened, Leads ⟨true, brackets ++ opened⟩ back ⟨false, opened⟩) :
    IsClosedText (front ++ body ++ back) :=
  fun opened => ((hfront opened).append (Scan.through_of_not_mem hbody _)).append (hback opened)

/-- Texts that lead from one scan to another, each from where the one in front of it has led. -/
inductive LeadsThrough : Scan → List String → Scan → Prop
  | nil {scan : Scan} : LeadsThrough scan [] scan
  | cons {before mid after : Scan} {text : String} {rest : List String} (htext : Leads before text mid)
    (hrest : LeadsThrough mid rest after) : LeadsThrough before (text :: rest) after

/-- Texts in front of others. -/
theorem LeadsThrough.append {before mid after : Scan} {as bs : List String} (ha : LeadsThrough before as mid)
    (hb : LeadsThrough mid bs after) : LeadsThrough before (as ++ bs) after := by
  induction ha with
  | nil => exact hb
  | cons htext _ ih => exact .cons htext (ih hb)

/-- Closed texts can stand anywhere outside quotes. -/
theorem leadsThrough_of_forall {texts : List String} (h : ∀ text ∈ texts, IsClosedText text) (opened : List Bracket) :
    LeadsThrough ⟨false, opened⟩ texts ⟨false, opened⟩ := by
  induction texts with
  | nil => exact .nil
  | cons text rest ih =>
    obtain ⟨htext, hrest⟩ := List.forall_mem_cons.mp h
    exact .cons (htext opened) (ih hrest)

/-! ## Plain texts -/

/-- A scan passes over plain characters. -/
theorem Scan.through_of_plain {cs : List Char} (h : ∀ c ∈ cs, IsPlainChar c) (scan : Scan) :
    scan.through cs = some scan := by
  induction cs with
  | nil => rfl
  | cons c rest ih =>
    obtain ⟨⟨hbracket, hquote⟩, hrest⟩ := List.forall_mem_cons.mp h
    have hstep : scan.step c = some scan := by
      rw [step, if_neg hquote, nest_of_not_isBracket hbracket]
      split <;> rfl
    rw [through, List.foldlM_cons, hstep]
    exact ih hrest

section Plain

variable {a b : String}

/-- A plain text changes nothing. -/
theorem IsPlainText.leads (h : IsPlainText a) (scan : Scan) : Leads scan a scan := Scan.through_of_plain h scan

/-- A plain text is closed. -/
theorem IsPlainText.isClosedText (h : IsPlainText a) : IsClosedText a := fun opened => h.leads ⟨false, opened⟩

/-- A plain text has no quotes. -/
theorem IsPlainText.not_mem (h : IsPlainText a) : '\x22' ∉ a.toList := fun hmem => (h _ hmem).2 rfl

/-- A row of two texts is plain if both of them are. -/
theorem isPlainText_append : IsPlainText (a ++ b) ↔ IsPlainText a ∧ IsPlainText b := by
  rw [IsPlainText, String.toList_append, List.forall_mem_append]
  rfl

/-- Letters and digits are plain. -/
theorem isPlainChar_of_isAlphanum {c : Char} (h : c.isAlphanum = true) : IsPlainChar c := by
  constructor
  · rintro ⟨b, rfl | rfl⟩ <;> cases b <;> cases h
  · rintro rfl
    cases h

/-- A text in snake case is plain. -/
theorem isPlainText_snakeCase (text : String) : IsPlainText (snakeCase text) :=
  forall_mem_snakeCase (by decide) (fun _ => isPlainChar_of_isAlphanum) text

/-- A natural number is plain. -/
theorem isPlainText_nat (n : Nat) : IsPlainText (toString n) := fun c hc =>
  isPlainChar_of_isAlphanum (by rw [Char.isAlphanum, isDigit_of_mem_toString hc, Bool.or_true])

/-- A whole number is plain. -/
theorem isPlainText_int (n : Int) : IsPlainText (toString n) := by
  cases n with
  | ofNat n => exact isPlainText_nat n
  | negSucc n => exact isPlainText_append.mpr ⟨by decide, isPlainText_nat (n + 1)⟩

/-- Spaces are plain. -/
theorem isPlainText_spaces (n : Nat) : IsPlainText (spaces n) := by
  intro c hc
  rw [spaces, String.toList_ofList] at hc
  rw [List.eq_of_mem_replicate hc]
  decide

end Plain

/-! ## Lists and lines -/

/-- Texts with a plain separator between neighbours. -/
theorem LeadsThrough.intercalate {separator : String} (hseparator : IsPlainText separator) {before after : Scan}
    {texts : List String} (h : LeadsThrough before texts after) :
    Leads before (separator.intercalate texts) after := by
  induction h with
  | nil => rfl
  | @cons before mid after text rest htext hrest ih =>
    cases rest with
    | nil =>
      cases hrest
      rwa [String.intercalate_singleton]
    | cons next rest =>
      rw [String.intercalate_cons_cons]
      exact (htext.append (hseparator.leads mid)).append ih

/-- A list of closed texts is closed. -/
theorem isClosedText_commaList {items : List String} (h : ∀ item ∈ items, IsClosedText item) :
    IsClosedText (commaList items) :=
  fun opened => (leadsThrough_of_forall h opened).intercalate (by decide)

/-- Lines of their own. -/
theorem LeadsThrough.unlines {before after : Scan} {lines : List String} (h : LeadsThrough before lines after) :
    Leads before (unlines lines) after :=
  h.intercalate (by decide)

/-- Indentation is passed over. -/
theorem Scan.through_flatMap_indentLine (n : Nat) (lines : List (List Char)) (scan : Scan) :
    scan.through (lines.flatMap (indentLine n)) = scan.through lines.flatten := by
  have hspaces (scan : Scan) : scan.through (List.replicate n ' ') = some scan := by
    have hleads := (isPlainText_spaces n).leads scan
    rwa [Leads, spaces, String.toList_ofList] at hleads
  have hline (scan : Scan) (line : List Char) : scan.through (indentLine n line) = scan.through line := by
    unfold indentLine
    split
    · rfl
    · rw [through_append, hspaces, Option.bind_some]
  induction lines generalizing scan with
  | nil => rfl
  | cons line rest ih =>
    rw [List.flatMap_cons, List.flatten_cons, through_append, through_append, hline]
    exact congrArg (Option.bind _) (funext ih)

/-- An indented text does what the text does. -/
theorem Leads.indent {before after : Scan} {text : String} (h : Leads before text after) (n : Nat) :
    Leads before (indent n text) after := by
  rw [Leads, TensorBridge.indent, String.toList_ofList, Scan.through_flatMap_indentLine, flatten_splitLines]
  exact h

end TensorBridge
