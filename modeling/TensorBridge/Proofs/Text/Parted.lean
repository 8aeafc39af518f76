import Mathlib.Data.List.Basic
import Mathlib.Data.List.TakeWhile
import TensorBridge.Text.Blank

/-!
# Parted texts

The readers take a text apart where a condition first fails, and take a line break off its end. Both can be said without
the scan: by the parts, what they consist of and what they start or end with.
-/

namespace TensorBridge

/-! ## At a character -/

/-- A text is parted where a condition first fails. -/
theorem parted_iff {p : Char → Bool} {cs front back : List Char} :
    cs.takeWhile p = front ∧ cs.dropWhile p = back ↔
      cs = front ++ back ∧ (∀ c ∈ front, p c = true) ∧ ∀ c ∈ back.head?, p c = false := by
  constructor
  · rintro ⟨rfl, rfl⟩
    refine ⟨List.takeWhile_append_dropWhile.symm, fun c hc => List.mem_takeWhile_imp hc, fun c hc => ?_⟩
    have hfails := List.head?_dropWhile_not p cs
    rw [hc] at hfails
    simpa using hfails
  · rintro ⟨rfl, hfront, hback⟩
    rw [List.takeWhile_append_of_pos hfront, List.dropWhile_append_of_pos hfront]
    cases back with
    | nil => exact ⟨List.append_nil front, rfl⟩
    | cons c rest =>
      have hc : ¬ p c = true := Bool.eq_false_iff.mp (hback c rfl)
      rw [List.takeWhile_cons_of_neg hc, List.dropWhile_cons_of_neg hc, List.append_nil]
      exact ⟨rfl, rfl⟩

/-- A text is parted at the first occurrence of a character. -/
theorem parted_at_iff {stop : Char} {cs front back : List Char} :
    cs.takeWhile (· ≠ stop) = front ∧ cs.dropWhile (· ≠ stop) = back ↔
      cs = front ++ back ∧ stop ∉ front ∧ ∀ c ∈ back.head?, c = stop := by
  rw [parted_iff]
  refine and_congr_right fun _ => and_congr ?_ (forall₂_congr fun c _ => by simp)
  simp only [decide_eq_true_eq]
  exact ⟨fun h hmem => h stop hmem rfl, fun h c hc heq => h (heq ▸ hc)⟩

/-- There is only one way to part a text at the last occurrence of a character. -/
theorem append_cons_eq_iff_of_not_mem {stop : Char} {front front' back back' : List Char} (h : stop ∉ back)
    (h' : stop ∉ back') : front ++ stop :: back = front' ++ stop :: back' ↔ front = front' ∧ back = back' := by
  constructor
  · intro heq
    -- backwards, the last occurrence is the first one
    have hreverse : back.reverse ++ stop :: front.reverse = back'.reverse ++ stop :: front'.reverse := by
      simpa using congrArg List.reverse heq
    have hparts (front back : List Char) (h : stop ∉ back) :
        (back.reverse ++ stop :: front.reverse).takeWhile (· ≠ stop) = back.reverse ∧
          (back.reverse ++ stop :: front.reverse).dropWhile (· ≠ stop) = stop :: front.reverse :=
      parted_at_iff.mpr ⟨rfl, mt List.mem_reverse.mp h, fun c hc => (Option.some.inj hc).symm⟩
    obtain ⟨hback, hfront⟩ := hparts front back h
    obtain ⟨hback', hfront'⟩ := hparts front' back' h'
    rw [hreverse, hback'] at hback
    rw [hreverse, hfront'] at hfront
    exact ⟨List.reverse_inj.mp (List.cons.inj hfront).2.symm, List.reverse_inj.mp hback.symm⟩
  · rintro ⟨rfl, rfl⟩
    rfl

/-! ## At a final line break -/

/-- What is left of a text and whether a line break was taken off, if what is left does not end in one. -/
theorem splitFinalBreak_eq_iff {cs body : List Char} {endsLine : Bool} (hbody : body.getLast? ≠ some '\n') :
    splitFinalBreak cs = (body, endsLine) ↔ cs = body ++ if endsLine then ['\n'] else [] := by
  constructor
  · intro h
    have happend := splitFinalBreak_append cs
    rw [h] at happend
    exact happend.symm
  · rintro rfl
    cases endsLine with
    | true => simp [splitFinalBreak]
    | false =>
      rw [if_neg Bool.false_ne_true, List.append_nil]
      unfold splitFinalBreak
      split
      · next front hfront =>
        have hcs : body = front.reverse ++ ['\n'] := by simpa using congrArg List.reverse hfront
        rw [hcs, List.getLast?_concat] at hbody
        contradiction
      · rfl

/-- A line break behind a text, or none. -/
theorem mem_lineBreaks_iff {finish : List Char} :
    finish ∈ [[], ['\n']] ↔ ∃ endsLine : Bool, finish = if endsLine then ['\n'] else [] := by
  rw [List.mem_pair, Bool.exists_bool]
  rfl

/-- What is left of a text once a line break at its end is taken off. -/
theorem splitFinalBreak_fst_eq_iff {cs body : List Char} (hbody : body.getLast? ≠ some '\n') :
    (splitFinalBreak cs).1 = body ↔ ∃ finish ∈ [[], ['\n']], cs = body ++ finish := by
  constructor
  · rintro rfl
    exact ⟨_, mem_lineBreaks_iff.mpr ⟨_, rfl⟩, (splitFinalBreak_append cs).symm⟩
  · rintro ⟨finish, hfinish, hcs⟩
    obtain ⟨endsLine, rfl⟩ := mem_lineBreaks_iff.mp hfinish
    rw [(splitFinalBreak_eq_iff hbody).mpr hcs]

end TensorBridge
