import TensorBridge.Cpp.Printer

/-!
# The value of a string literal

What stands between the two quotes of a string literal is read from left to right. A backslash starts an escape,
which stands for one character; a quote or a line break without a backslash would end the literal, so neither may
stand there. A text that is put between quotes as it is means itself only if it has none of these characters.
-/

namespace TensorBridge

/-- What the escapes mean: the character for what stands behind a backslash, and how many of the characters there
belong to the escape. A quote and a backslash stand for themselves. -/
structure Escapes where
  read : List Char → Option (Char × Nat)
  taken : ∀ {cs : List Char} {c : Char} {n : Nat}, read cs = some (c, n) → 0 < n ∧ n ≤ cs.length
  quote : ∀ rest : List Char, read ('\x22' :: rest) = some ('\x22', 1)
  backslash : ∀ rest : List Char, read ('\x5c' :: rest) = some ('\x5c', 1)

/-- The escapes under which every character behind a backslash stands for itself. -/
def Escapes.plain : Escapes where
  read
    | [] => none
    | c :: _ => some (c, 1)
  taken := by
    intro cs c n h
    cases cs with
    | nil => cases h
    | cons first rest =>
      cases h
      exact ⟨Nat.one_pos, Nat.succ_le_succ (Nat.zero_le _)⟩
  quote _ := rfl
  backslash _ := rfl

/-- The value of what is left between the quotes behind some characters that are read already. -/
def literalFrom (e : Escapes) : Nat → List Char → Option (List Char)
  | _, [] => some []
  | read + 1, _ :: rest => literalFrom e read rest
  | 0, c :: rest =>
    if c = '\x5c' then
      (e.read rest).bind fun (value, taken) => (literalFrom e taken rest).map (value :: ·)
    else if c = '\x22' ∨ c = '\n' then none
    else (literalFrom e 0 rest).map (c :: ·)

/-- The value of a string literal with the given characters between its quotes, if it is well formed. -/
def literalValue? (e : Escapes) (body : List Char) : Option (List Char) := literalFrom e 0 body

/-- Whether a character means itself in a string literal. -/
def IsPlainInLiteral (c : Char) : Prop := c ≠ '\x5c' ∧ c ≠ '\x22' ∧ c ≠ '\n'

/-- A value has at most as many characters as are left to read. -/
theorem length_of_literalFrom {e : Escapes} {cs value : List Char} {read : Nat}
    (h : literalFrom e read cs = some value) : value.length ≤ cs.length - read := by
  induction cs generalizing read value with
  | nil =>
    cases read <;> cases h <;> exact Nat.zero_le _
  | cons c rest ih =>
    cases read with
    | succ read =>
      have hrest := ih (h : literalFrom e read rest = some value)
      rw [List.length_cons]
      omega
    | zero =>
      rw [literalFrom] at h
      split at h
      · obtain ⟨⟨first, taken⟩, hescape, h⟩ := Option.bind_eq_some_iff.mp h
        obtain ⟨tail, htail, rfl⟩ := Option.map_eq_some_iff.mp h
        have hrest := ih htail
        have htaken := e.taken hescape
        rw [List.length_cons, List.length_cons]
        omega
      split at h
      · cases h
      · obtain ⟨tail, htail, rfl⟩ := Option.map_eq_some_iff.mp h
        have hrest := ih htail
        rw [List.length_cons, List.length_cons]
        omega

/-- Behind a backslash, the value does not go on with the characters that stand there. -/
theorem literalFrom_backslash_ne {e : Escapes} (rest : List Char) :
    literalFrom e 0 ('\x5c' :: rest) ≠ some ('\x5c' :: rest) := by
  intro h
  rw [literalFrom, if_pos rfl] at h
  obtain ⟨⟨first, taken⟩, hescape, h⟩ := Option.bind_eq_some_iff.mp h
  obtain ⟨tail, htail, hvalue⟩ := Option.map_eq_some_iff.mp h
  have hlength := length_of_literalFrom htail
  have htaken := e.taken hescape
  rw [(List.cons.inj hvalue).2] at hlength
  omega

/-- The characters between two quotes are the value of the literal exactly if each of them means itself. -/
theorem literalValue?_eq_self_iff (e : Escapes) (body : List Char) :
    literalValue? e body = some body ↔ ∀ c ∈ body, IsPlainInLiteral c := by
  rw [literalValue?]
  induction body with
  | nil => exact iff_of_true rfl (List.forall_mem_nil _)
  | cons c rest ih =>
    rw [List.forall_mem_cons]
    by_cases hbackslash : c = '\x5c'
    · subst hbackslash
      exact iff_of_false (literalFrom_backslash_ne rest) fun h => h.1.1 rfl
    by_cases hend : c = '\x22' ∨ c = '\n'
    · rw [literalFrom, if_neg hbackslash, if_pos hend]
      exact iff_of_false (fun h => nomatch h) fun h => hend.elim h.1.2.1 h.1.2.2
    · rw [literalFrom, if_neg hbackslash, if_neg hend, ← ih]
      rw [not_or] at hend
      constructor
      · intro h
        obtain ⟨tail, htail, hvalue⟩ := Option.map_eq_some_iff.mp h
        rw [(List.cons.inj hvalue).2] at htail
        exact ⟨⟨hbackslash, hend⟩, htail⟩
      · rintro ⟨_, hrest⟩
        rw [hrest]
        rfl

end TensorBridge
