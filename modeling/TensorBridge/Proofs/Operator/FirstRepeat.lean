import TensorBridge.Proofs.Operator.Distinct
import TensorBridge.Proofs.Text.Numerals

/-!
# The item that is blamed

An operator whose name and function are in order is refused for one of its items: the first one, operands before
attributes, that has the id or the name of an earlier item. The ids of the items before it are distinct, so a repeated
id has one earlier holder, and the refusal names it. A repeated name is blamed only where the id is new. A refusal has
a message, and one that would have to write a number of too many digits ends in a fault.
-/

namespace TensorBridge

namespace Operator

/-- A repeated id is the id of an item. -/
theorem exists_mem_of_clash?_eq_repeatedId {earlier items : List (Int × String)} {id : Int} {first second : String}
    (h : clash? earlier items = some (.repeatedId id first second)) : ∃ item ∈ items, item.1 = id := by
  induction items generalizing earlier with
  | nil => cases h
  | cons item rest ih =>
    rw [clash?] at h
    split at h
    · cases h
      exact ⟨item, List.mem_cons_self, rfl⟩
    · split at h
      · cases h
      · obtain ⟨other, hother, heq⟩ := ih h
        exact ⟨other, List.mem_cons_of_mem item hother, heq⟩

/-- The message about a flaw can be written if the numerals of all ids can. -/
theorem hasMessage_of_flaw? {o : Operator} {flaw : SpecFlaw} (h : o.flaw? = some flaw)
    (hids : ∀ item ∈ o.items, item.1.natAbs < 10 ^ maxNumeralDigits) : flaw.hasMessage = true := by
  cases flaw with
  | repeatedId id first second =>
    have hclash : clash? [] o.items = some (.repeatedId id first second) := by
      unfold flaw? at h
      split at h
      · cases h
      · split at h
        · cases h
        · split at h
          · cases h
          · exact h
    obtain ⟨item, hitem, rfl⟩ := exists_mem_of_clash?_eq_repeatedId hclash
    exact decide_eq_true ((length_toDigits_le_iff (by decide)).mpr (hids item hitem))
  | _ => rfl

/-- An operator with two inputs of one id. -/
def withSharedId (id : Int) : Operator :=
  { name := "Twins"
    function := "twins"
    operands := [⟨id, "left", .input, .array [.string "int"], ⟨[], [], .primitive .int false⟩⟩,
      ⟨id, "right", .input, .array [.string "int"], ⟨[], [], .primitive .int false⟩⟩]
    attributes := []
    device := .string defaultDevice }

/-- The numeral of a long id cannot be written, so the check of such an operator breaks off. -/
theorem validate_withSharedId_of_long {id : Int} (hlong : 10 ^ maxNumeralDigits ≤ id.natAbs) :
    (withSharedId id).validate = .error (.fault .numeralTooLong) := by
  have hcapital : isUppercase 'T' = true := by rfl
  rw [validate_eq_fault_iff]
  refine ⟨rfl, .repeatedId id "left" "right", ?_, ?_⟩
  · simp [flaw?, withSharedId, items, clash?, hcapital]
  · exact decide_eq_false fun hshort => absurd ((length_toDigits_le_iff (by decide)).mp hshort) (Nat.not_lt.mpr hlong)

end Operator

end TensorBridge
