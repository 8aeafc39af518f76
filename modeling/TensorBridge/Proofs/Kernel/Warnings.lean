import TensorBridge.Kernel.Source
import TensorBridge.Proofs.Conversion.OpenRows
import TensorBridge.Proofs.Kernel.Scopes

/-!
# Warnings of a kernel

A run that gives the source text of a kernel warns of the rows of unknown length that are copied in full: of those of
its inputs, in the order of the ids and then of the axes, of each once. It gives no other warning.
-/

namespace TensorBridge

open Conversion

/-- The warnings among records that follow others. -/
theorem warningsIn_append (a b : List Record) : warningsIn (a ++ b) = warningsIn a ++ warningsIn b :=
  List.filter_append a b

/-- Numbered items that are worked through give the warnings of each, whatever its number. -/
theorem warningsIn_forEach {α β : Type} {f : α × Nat → Traced β} (reports : α → List Record) {l : List α}
    {bs : List β} (h : (Traced.forEach f l.zipIdx).outcome = .ok bs)
    (hstep : ∀ a k b, (f (a, k)).outcome = .ok b → warningsIn (f (a, k)).records = reports a) :
    warningsIn (Traced.forEach f l.zipIdx).records = l.flatMap reports := by
  have heach : ∀ item ∈ l.zipIdx, warningsIn (f item).records = reports item.1 := by
    intro item hitem
    obtain ⟨b, hb⟩ := Traced.forEach_succeeds_iff.mp ⟨bs, h⟩ item hitem
    exact hstep item.1 item.2 b hb
  calc warningsIn (Traced.forEach f l.zipIdx).records
      = l.zipIdx.flatMap fun item => warningsIn (f item).records := by
        rw [Traced.records_forEach h]
        exact List.filter_flatMap
    _ = l.zipIdx.flatMap fun item => reports item.1 := List.flatMap_congr heach
    _ = (l.zipIdx.map Prod.fst).flatMap reports := (List.flatMap_map ..).symm
    _ = l.flatMap reports := by rw [List.zipIdx_map_fst]

/-! ## The statements for one operand -/

section Statements

variable {name : String} {index : Int} {s : Shape} {stmts : List Stmt}

/-- The statements for an input leave the warnings of its conversion. -/
theorem warningsIn_inputStatements (h : (inputStatements name index s).outcome = .ok stmts) :
    warningsIn (inputStatements name index s).records = rowReports name s := by
  obtain ⟨values, hvalues, _⟩ := inputStatements_eq h
  have hbuilt : (Conversion.build name s .toValue).outcome = .ok (.of name s .toValue) := rfl
  have hgiven : (Traced.ofExcept (tensorValues (Names.tensorIn ⟨name⟩) false s)).outcome = .ok values := hvalues
  rw [inputStatements, Traced.records_bind hbuilt, Traced.records_bind hgiven]
  exact (congrArg warningsIn (List.append_nil _)).trans (warningsIn_build_toValue name s)

/-- The statements for an output leave no warning. -/
theorem warningsIn_outputStatements (h : (outputStatements name index s).outcome = .ok stmts) :
    warningsIn (outputStatements name index s).records = [] := by
  obtain ⟨values, hvalues, _⟩ := outputStatements_eq h
  have hbuilt : (Conversion.build name s .toTensor).outcome = .ok (.of name s .toTensor) := rfl
  have hgiven : (Traced.ofExcept (tensorValues (Names.tensorOut ⟨name⟩) true s)).outcome = .ok values := hvalues
  rw [outputStatements, Traced.records_bind hbuilt, Traced.records_bind hgiven]
  exact (congrArg warningsIn (List.append_nil _)).trans (warningsIn_build_toTensor name s)

end Statements

namespace Operator

variable {o : Operator}

/-! ## Runs -/

/-- The warnings of a run that gives a source text are the reports of the inputs, in their order. -/
theorem warningsIn_render {options : RenderOptions} {text : String} (h : (o.render options).outcome = .ok text) :
    warningsIn (o.render options).records = o.inputs.flatMap fun p => rowReports p.name p.shape := by
  obtain ⟨k, hk, _⟩ := Traced.outcome_bind_eq_ok.mp h
  rw [render, Traced.records_bind hk, Traced.records_pure, List.append_nil]
  unfold kernel at hk ⊢
  obtain ⟨lines, hlines, hk⟩ := Traced.outcome_bind_eq_ok.mp hk
  obtain ⟨inputs, hinputs, hk⟩ := Traced.outcome_bind_eq_ok.mp hk
  obtain ⟨outputs, houtputs, _⟩ := Traced.outcome_bind_eq_ok.mp hk
  have hins := warningsIn_forEach (fun p => rowReports p.name p.shape) hinputs
    fun _ _ _ hstmts => warningsIn_inputStatements hstmts
  have houts := warningsIn_forEach (fun _ => []) houtputs fun _ _ _ hstmts => warningsIn_outputStatements hstmts
  have hquiet : (o.outputs.flatMap fun _ => ([] : List Record)) = [] := List.flatMap_eq_nil_iff.mpr fun _ _ => rfl
  rw [Traced.records_bind hlines, Traced.records_bind hinputs, Traced.records_bind houtputs, warningsIn_append,
    warningsIn_append, warningsIn_append, hins, houts, hquiet]
  -- the registrations leave no records, and the note of the kernel is no warning
  exact List.append_nil _

/-- A report among those of some rows is of one of them. -/
theorem exists_axis_of_mem_rowReports {name : String} {s : Shape} {r : Record} (hr : r ∈ rowReports name s) :
    ∃ axis, r = unmarkedRowRecord name s axis := by
  unfold rowReports at hr
  split at hr
  · cases hr
  · obtain ⟨axis, _, rfl⟩ := List.mem_map.mp hr
    exact ⟨axis, rfl⟩

/-- Operands with different names are reported apart. -/
theorem nodup_flatMap_rowReports {ps : List Operand} (hnames : (ps.map Operand.name).Nodup) :
    (ps.flatMap fun p => rowReports p.name p.shape).Nodup := by
  rw [List.nodup_flatMap]
  refine ⟨fun p _ => nodup_rowReports p.name p.shape, ?_⟩
  refine (List.pairwise_map.mp hnames).imp fun {p q} hne => ?_
  intro r hp hq
  obtain ⟨axis, rfl⟩ := exists_axis_of_mem_rowReports hp
  obtain ⟨axis', heq⟩ := exists_axis_of_mem_rowReports hq
  exact hne (unmarkedRowRecord_inj heq).1

end Operator

/-! ## Rows of unknown length -/

/-- A conversion to a value marks the ends of the rows of unknown length if the values have a mark, at the start of the
loop over the row; if they have none it reports these rows, with the name of the operand and the number of the axis, in
the order of the axes. It stops no other loop and gives no other warning, and a conversion to a tensor does neither. So
a run that gives the source text of an operator without a flaw reports the rows of its inputs, in the order of the ids
and then of the axes, each once, and gives no other warning. -/
theorem openRows_marked_or_reported :
    (∀ (name : String) (s : Shape),
      (∃ c, (Conversion.build name s .toValue).outcome = .ok c ∧ exitsIn (c.sizes ++ c.body) = rowEnds ⟨name⟩ s) ∧
      warningsIn (Conversion.build name s .toValue).records = rowReports name s ∧
      (∀ axis, ∃ rest,
        (unmarkedRowRecord name s axis).message = name ++ ": dimension " ++ toString axis ++ " " ++ rest) ∧
      (∃ c, (Conversion.build name s .toTensor).outcome = .ok c ∧ exitsIn (c.sizes ++ c.body) = []) ∧
      warningsIn (Conversion.build name s .toTensor).records = []) ∧
    ∀ (o : Operator) (options : RenderOptions) (text : String), o.flaw? = none →
      (o.render options).outcome = .ok text →
      ∃ ins : List Operand, ins.Perm (o.operands.filter (·.role.isInput)) ∧ ins.Pairwise (fun p q => p.id < q.id) ∧
        warningsIn (o.render options).records = (ins.flatMap fun p => rowReports p.name p.shape) ∧
        (warningsIn (o.render options).records).Nodup := by
  refine ⟨fun name s => ⟨?_, ?_, ?_, ?_, ?_⟩, ?_⟩
  · exact ⟨toValue ⟨name⟩ s, rfl, exitsIn_toValue ⟨name⟩ s⟩
  · exact warningsIn_build_toValue name s
  · exact unmarkedRowRecord_message name s
  · exact ⟨toTensor ⟨name⟩ s, rfl, Stmt.allExits_eq_nil (neverStops_toTensor ⟨name⟩ s)⟩
  · exact warningsIn_build_toTensor name s
  · intro o options text hflaw h
    have hinputs : o.inputs.Perm (o.operands.filter (·.role.isInput)) := sortBy_perm _ _
    have hwarnings := Operator.warningsIn_render h
    refine ⟨o.inputs, hinputs, sortBy_strict (Operator.filterIds_nodup hflaw _), hwarnings, ?_⟩
    rw [hwarnings]
    exact Operator.nodup_flatMap_rowReports (Operator.names_nodup_of_perm hflaw hinputs List.filter_sublist)

/-- An operator with nested rows of unknown length, of values with a mark for their end and of values without one, and
of an operand that is also an output. -/
def Operator.histogram : Operator :=
  { name := "Histogram"
    function := "histogram"
    operands := [
      ⟨5, "levels", .input, .array [.string "vector:none", .string "vector:none", .string "int"],
        ⟨[none, none], [], .primitive .int false⟩⟩,
      ⟨3, "weights", .input, .array [.string "vector:none", .string "vector:none", .string "double"],
        ⟨[none, none], [], .primitive .double false⟩⟩,
      ⟨1, "bins", .inputOutput,
        .array [.string "vector:4", .string "vector:none", .string "vector:none", .string "int"],
        ⟨[some 4, none, none], [], .primitive .int false⟩⟩]
    attributes := []
    device := .string Operator.defaultDevice }

/-- The run for the histogram reports the rows without a mark. -/
theorem openRows_marked_or_reported_histogram :
    Operator.histogram.flaw? = none ∧ ∃ text, (Operator.histogram.render .default).outcome = .ok text ∧
      ∃ ins : List Operand, ins.Perm (Operator.histogram.operands.filter (·.role.isInput)) ∧
        ins.Pairwise (fun p q => p.id < q.id) ∧
        warningsIn (Operator.histogram.render .default).records =
          (ins.flatMap fun p => rowReports p.name p.shape) ∧
        (warningsIn (Operator.histogram.render .default).records).Nodup ∧
        (warningsIn (Operator.histogram.render .default).records).length = 3 := by
  have hflaw : Operator.histogram.flaw? = none := by rfl
  have hrender : (Operator.histogram.render .default).outcome.isOk = true := by rfl
  have hthree : (warningsIn (Operator.histogram.render .default).records).length = 3 := by rfl
  obtain ⟨text, htext⟩ := except_exists_of_isOk hrender
  obtain ⟨ins, hperm, hstrict, hwarnings, hnodup⟩ :=
    openRows_marked_or_reported.2 Operator.histogram .default text hflaw htext
  exact ⟨hflaw, text, htext, ins, hperm, hstrict, hwarnings, hnodup, hthree⟩

end TensorBridge
