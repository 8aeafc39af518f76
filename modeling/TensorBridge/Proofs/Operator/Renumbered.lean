import TensorBridge.Proofs.Operator.Distinct

/-!
# Operators with other ids

Two operators may list the same operands and attributes in another order and under other ids that compare the
same way. Everything that a kernel takes from an operator comes in the order of the ids, so the kernels are the
same.
-/

namespace TensorBridge

/-- An operand under another id. -/
def Operand.renumber (f : Int → Int) (p : Operand) : Operand := { p with id := f p.id }

/-- An attribute under another id. -/
def Attribute.renumber (f : Int → Int) (a : Attribute) : Attribute := { a with id := f a.id }

/-- The other id of an operand. -/
theorem Operand.id_renumber (f : Int → Int) (p : Operand) : (p.renumber f).id = f p.id := rfl

/-- The other id of an attribute. -/
theorem Attribute.id_renumber (f : Int → Int) (a : Attribute) : (a.renumber f).id = f a.id := rfl

/-- An operator with the operands and attributes of another, under other ids and in any order. -/
structure Operator.Renumbered (f : Int → Int) (o o' : Operator) : Prop where
  name : o'.name = o.name
  function : o'.function = o.function
  device : o'.device = o.device
  operands : (o.operands.map (Operand.renumber f)).Perm o'.operands
  attributes : (o.attributes.map (Attribute.renumber f)).Perm o'.attributes

namespace Operator.Renumbered

variable {f : Int → Int} {o o' : Operator}

/-- The ids are carried over and the names stay. -/
theorem items_perm (h : Renumbered f o o') : (o.items.map (Prod.map f id)).Perm o'.items := by
  have hoperands := h.operands.map fun p => (p.id, p.name)
  have hattributes := h.attributes.map fun a => (a.id, a.name)
  rw [List.map_map] at hoperands hattributes
  rw [items, List.map_append, List.map_map, List.map_map]
  exact hoperands.append hattributes

/-- An operator stays without a flaw under other ids that are distinct. -/
theorem flaw?_eq_none (h : Renumbered f o o') (hf : KeepsOrder f) (hflaw : o.flaw? = none) :
    o'.flaw? = none := by
  obtain ⟨hids, hnames⟩ := items_nodup hflaw
  apply flaw?_eq_none_of_items hflaw h.name h.function
  constructor
  · rw [← (h.items_perm.map Prod.fst).nodup_iff, List.map_map]
    change (o.items.map (f ∘ Prod.fst)).Nodup
    rw [← List.map_map]
    exact hids.map hf.injective
  · rw [← (h.items_perm.map Prod.snd).nodup_iff, List.map_map]
    exact hnames

/-! ## In the order of the ids -/

/-- Operands that are chosen by what stays are in the same order. -/
theorem sorted_operands (h : Renumbered f o o') (hf : KeepsOrder f) (hflaw : o.flaw? = none)
    (chosen : Role → Bool) :
    sortBy Operand.id (o'.operands.filter fun p => chosen p.role) =
      (sortBy Operand.id (o.operands.filter fun p => chosen p.role)).map (Operand.renumber f) := by
  apply sortBy_eq_map hf (Operand.id_renumber f)
  · exact filterIds_nodup hflaw _
  · have hfiltered := h.operands.filter fun p => chosen p.role
    rw [List.filter_map] at hfiltered
    exact hfiltered

/-- The inputs come in the same order. -/
theorem inputs_eq (h : Renumbered f o o') (hf : KeepsOrder f) (hflaw : o.flaw? = none) :
    o'.inputs = o.inputs.map (Operand.renumber f) := h.sorted_operands hf hflaw Role.isInput

/-- The outputs come in the same order. -/
theorem outputs_eq (h : Renumbered f o o') (hf : KeepsOrder f) (hflaw : o.flaw? = none) :
    o'.outputs = o.outputs.map (Operand.renumber f) := h.sorted_operands hf hflaw Role.isOutput

/-- The pure outputs come in the same order. -/
theorem pureOutputs_eq (h : Renumbered f o o') (hf : KeepsOrder f) (hflaw : o.flaw? = none) :
    o'.pureOutputs = o.pureOutputs.map (Operand.renumber f) := by
  have hsorted := sortBy_eq_map hf (Operand.id_renumber f) (operandIds_nodup hflaw) h.operands
  rw [pureOutputs, pureOutputs, hsorted, List.filter_map]
  rfl

/-- The attributes come in the same order. -/
theorem sortedAttributes_eq (h : Renumbered f o o') (hf : KeepsOrder f) (hflaw : o.flaw? = none) :
    o'.sortedAttributes = o.sortedAttributes.map (Attribute.renumber f) :=
  sortBy_eq_map hf (Attribute.id_renumber f) (attributeIds_nodup hflaw) h.attributes

/-- The arguments of the call come in the same order. -/
theorem callStatements_eq (h : Renumbered f o o') (hf : KeepsOrder f) (hflaw : o.flaw? = none)
    (outputs : List (String × Shape)) :
    callStatements o'.function outputs o'.arguments = callStatements o.function outputs o.arguments := by
  have hperm : (o.arguments.map (Prod.map f id)).Perm o'.arguments := by
    have hoperands := h.operands.map fun p => (p.id, Names.value ⟨p.name⟩)
    rw [List.map_map] at hoperands
    rw [arguments, arguments, h.sortedAttributes_eq hf hflaw, List.map_append, List.map_map, List.map_map,
      List.map_map]
    exact hoperands.append (List.Perm.refl _)
  have hsorted := sortBy_eq_map hf (fun x : Int × String => (rfl : (Prod.map f id x).1 = f x.1))
    (argumentIds_nodup hflaw) hperm
  rw [callStatements, callStatements, hsorted, h.function, List.map_map]
  rfl

/-- The registrations are the same. -/
theorem registrations_eq (h : Renumbered f o o') (hf : KeepsOrder f) (hflaw : o.flaw? = none) :
    o'.registrations = o.registrations := by
  rw [registrations, registrations, h.inputs_eq hf hflaw, h.outputs_eq hf hflaw, h.sortedAttributes_eq hf hflaw,
    List.mapM_map, List.mapM_map, List.map_map]
  rfl

/-- The note of a kernel is the same. -/
theorem kernelRecord_eq (h : Renumbered f o o') (hf : KeepsOrder f) (hflaw : o.flaw? = none) :
    o'.kernelRecord = o.kernelRecord := by
  have hattributes : o'.attributes.length = o.attributes.length := by
    rw [← h.attributes.length_eq, List.length_map]
  rw [kernelRecord, kernelRecord, h.inputs_eq hf hflaw, h.outputs_eq hf hflaw, h.name, hattributes,
    List.length_map, List.length_map]

/-- The kernel is the same. -/
theorem kernel_eq (h : Renumbered f o o') (hf : KeepsOrder f) (hflaw : o.flaw? = none)
    (options : RenderOptions) : o'.kernel options = o.kernel options := by
  rw [kernel, kernel, h.registrations_eq hf hflaw, h.kernelRecord_eq hf hflaw, h.callStatements_eq hf hflaw,
    h.inputs_eq hf hflaw, h.outputs_eq hf hflaw, h.pureOutputs_eq hf hflaw, h.sortedAttributes_eq hf hflaw,
    h.name, h.device, h.function, List.zipIdx_map, List.zipIdx_map, Traced.forEach_map, Traced.forEach_map,
    List.map_map, List.map_map, List.map_map]
  rfl

/-- The source text is the same. -/
theorem render_eq (h : Renumbered f o o') (hf : KeepsOrder f) (hflaw : o.flaw? = none)
    (options : RenderOptions) : o'.render options = o.render options := by
  rw [render, render, h.kernel_eq hf hflaw options]

end Operator.Renumbered

end TensorBridge
