import TensorBridge.Proofs.Conversion.Rectangular
import TensorBridge.Proofs.Conversion.Sizes
import TensorBridge.Conversion.ToTensor
import TensorBridge.Kernel.Fragment

/-!
# The statements around an output

An output tensor is allocated with given extents and then reached through a map. The sizes that the extents are
made of are read off the first elements of the container.
-/

namespace TensorBridge

open Conversion

variable {α : Type} {m : Platform α} {n : Names} {s : Shape} {σ : State α} {v : Object α}

/-! ## Sizes of a container -/

/-- The expression for the size of an axis of the block. -/
def blockSize (s : Shape) (block : Expr) (offset : Nat) : Expr :=
  if s.element.container.isFixed then .count (s.fixedExtents.getD offset 0)
  else .subscript (.member block "size") (.count offset)

/-- The sizes of the block axes are declared one after the other. -/
theorem blockSizes_eq (n : Names) (s : Shape) (block : Expr) :
    blockSizes n s block =
      (List.range s.blockRank).map fun offset =>
        n.declareSize (s.vectorRank + offset : Nat) (blockSize s block offset) := by
  refine List.ext_getElem? fun i => ?_
  rw [blockSizes, List.getElem?_map, List.getElem?_map, List.getElem?_zipIdx]
  by_cases hi : i < s.block.length
  · rw [List.getElem?_eq_getElem hi, List.getElem?_range (by exact hi)]
    simp [blockSize, Shape.fixedExtents, hi]
  · rw [List.getElem?_eq_none (by omega), List.getElem?_eq_none (by rw [List.length_range, Shape.blockRank]; omega)]
    rfl

/-- The size of a vector layer is the length of its first row. -/
theorem eval_layerSize (hread : m.mayRead = true) (hvalue : σ.get? (n.part .value) = some v) {extents : List Nat}
    (h : s.HasExtents extents v) {axis : Nat} (haxis : axis < s.vectorRank)
    (hpos : ∀ e ∈ extents.take axis, 0 < e) :
    eval m σ (.method ((Expr.name n.value).subscripts (zeroIndices axis)) false "size" []) =
      some (.number (extents.getD axis 0 : Nat)) := by
  obtain ⟨item, items, hat, hlength⟩ := h.nested.exists_first hpos haxis
  have hrow := eval_subscripts m σ hread hvalue (evalIndex_zeroIndices m σ axis) hat
  rw [eval, Names.value_eq_part, hrow, Option.bind_some, evalAll]
  simp [callMethod, hlength]

/-- The first block of a container, or its first scalar. -/
theorem eval_firstBlock (hread : m.mayRead = true) (hvalue : σ.get? (n.part .value) = some v) {extents : List Nat}
    (h : s.HasExtents extents v) (hpos : ∀ e ∈ extents.take s.vectorRank, 0 < e) :
    ∃ item, eval m σ (firstBlock n s) = some item ∧ s.IsItem (extents.drop s.vectorRank) item := by
  obtain ⟨item, hat, hitem⟩ := h.nested.exists_item hpos
  refine ⟨item, ?_, hitem⟩
  exact eval_subscripts m σ hread hvalue (evalIndex_zeroIndices m σ s.vectorRank) hat

/-- The size of a block axis that is fixed is known without a block. -/
theorem eval_blockSize_of_fixed (hfixed : s.element.container.isFixed = true) (block : Expr) (offset : Nat) :
    eval m σ (blockSize s block offset) = some (.number (s.fixedExtents.getD offset 0 : Nat)) := by
  rw [blockSize, if_pos hfixed, Expr.count, eval]

/-- The size of a block axis is that of the first block. -/
theorem eval_blockSize (hread : m.mayRead = true) (hvalue : σ.get? (n.part .value) = some v) {extents : List Nat}
    (h : s.HasExtents extents v) (hpos : ∀ e ∈ extents.take s.vectorRank, 0 < e) {offset : Nat}
    (hoffset : offset < s.blockRank) :
    eval m σ (blockSize s (firstBlock n s) offset) = some (.number (extents.getD (s.vectorRank + offset) 0 : Nat)) := by
  obtain ⟨item, hfirst, hitem⟩ := eval_firstBlock (n := n) hread hvalue h hpos
  have hget : extents.getD (s.vectorRank + offset) 0 = (extents.drop s.vectorRank).getD offset 0 := by
    simp [List.getElem?_drop]
  rw [hget]
  have hlength : (extents.drop s.vectorRank).length = s.blockRank := by
    rw [List.length_drop, h.length_eq, Shape.rank]
    omega
  generalize extents.drop s.vectorRank = rest at hitem hlength
  cases hitem with
  | value a _ =>
    rw [List.length_nil] at hlength
    omega
  | block _ b _ _ hfixedExtents hfits =>
    cases hfixed : s.element.container.isFixed with
    | true => rw [hfixedExtents hfixed, eval_blockSize_of_fixed hfixed]
    | false =>
      have hextents : b.extents = rest := by rw [hfits.extents, Shape.boxed_of_not_fixed hfixed]
      have hlt : offset < rest.length := by omega
      obtain ⟨i, hi, hposition⟩ := Option.bind_eq_some_iff.mp (eval_count m σ offset)
      rw [blockSize, if_neg (by simp [hfixed]), eval, eval, hfirst, Option.bind_some, Object.member?, if_pos rfl,
        Option.bind_some, hi, Option.bind_some, Object.item?, hposition, hextents]
      simp [hlt]

/-- The sizes of a rectangular container are its extents. -/
theorem runAll_containerSizes (hread : m.mayRead = true) (hvalue : σ.get? (n.part .value) = some v)
    {extents : List Nat} (h : s.IsRectangular extents v) (hpos : ∀ e ∈ extents, 0 < e)
    (hcast : ∀ e ∈ extents, m.toInt32 (e : Nat) = (e : Nat)) :
    runAll m (toTensor n s).sizes σ = .next (σ.declareSizes n extents s.rank) := by
  have hlength := h.length_eq
  rw [Shape.rank] at hlength
  have hkept (count : Nat) : (σ.declareSizes n extents count).get? (n.part .value) = some v := by
    rw [State.get?_declareSizes _ _ _ _ (by simp), hvalue]
  have hlayers := runAll_declareSizes (n := n) (σ := σ) hcast 0 s.vectorRank (by omega)
    (fun axis => .method ((Expr.name n.value).subscripts (zeroIndices axis)) false "size" []) fun axis haxis => by
      rw [Nat.zero_add]
      exact eval_layerSize hread (hkept axis) h.hasExtents haxis fun e he => hpos e (List.mem_of_mem_take he)
  have hblocks := runAll_declareSizes (n := n) (σ := σ) hcast s.vectorRank s.blockRank (by omega)
    (blockSize s (firstBlock n s)) fun offset hoffset =>
      eval_blockSize hread (hkept _) h.hasExtents (fun e he => hpos e (List.mem_of_mem_take he)) hoffset
  simp only [Nat.zero_add, State.declareSizes] at hlayers
  rw [toTensor, blockSizes_eq, layerSizes, runAll_append_of_next m hlayers, hblocks, Shape.rank]

/-! ## The output tensor -/

/-- An output tensor is allocated with the extents that the expressions give. -/
theorem run_allocateTensor {es : List Expr} {extents : List Nat} (hes : evalIndex m σ es = some extents)
    (index : Int) (x : String) :
    run m (allocateTensor index x es) σ =
      .next ((σ.allocate index extents).set x (.pointer (some σ.outputs.length))) := by
  have hindex : eval m σ (.int index) = some (.number index) := eval.eq_2 m σ index
  rw [allocateTensor, Expr.callNamed, run, Expr.callNamed, execute, if_pos ⟨rfl, rfl, rfl⟩, hindex, hes]

/-- The extents that an output is allocated with are those of the container, then the channels. -/
theorem evalIndex_allocatedExtents {extents : List Nat} (hσ : σ.HoldsSizes n extents)
    (hlength : extents.length = s.rank) :
    evalIndex m σ (allocatedExtents n s) = some (extents ++ s.channelExtents) := by
  refine evalIndex_append m σ ?_ ?_
  · have hsizes := hσ.evalIndex m (show 0 + s.rank ≤ extents.length by omega)
    rwa [List.drop_zero, List.take_of_length_le (by omega)] at hsizes
  · have hchannels := evalIndex_map m σ Expr.count id s.channelExtents fun i _ => eval_count m σ i
    rwa [List.map_id, Shape.channelExtents, List.map_replicate] at hchannels

/-- The extents of the tensor of an empty container: zero along the first axis and along every other one whose
extent is not known. -/
def Shape.emptyExtents (s : Shape) : List Nat := 0 :: (s.extents.drop 1).map (·.getD 0) ++ s.channelExtents

/-- They are the ones that an output is allocated with in that case. -/
theorem evalIndex_emptyAllocation : evalIndex m σ (emptyAllocation s) = some s.emptyExtents := by
  have hcounts := evalIndex_map m σ Expr.count id s.emptyExtents fun i _ => eval_count m σ i
  rw [List.map_id] at hcounts
  rw [← hcounts]
  apply congrArg (evalIndex m σ)
  simp only [emptyAllocation, Shape.emptyExtents, Shape.channelExtents, List.cons_append, List.map_cons,
    List.map_append, List.map_map, List.map_replicate]
  rfl

/-- The method for the map of a tensor without axes, taken apart. -/
theorem Template.ofChars_flat {scalar : String} (hscalar : IsArgument scalar.toList) :
    Template.ofChars ("flat<" ++ scalar ++ ">").toList = ⟨"flat".toList, [scalar.toList]⟩ := by
  have hflat : IsArgument "flat".toList := by
    decide
  have hbrackets := Template.ofChars_brackets hflat (List.cons_ne_nil scalar []) fun item hitem => by
    obtain rfl := List.mem_singleton.mp hitem
    exact hscalar
  have htext : "flat<" ++ scalar ++ ">" = "flat" ++ "<" ++ commaList [scalar] ++ ">" := by
    simp [commaList, String.append_assoc]
  rw [htext, hbrackets]
  rfl

/-- The method for the map of a tensor with some axes, taken apart. -/
theorem Template.ofChars_tensor {scalar : String} (hscalar : IsArgument scalar.toList) (rank : Nat) :
    Template.ofChars ("tensor<" ++ scalar ++ ", " ++ toString rank ++ ">").toList =
      ⟨"tensor".toList, [scalar.toList, (toString rank).toList]⟩ := by
  have htensor : IsArgument "tensor".toList := by
    decide
  have hbrackets := Template.ofChars_brackets htensor (List.cons_ne_nil scalar [toString rank]) fun item hitem => by
    rcases List.mem_cons.mp hitem with rfl | hitem
    · exact hscalar
    · obtain rfl := List.mem_singleton.mp hitem
      exact isArgument_toString rank
  have htext : "tensor<" ++ scalar ++ ", " ++ toString rank ++ ">" =
      "tensor" ++ "<" ++ commaList [scalar, toString rank] ++ ">" := by
    simp [commaList, String.append_assoc]
  rw [htext, hbrackets]
  rfl

/-- The methods that make the map of a tensor are understood. -/
theorem mapExtents?_text {scalar : String} (hscalar : IsArgument scalar.toList) {extents : List Nat}
    (hlength : extents.length = s.tensorRank) :
    mapExtents? (if s.tensorRank = 0 then "flat<" ++ scalar ++ ">"
      else "tensor<" ++ scalar ++ ", " ++ toString s.tensorRank ++ ">") extents = some (mappedExtents extents) := by
  by_cases hrank : s.tensorRank = 0
  · rw [if_pos hrank, mapExtents?, Template.ofChars_flat hscalar]
    exact if_pos ⟨rfl, List.length_eq_zero_iff.mp (hlength.trans hrank)⟩
  · have hne : extents ≠ [] := by
      intro h
      rw [h] at hlength
      exact hrank hlength.symm
    have haxes : readNumeral? (toString s.tensorRank).toList = some extents.length := by
      rw [readNumeral?_toString, hlength]
    rw [if_neg hrank, mapExtents?, Template.ofChars_tensor hscalar]
    exact if_pos ⟨rfl, hne, haxes⟩

/-- The map of an allocated output tensor is declared. -/
theorem run_defineValues {values : Expr} (hvalues : tensorValues n.tensorOut true s = .ok values) {k : Nat}
    (hpointer : σ.get? (n.part .tensorOut) = some (.pointer (some k))) {o : Allocation α}
    (ho : σ.outputs[k]? = some o) (hlength : o.extents.length = s.tensorRank) :
    run m (.define "auto" n.dataOut values) σ =
      .next (σ.declare (n.part .dataOut) (.cells k (mappedExtents o.extents))) := by
  obtain ⟨scalar, hscalar, rfl⟩ := except_map_eq_ok.mp hvalues
  obtain ⟨depth, _, rfl⟩ := except_map_eq_ok.mp hscalar
  have hmap := mapExtents?_text (Element.isArgument_scalar depth) hlength
  have heval : eval m σ (.method (.name n.tensorOut) true
      (if s.tensorRank = 0 then "flat<" ++ depth.scalar ++ ">"
        else "tensor<" ++ depth.scalar ++ ", " ++ toString s.tensorRank ++ ">") []) =
      some (.cells k (mappedExtents o.extents)) := by
    rw [eval, eval, Names.tensorOut_eq_part, hpointer, Option.bind_some, evalAll, Option.bind_some]
    simp only [callMethod, ho, Option.bind_some]
    rw [hmap]
    rfl
  rw [Stmt.define, run, initialObject, heval]
  · rfl
  · intro items hitems
    contradiction
  · intro x hx
    contradiction

end TensorBridge
