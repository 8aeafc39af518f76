import TensorBridge.Conversion.Build
import TensorBridge.Kernel.Fragment
import TensorBridge.Proofs.Computation
import TensorBridge.Proofs.Conversion.Sizes
import TensorBridge.Proofs.Cpp.Parts

/-!
# What conversions call

The sizes and the body of a conversion call a few fixed functions and look at the values of their own tensor. They
neither fetch an input nor allocate an output, which the statements around them do, nor call anything else.
-/

namespace TensorBridge

/-- The functions that the conversions of an operand call, the values of its tensors among them. -/
def Names.helpers (n : Names) : List String :=
  ["OP_REQUIRES", "OP_REQUIRES_OK", "TensorShape", "errors::InvalidArgument", "std::isnan", "static_cast<int32>",
    n.dataIn, n.dataOut]

/-- An expression that calls no function but a helper. -/
def Expr.CallsHelper (n : Names) : Expr → Prop
  | .call function _ => ∃ helper ∈ n.helpers, function = .name helper
  | _ => True

/-- An expression that calls no function but a helper and neither fetches an input nor allocates an output. -/
def Expr.IsLocal (n : Names) : Expr → Prop
  | .call function _ => ∃ helper ∈ n.helpers, function = .name helper
  | .method _ _ called _ => called ≠ "input" ∧ called ≠ "allocate_output"
  | _ => True

/-- A local expression is no call that fetches or allocates. -/
theorem Expr.IsLocal.methodArgs?_eq_none {n : Names} {e : Expr} (h : e.IsLocal n) {called : String}
    (hcalled : called = "input" ∨ called = "allocate_output") : e.methodArgs? called = none := by
  cases e with
  | method base arrow other args =>
    rcases hcalled with rfl | rfl
    · exact if_neg h.1
    · exact if_neg h.2
  | _ => rfl

/-- Statements whose parts are local neither fetch nor allocate. -/
theorem methodCalls_eq_nil {n : Names} {stmts : List Stmt} (h : EveryPart (Expr.IsLocal n) stmts) {called : String}
    (hcalled : called = "input" ∨ called = "allocate_output") : methodCalls called stmts = [] := by
  apply List.filterMap_eq_nil_iff.mpr
  intro part hpart
  rw [(h.of_mem hpart).methodArgs?_eq_none hcalled]
  rfl

/-- A local expression calls no function but a helper. -/
theorem Expr.IsLocal.callsHelper {n : Names} {e : Expr} (h : e.IsLocal n) : e.CallsHelper n := by
  cases e with
  | call function args => exact h
  | _ => trivial

/-- Statements all of whose parts call helpers call no other function. -/
theorem helper_of_mem_functionCalls {n : Names} {stmts : List Stmt} (h : EveryPart (Expr.CallsHelper n) stmts) :
    ∀ call ∈ functionCalls stmts, ∃ helper ∈ n.helpers, call.1 = .name helper := by
  intro call hcall
  obtain ⟨part, hpart, heq⟩ := List.mem_filterMap.mp hcall
  have hhelper := h.of_mem hpart
  obtain ⟨target, e⟩ := part
  cases e with
  | call function args =>
    cases heq
    exact hhelper
  | _ => cases heq

section Local

variable {n : Names} {s : Shape}

/-- A helper is called locally if its arguments are local. -/
theorem Expr.every_callNamed {helper : String} {args : List Expr} (hhelper : helper ∈ n.helpers)
    (hargs : ∀ e ∈ args, e.Every (IsLocal n)) : (Expr.callNamed helper args).Every (IsLocal n) := by
  simp only [callNamed, every_call, every_name]
  exact ⟨⟨helper, hhelper, rfl⟩, trivial, hargs⟩

/-- The loop variables of some axes are local. -/
theorem Names.every_indices (n : Names) (first count : Nat) :
    ∀ e ∈ n.indices first count, e.Every (Expr.IsLocal n) := by
  intro e he
  obtain ⟨axis, _, rfl⟩ := List.mem_map.mp he
  exact Expr.every_name.mpr trivial

/-- The sizes of some axes are local. -/
theorem Names.every_sizes (n : Names) (first count : Nat) :
    ∀ e ∈ n.sizes first count, e.Every (Expr.IsLocal n) := by
  intro e he
  obtain ⟨axis, _, rfl⟩ := List.mem_map.mp he
  exact Expr.every_name.mpr trivial

/-- Indices of zero are local. -/
theorem every_zeroIndices (n : Names) (count : Nat) : ∀ e ∈ zeroIndices count, e.Every (Expr.IsLocal n) :=
  Expr.every_replicate_count trivial

/-- A report is local if its details are. -/
theorem every_invalidArgument {message : String} {details : List Expr}
    (hdetails : ∀ e ∈ details, e.Every (Expr.IsLocal n)) :
    (invalidArgument message details).Every (Expr.IsLocal n) := by
  apply Expr.every_callNamed (by simp [Names.helpers])
  exact List.forall_mem_cons.mpr ⟨Expr.every_string.mpr trivial, hdetails⟩

/-- A requirement is local if its condition and its report are. -/
theorem every_requireThat {condition report : Expr} (hcondition : condition.Every (Expr.IsLocal n))
    (hreport : report.Every (Expr.IsLocal n)) : (requireThat condition report).Every (Expr.IsLocal n) := by
  rw [requireThat, Stmt.every_eval]
  apply Expr.every_callNamed (by simp [Names.helpers])
  simp only [List.forall_mem_cons, Expr.every_name, Expr.IsLocal, hcondition, hreport, true_and]
  exact List.forall_mem_nil _

/-- The declaration of a size is local if the extent is. -/
theorem every_declareSize {axis : Nat} {extent : Expr} (hextent : extent.Every (Expr.IsLocal n)) :
    (n.declareSize axis extent).Every (Expr.IsLocal n) := by
  have hcast : (Expr.callNamed "static_cast<int32>" [extent]).Every (Expr.IsLocal n) :=
    Expr.every_callNamed (by simp [Names.helpers]) (List.forall_mem_singleton.mpr hextent)
  simp [Names.declareSize, Stmt.constant, hcast]

/-- The loops over some axes are local if what comes before the inner loops is. -/
theorem every_loopOver {axis : Nat} {before : List Stmt} (hbefore : EveryPart (Expr.IsLocal n) before) :
    (n.loopOver axis before).bound.Every (Expr.IsLocal n) ∧ EveryPart (Expr.IsLocal n) (n.loopOver axis before).before ∧
      EveryPart (Expr.IsLocal n) (n.loopOver axis before).after :=
  ⟨Expr.every_name.mpr trivial, hbefore, everyPart_nil⟩

/-- Plain loops are local if what they repeat is. -/
theorem everyPart_plainLoops (first count : Nat) {inner : List Stmt} (hinner : EveryPart (Expr.IsLocal n) inner) :
    EveryPart (Expr.IsLocal n) (nested (n.plainLoops first count) inner) := by
  apply everyPart_nested _ hinner
  intro l hl
  obtain ⟨axis, _, rfl⟩ := List.mem_map.mp hl
  exact every_loopOver everyPart_nil

/-- The values of a tensor are local. -/
theorem every_tensorValues {tensor : String} {arrow : Bool} {values : Expr}
    (h : tensorValues tensor arrow s = .ok values) : values.Every (Expr.IsLocal n) := by
  obtain ⟨scalar, _, rfl⟩ := except_map_eq_ok.mp h
  rw [Expr.every_method]
  refine ⟨?_, Expr.every_name.mpr trivial, List.forall_mem_nil _⟩
  -- the name of the method starts with `flat<` or `tensor<`
  split
  · constructor <;> intro heq <;> simpa using congrArg String.toList heq
  · constructor <;> intro heq <;> simpa using congrArg String.toList heq

/-- The indices of a primitive value are local. -/
theorem every_primitiveIndex (n : Names) (s : Shape) : ∀ e ∈ primitiveIndex n s, e.Every (Expr.IsLocal n) := by
  unfold primitiveIndex
  split
  · exact List.forall_mem_singleton.mpr (Expr.every_int.mpr trivial)
  · exact n.every_indices 0 s.vectorRank

/-- Both sides of the copy of an element are local. -/
theorem every_elementPairs {block : Expr} {data : String} (hblock : block.Every (Expr.IsLocal n))
    (hdata : data ∈ n.helpers) : ∀ pair ∈ elementPairs n s block data,
      pair.1.Every (Expr.IsLocal n) ∧ pair.2.Every (Expr.IsLocal n) := by
  have helement : (Expr.element block s.element.container (n.indices s.vectorRank s.blockRank)
      s.element.valueType).Every (Expr.IsLocal n) :=
    Expr.every_element.mpr ⟨trivial, hblock, n.every_indices _ _⟩
  unfold elementPairs
  dsimp only
  split
  · exact List.forall_mem_singleton.mpr ⟨helement, Expr.every_callNamed hdata (n.every_indices _ _)⟩
  · intro pair hpair
    obtain ⟨channel, _, rfl⟩ := List.mem_map.mp hpair
    have hchannel : (Expr.count channel).Every (Expr.IsLocal n) := Expr.every_int.mpr trivial
    refine ⟨Expr.every_subscript.mpr ⟨trivial, helement, hchannel⟩, Expr.every_callNamed hdata ?_⟩
    exact List.forall_mem_append.mpr ⟨n.every_indices _ _, List.forall_mem_singleton.mpr hchannel⟩

namespace Conversion

/-! ## From the tensor to the value -/

/-- The declarations of the sizes of a tensor are local. -/
theorem everyPart_tensorSizes (n : Names) (s : Shape) : EveryPart (Expr.IsLocal n) (tensorSizes n s) := by
  have hsize (axis : Nat) : (n.sizeOf axis).Every (Expr.IsLocal n) := Expr.every_name.mpr trivial
  have hrequire {axis count : Nat} {message : String} :
      (requireThat (.binary "==" (n.sizeOf axis) (.count count)) (invalidArgument message [])).Every
        (Expr.IsLocal n) := by
    apply every_requireThat
    · exact Expr.every_binary.mpr ⟨trivial, hsize axis, Expr.every_int.mpr trivial⟩
    · exact every_invalidArgument (List.forall_mem_nil _)
  refine everyPart_iff.mpr (forall_mem_tensorSizes (fun axis _ => ?_) fun _ _ _ _ => hrequire)
  apply every_declareSize
  simp [Expr.IsLocal, Expr.count]

/-- A method of a vector layer is called locally. -/
theorem every_callOn {count : Nat} {method : String} {args : List Expr}
    (hmethod : method ≠ "input" ∧ method ≠ "allocate_output") (hargs : ∀ e ∈ args, e.Every (Expr.IsLocal n)) :
    (callOn ((Expr.name n.value).subscripts (n.indices 0 count)) method args).Every (Expr.IsLocal n) := by
  rw [callOn, Stmt.every_eval, Expr.every_method]
  exact ⟨hmethod, Expr.every_subscripts (fun _ _ => trivial) (Expr.every_name.mpr trivial) (n.every_indices _ _), hargs⟩

/-- What a loop over a vector layer does first is local. -/
theorem everyPart_layerStart (n : Names) (s : Shape) (axis : Nat) (extent : Extent) :
    EveryPart (Expr.IsLocal n) (layerStart n s axis extent) := by
  have hstop : (stopAtNaN n s axis).Every (Expr.IsLocal n) := by
    have hprobe : (Expr.callNamed n.dataIn (n.indices 0 (axis + 1) ++ zeroIndices (s.tensorRank - axis - 1))).Every
        (Expr.IsLocal n) := by
      apply Expr.every_callNamed (by simp [Names.helpers])
      exact List.forall_mem_append.mpr ⟨n.every_indices _ _, every_zeroIndices n _⟩
    simp only [stopAtNaN, Stmt.every_branch, everyPart_cons, Stmt.every_stop, everyPart_nil, and_true]
    exact Expr.every_callNamed (by simp [Names.helpers]) (List.forall_mem_singleton.mpr hprobe)
  have hgrow : (callOn ((Expr.name n.value).subscripts (n.indices 0 axis)) "emplace_back" []).Every
      (Expr.IsLocal n) := every_callOn (by decide) (List.forall_mem_nil _)
  exact everyPart_iff.mpr (forall_mem_layerStart extent hstop hgrow)

/-- The declaration of the extents of a block is local. -/
theorem everyPart_declareExtents (n : Names) (s : Shape) (name : String) :
    EveryPart (Expr.IsLocal n) (declareExtents n s name) := by
  unfold declareExtents
  split
  · exact everyPart_nil
  · have hsizes : (Expr.initializer (n.sizes s.vectorRank s.blockRank)).Every (Expr.IsLocal n) :=
      Expr.every_initializer.mpr ⟨trivial, n.every_sizes _ _⟩
    simp [Stmt.constantArray, hsizes]

/-- The allocation of a block is local. -/
theorem every_declareBlock (n : Names) (s : Shape) (name extents : String) :
    (declareBlock s name extents).Every (Expr.IsLocal n) := by
  unfold declareBlock
  split
  · simp [Stmt.plain]
  · simp [Stmt.construct, Expr.count, Expr.IsLocal]

/-- The declaration of the outermost vector is local. -/
theorem every_declareVectors (n : Names) (s : Shape) : (declareVectors n s).Every (Expr.IsLocal n) := by
  unfold declareVectors
  split
  · simp [Stmt.construct, Names.sizeOf, Expr.IsLocal]
  · simp [Stmt.plain]

/-- The copy of the tensor's part of a block is local. -/
theorem everyPart_fillBlock (n : Names) (s : Shape) (block : String) :
    EveryPart (Expr.IsLocal n) (fillBlock n s block) := by
  apply everyPart_plainLoops
  rw [everyPart_iff]
  intro stmt hstmt
  obtain ⟨pair, hpair, rfl⟩ := List.mem_map.mp hstmt
  exact Stmt.every_assign.mpr
    (every_elementPairs (Expr.every_name.mpr trivial) (by simp [Names.helpers]) pair hpair)

/-- The loops over the vector layers are local if what they repeat is. -/
theorem everyPart_layerLoops (n : Names) (s : Shape) {inner : List Stmt}
    (hinner : EveryPart (Expr.IsLocal n) inner) : EveryPart (Expr.IsLocal n) (nested (layerLoops n s) inner) := by
  apply everyPart_nested _ hinner
  exact forall_mem_layerLoops fun axis extent => every_loopOver (everyPart_layerStart n s axis extent)

/-- The body of the conversion to a value is local. -/
theorem everyPart_valueBody (n : Names) (s : Shape) : EveryPart (Expr.IsLocal n) (valueBody n s) := by
  have happend {item : Expr} (hitem : item.Every (Expr.IsLocal n)) : (append n s item).Every (Expr.IsLocal n) :=
    every_callOn (by decide) (List.forall_mem_singleton.mpr hitem)
  have hprimitive : (Expr.callNamed n.dataIn (primitiveIndex n s)).Every (Expr.IsLocal n) :=
    Expr.every_callNamed (by simp [Names.helpers]) (every_primitiveIndex n s)
  unfold valueBody
  cases s.kind with
  | scalar => simp [Stmt.define, hprimitive]
  | vectorOfPrimitive =>
    refine everyPart_cons.mpr ⟨every_declareVectors n s, everyPart_layerLoops n s ?_⟩
    exact everyPart_cons.mpr ⟨happend hprimitive, everyPart_nil⟩
  | vectorOfMatrix =>
    have hinner : EveryPart (Expr.IsLocal n)
        (declareBlock s n.block n.blockShape :: fillBlock n s n.block ++ [append n s (.name n.block)]) := by
      rw [everyPart_append, everyPart_cons, everyPart_cons]
      exact ⟨⟨every_declareBlock n s _ _, everyPart_fillBlock n s _⟩, happend (Expr.every_name.mpr trivial),
        everyPart_nil⟩
    rw [everyPart_append, everyPart_cons]
    exact ⟨⟨every_declareVectors n s, everyPart_declareExtents n s _⟩, everyPart_layerLoops n s hinner⟩
  | matrix =>
    rw [everyPart_append, everyPart_cons]
    exact ⟨everyPart_declareExtents n s _, every_declareBlock n s _ _, everyPart_fillBlock n s _⟩

/-! ## From the value to the tensor -/

/-- The declarations of the sizes of a value are local. -/
theorem everyPart_valueSizes (n : Names) (s : Shape) :
    EveryPart (Expr.IsLocal n) (layerSizes n s ++ blockSizes n s (firstBlock n s)) := by
  have hfirst (count : Nat) : ((Expr.name n.value).subscripts (zeroIndices count)).Every (Expr.IsLocal n) :=
    Expr.every_subscripts (fun _ _ => trivial) (Expr.every_name.mpr trivial) (every_zeroIndices n count)
  rw [everyPart_append, everyPart_iff, everyPart_iff]
  constructor
  · intro stmt hstmt
    obtain ⟨axis, _, rfl⟩ := List.mem_map.mp hstmt
    apply every_declareSize
    have hsize : "size" ≠ "input" ∧ "size" ≠ "allocate_output" := by decide
    exact Expr.every_method.mpr ⟨hsize, hfirst axis, List.forall_mem_nil _⟩
  · intro stmt hstmt
    obtain ⟨layer, _, rfl⟩ := List.mem_map.mp hstmt
    apply every_declareSize
    split
    · exact Expr.every_int.mpr trivial
    · rw [Expr.every_subscript, Expr.every_member]
      exact ⟨trivial, ⟨trivial, hfirst s.vectorRank⟩, Expr.every_int.mpr trivial⟩

/-- The copy of a value is local. -/
theorem everyPart_tensorBody (n : Names) (s : Shape) :
    EveryPart (Expr.IsLocal n) (nested (n.plainLoops 0 s.rank) (copyInnermost n s)) := by
  have hblock : (currentBlock n s).Every (Expr.IsLocal n) :=
    Expr.every_subscripts (fun _ _ => trivial) (Expr.every_name.mpr trivial) (n.every_indices _ _)
  apply everyPart_plainLoops
  unfold copyInnermost
  split
  · rw [everyPart_iff]
    intro stmt hstmt
    obtain ⟨pair, hpair, rfl⟩ := List.mem_map.mp hstmt
    exact Stmt.every_assign.mpr (every_elementPairs hblock (by simp [Names.helpers]) pair hpair).symm
  · rw [everyPart_cons, Stmt.every_assign]
    exact ⟨⟨Expr.every_callNamed (by simp [Names.helpers]) (every_primitiveIndex n s), hblock⟩, everyPart_nil⟩

/-- The extents that a tensor is allocated with are local. -/
theorem every_allocatedExtents (n : Names) (s : Shape) : ∀ e ∈ allocatedExtents n s, e.Every (Expr.IsLocal n) := by
  rw [allocatedExtents, List.forall_mem_append]
  exact ⟨n.every_sizes _ _, Expr.every_replicate_count trivial⟩

/-- The extents of the tensor of an empty value are local. -/
theorem every_emptyAllocation (n : Names) (s : Shape) : ∀ e ∈ emptyAllocation s, e.Every (Expr.IsLocal n) := by
  rw [emptyAllocation, List.forall_mem_append, List.forall_mem_cons, List.forall_mem_map]
  exact ⟨⟨Expr.every_int.mpr trivial, fun _ _ => Expr.every_int.mpr trivial⟩, Expr.every_replicate_count trivial⟩

end Conversion

end Local

end TensorBridge
