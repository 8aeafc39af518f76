import TensorBridge.Proofs.Conversion.Variables
import TensorBridge.Proofs.Shape.Blocks

/-!
# One element of a block

The statements that copy an element pair each channel of the element in the block with a value of the tensor.
At an index of all axes both sides mean what they say: the element at the place of the block's index, and the
tensor at the whole index followed by the channel, if there are several.
-/

namespace TensorBridge

variable {α : Type}

namespace Shape

/-- What an index of the tensor has behind the axes of the shape: the channel, if there are several. -/
def channelIndex (s : Shape) (channel : Nat) : List Nat := if s.element.channels = 1 then [] else [channel]

/-- The extents of the tensor behind the axes of the shape. -/
def channelExtents (s : Shape) : List Nat := List.replicate s.element.channelAxes s.element.channels

/-- A block that holds elements of a shape under some extents. -/
structure Fits (s : Shape) (extents : List Nat) (b : Block α) : Prop where
  container : b.container = s.element.container
  element : b.element = s.element.objectType
  extents : b.extents = s.boxed extents

end Shape

/-- A channel points inside the extents behind the axes. -/
theorem Shape.within_channelIndex (s : Shape) {channel : Nat} (h : channel < s.element.channels) :
    Within (s.channelIndex channel) s.channelExtents := by
  have hpos := s.element.channels_pos
  unfold Shape.channelIndex Shape.channelExtents Element.channelAxes
  by_cases hone : s.element.channels = 1
  · rw [if_pos hone, if_neg (by omega)]
    exact List.Forall₂.nil
  · rw [if_neg hone, if_pos (by omega)]
    exact List.Forall₂.cons h List.Forall₂.nil

/-- One channel of the element at the loop variables. -/
def elementExpr (n : Names) (s : Shape) (block : Expr) (channel : Nat) : Expr :=
  let element :=
    Expr.element block s.element.container (n.indices s.vectorRank s.blockRank) s.element.valueType
  if s.element.channels = 1 then element else .subscript element (.count channel)

/-- One channel of the tensor's value at the loop variables. -/
def datumExpr (n : Names) (s : Shape) (data : String) (channel : Nat) : Expr :=
  .callNamed data (n.indices 0 s.rank ++ (s.channelIndex channel).map Expr.count)

/-- The pairs of a copy are one for each channel. -/
theorem elementPairs_eq (n : Names) (s : Shape) (block : Expr) (data : String) :
    elementPairs n s block data =
      (List.range s.element.channels).map fun channel =>
        (elementExpr n s block channel, datumExpr n s data channel) := by
  unfold elementPairs elementExpr datumExpr Shape.channelIndex
  by_cases hone : s.element.channels = 1
  · simp [hone]
  · simp [hone]

variable {m : Platform α} {n : Names} {s : Shape} {σ : State α}

/-- The index in the tensor's value is read. -/
theorem evalIndex_datum {index : List Nat} (hindex : σ.HoldsIndex n 0 index) (hrank : index.length = s.rank)
    (channel : Nat) :
    evalIndex m σ (n.indices 0 s.rank ++ (s.channelIndex channel).map Expr.count) =
      some (index ++ s.channelIndex channel) := by
  refine evalIndex_append m σ ?_ ?_
  · rw [← hrank]
    exact hindex.evalIndex m
  · have hchannel := evalIndex_map m σ Expr.count id (s.channelIndex channel) fun i _ => eval_count m σ i
    rwa [List.map_id] at hchannel

/-- The index in the block is read. -/
theorem evalIndex_blockIndex {extents index : List Nat} (hindex : σ.HoldsIndex n s.vectorRank index)
    (hwithin : Within index extents) (hrank : extents.length = s.blockRank) :
    evalIndex m σ (n.indices s.vectorRank s.blockRank) = some index := by
  rw [← hrank, ← hwithin.length_eq]
  exact hindex.evalIndex m

/-- The elements of a block have the channels of its shape. -/
theorem Shape.Fits.channels_eq {extents : List Nat} {b : Block α} (hfits : s.Fits extents b) :
    b.element.channels = s.element.channels := by
  rw [hfits.element, Element.channels_objectType]

/-- A channel of an element that was written is read. -/
theorem eval_elementExpr (hread : m.mayRead = true) (hmatrix : s.element.isMatrix = true) {block : Expr} {b : Block α}
    (hblock : eval m σ block = some (.block b)) {extents index : List Nat} (hfits : s.Fits extents b)
    (hindex : σ.HoldsIndex n s.vectorRank index) (hwithin : Within index extents)
    (hrank : extents.length = s.blockRank) {channel : Nat} (hchannel : channel < s.element.channels) {a : α}
    (ha : b.cells (s.placeOf index) channel = some a) :
    eval m σ (elementExpr n s block channel) = some (.value a) := by
  have heval := evalIndex_blockIndex (m := m) hindex hwithin hrank
  have hchannels := hfits.channels_eq
  have helement : eval m σ (.element block s.element.container (n.indices s.vectorRank s.blockRank)
      s.element.valueType) = some (b.elementAt (s.placeOf index)) := by
    rw [evalIndex] at heval
    rw [eval, hblock, Option.bind_some, heval, Option.bind_some, Object.element?, if_pos hread,
      Shape.select?_block hmatrix hfits.container hfits.element hfits.extents hwithin hrank]
    rfl
  unfold elementExpr
  by_cases hone : s.element.channels = 1
  · obtain rfl : channel = 0 := by omega
    simp only [hone, ↓reduceIte]
    rw [helement, Block.elementAt, if_pos (hchannels.trans hone), ha]
  · have hposition := eval_count m σ channel
    obtain ⟨v, hv, hchannelValue⟩ := Option.bind_eq_some_iff.mp hposition
    simp only [hone, ↓reduceIte]
    rw [eval, helement, Option.bind_some, hv, Option.bind_some, Block.elementAt, if_neg (by omega), Object.item?,
      hchannelValue, Option.bind_some, hchannels, List.getElem?_map, List.getElem?_range hchannel]
    simp [ha]

/-- Assigning to a channel of an element writes it at the place of the index. -/
theorem assign_elementExpr (hmatrix : s.element.isMatrix = true) {block : Expr} {x : String} {path : List Nat}
    (hplace : evalPlace m σ block = some (x, path)) {v : Object α} (hx : σ.get? x = some v) {b : Block α}
    (hb : v.at? path = some (.block b)) {extents index : List Nat} (hfits : s.Fits extents b)
    (hindex : σ.HoldsIndex n s.vectorRank index) (hwithin : Within index extents)
    (hrank : extents.length = s.blockRank) {channel : Nat} (hchannel : channel < s.element.channels) (a : α) :
    assign m σ (elementExpr n s block channel) (.value a) =
      some (σ.set x (v.put path (.block (b.put (s.placeOf index) channel a)))) := by
  have hselect := Shape.select?_block hmatrix hfits.container hfits.element hfits.extents hwithin hrank
  have heval := evalIndex_blockIndex (m := m) hindex hwithin hrank
  have hchannels := hfits.channels_eq
  unfold elementExpr
  by_cases hone : s.element.channels = 1
  · obtain rfl : channel = 0 := by omega
    simp only [hone, ↓reduceIte, assign, store]
    rw [hplace, heval]
    simp only [Option.bind_some, hx, hb, hselect, ObjectType.pick?, hchannels, hone, ↓reduceIte, Option.map_some]
  · simp only [hone, ↓reduceIte, assign, store]
    rw [eval_count, hplace, heval]
    simp only [Option.bind_some, hx, hb, hselect, ObjectType.pick?, hchannels]
    rw [if_pos ⟨by omega, hchannel⟩]
    rfl

end TensorBridge
