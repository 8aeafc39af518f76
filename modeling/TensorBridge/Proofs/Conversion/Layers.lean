import TensorBridge.Proofs.Conversion.Steps
import Mathlib.Data.List.TakeWhile

/-!
# Vector layers

The nest of loops over the vector layers. Every state of its run is the one before it with another object for
the value, so the statements below only say which: the vector at a path is empty when the loop over its row
starts, and holds the elements of the row when it ends. The row itself may end early; the outermost vector is
special because its elements are there from the start.
-/

namespace TensorBridge

open Conversion

variable {α : Type} {m : Platform α} {n : Names} {s : Shape} {t : Tensor α} {reach : List Nat}

/-- The probes for the ends of rows stay inside a map: a row of unknown length that has elements under the given
sizes is probed at the zeros of the axes below, so the map has to reach beyond zero along these. -/
def Shape.ProbesInside (s : Shape) (sizes reach : List Nat) : Prop :=
  s.element.isFloating = true → ∀ axis extent, s.vectors[axis]? = some extent → isOpenRow axis extent = true →
    (∀ e ∈ sizes.take (axis + 1), 0 < e) → ∀ e ∈ reach.drop (axis + 1), 0 < e

instance (s : Shape) (sizes reach : List Nat) : Decidable (s.ProbesInside sizes reach) :=
  decidable_of_iff
    (s.element.isFloating = true → ∀ layer ∈ s.vectors.zipIdx, isOpenRow layer.2 layer.1 = true →
      (∀ e ∈ sizes.take (layer.2 + 1), 0 < e) → ∀ e ∈ reach.drop (layer.2 + 1), 0 < e)
    ⟨fun h hfloating axis extent hlayer => h hfloating (extent, axis) (List.mem_zipIdx_iff_getElem?.mpr hlayer),
      fun h hfloating layer hlayer => h hfloating layer.2 layer.1 (List.mem_zipIdx_iff_getElem?.mp hlayer)⟩

/-- The probe in the rows of one axis points outside of a map. -/
structure Shape.ProbesOutside (s : Shape) (sizes reach : List Nat) (axis : Nat) : Prop where
  floating : s.element.isFloating = true
  row : ∃ extent, s.vectors[axis]? = some extent ∧ isOpenRow axis extent = true
  reached : ∀ e ∈ sizes.take (axis + 1), 0 < e
  beyond : ¬ ∀ e ∈ reach.drop (axis + 1), 0 < e

/-- Not all probes stay inside a map if and only if those of some axis point outside. -/
theorem Shape.not_probesInside_iff (s : Shape) (sizes : List Nat) :
    ¬ s.ProbesInside sizes reach ↔ ∃ axis, s.ProbesOutside sizes reach axis := by
  constructor
  · intro h
    unfold Shape.ProbesInside at h
    simp only [not_forall] at h
    obtain ⟨hfloating, axis, extent, hlayer, hopen, hreached, hbeyond⟩ := h
    exact ⟨axis, hfloating, ⟨extent, hlayer, hopen⟩, hreached, by simpa only [not_forall] using hbeyond⟩
  · rintro ⟨axis, hfloating, ⟨extent, hlayer, hopen⟩, hreached, hbeyond⟩ h
    exact hbeyond (h hfloating axis extent hlayer hopen hreached)

/-- In a map without zero extents all probes stay inside. -/
theorem Shape.probesInside_of_pos (s : Shape) (sizes : List Nat) (hpos : ∀ e ∈ reach, 0 < e) :
    s.ProbesInside sizes reach :=
  fun _ _ _ _ _ _ e he => hpos e (List.mem_of_mem_drop he)

/-- A value without vector layers has no rows. -/
theorem Shape.probesInside_of_vectors_eq_nil (hvectors : s.vectors = []) (sizes : List Nat) :
    s.ProbesInside sizes reach := by
  intro _ axis extent hlayer
  rw [hvectors] at hlayer
  simp at hlayer

/-- The probe in a row that the loops reach. -/
theorem Shape.ProbesInside.drop_pos (h : s.ProbesInside t.extents reach) {path : List Nat} {extent : Extent}
    (hlayer : s.vectors[path.length]? = some extent) (hpath : Within path (t.extents.take path.length))
    {outer : Nat} (houter : t.extents[path.length]? = some outer) (hpos : 0 < outer)
    (hopen : (isOpenRow path.length extent && s.element.isFloating) = true) :
    ∀ e ∈ reach.drop (path.length + 1), 0 < e := by
  rw [Bool.and_eq_true] at hopen
  have hreached := (hpath.concat_take houter hpos).pos
  rw [List.length_append, List.length_singleton] at hreached
  exact h hopen.2 path.length extent hlayer hopen.1 hreached

/-- The loops over some layers from an axis on. -/
def layersFrom (n : Names) (s : Shape) (first : Nat) (layers : List Extent) : List Loop :=
  (layers.zipIdx first).map fun (extent, axis) => n.loopOver axis (layerStart n s axis extent)

/-- The nest over several layers is a loop over the first one. -/
theorem nested_layersFrom_cons (first : Nat) (extent : Extent) (rest : List Extent) (inner : List Stmt) :
    nested (layersFrom n s first (extent :: rest)) inner =
      [.loop (n.index first) (n.sizeOf first)
        ((rowEnd n s first extent).test ++ (growth n s first ++ nested (layersFrom n s (first + 1) rest) inner))] := by
  simp only [layersFrom, List.zipIdx_cons, List.map_cons, nested, Names.loopOver, layerStart, List.append_assoc,
    List.append_nil]

/-- A state whose value is replaced. -/
abbrev State.withValue (σ : State α) (n : Names) (w : Object α) : State α := σ.set (n.part .value) w

section Row

variable {σ : State α} {v : Object α}

/-- The test for the end of a row stops where the row ends. -/
theorem runAll_rowEnd {τ : State α} (hτ : τ.Supplies n t reach) (hrank : t.extents.length = s.tensorRank)
    {axis : Nat} (extent : Extent) {path : List Nat} (hlength : path.length = axis + 1)
    (hpath : Within path (t.extents.take path.length)) (hindex : τ.HoldsIndex n 0 path)
    (hprobe : (isOpenRow axis extent && s.element.isFloating) = true → ∀ e ∈ reach.drop path.length, 0 < e) :
    runAll m (rowEnd n s axis extent).test τ =
      if s.keeps m.isNaN t axis extent path then .next τ else .stopped τ := by
  unfold Shape.keeps
  rw [rowEnd_test]
  cases hopen : isOpenRow axis extent && s.element.isFloating with
  | false => rfl
  | true =>
    rw [if_pos rfl, runAll, run_stopAtNaN hτ hrank hlength hpath hindex, if_pos (hprobe hopen), Bool.true_and]
    cases m.isNaN (t.cells (path ++ List.replicate (s.tensorRank - axis - 1) 0)) with
    | true => rfl
    | false => rfl

/-- The loop over one row. What its passes do is given by the objects `W i` that the value is before them. -/
theorem run_row (hvalue : σ.get? (n.part .value) = some v) (hσ : σ.Supplies n t reach)
    (hrank : t.extents.length = s.tensorRank) (hprobes : s.ProbesInside t.extents reach) {extent : Extent}
    (path : List Nat) (hlayer : s.vectors[path.length]? = some extent) {outer : Nat}
    (houter : t.extents[path.length]? = some outer) (hpath : Within path (t.extents.take path.length))
    (inner : List Stmt) (W : Nat → Object α)
    (hbody : ∀ i < outer, s.keeps m.isNaN t path.length extent (path ++ [i]) = true →
      (runAll m inner ((σ.withValue n (W i)).bindAxes n 0 (path ++ [i]))).leave =
        .next ((σ.withValue n (W (i + 1))).bindAxes n 0 path)) :
    run m (.loop (n.index path.length) (n.sizeOf path.length) ((rowEnd n s path.length extent).test ++ inner))
        ((σ.withValue n (W 0)).bindAxes n 0 path) =
      .next ((σ.withValue n (W (s.rowLength m.isNaN t extent path))).bindAxes n 0 path) := by
  have hsupplies (w : Object α) : (σ.withValue n w).Supplies n t reach := hσ.set (by simp) (by simp) hvalue w
  have hbound : eval m ((σ.withValue n (W 0)).bindAxes n 0 path) (n.sizeOf path.length) = some (.number outer) := by
    rw [Names.sizeOf, eval, Names.size_eq_part]
    exact ((hsupplies _).bindAxes 0 path).size _ outer houter
  have hstart (i : Nat) (hi : i < outer) :
      runAll m (rowEnd n s path.length extent).test ((σ.withValue n (W i)).bindAxes n 0 (path ++ [i])) =
        if s.keeps m.isNaN t path.length extent (path ++ [i]) then
          .next ((σ.withValue n (W i)).bindAxes n 0 (path ++ [i]))
        else .stopped ((σ.withValue n (W i)).bindAxes n 0 (path ++ [i])) := by
    refine runAll_rowEnd ((hsupplies _).bindAxes 0 _) hrank extent (by simp) (hpath.concat_take houter hi)
      (State.holdsIndex_bindAxes _ n 0 _) fun hopen => ?_
    rw [List.length_append, List.length_singleton]
    exact hprobes.drop_pos hlayer hpath houter (Nat.zero_lt_of_lt hi) hopen
  have hcount : t.extents.getD path.length 0 = outer := by simp [houter]
  rw [run, hbound, Shape.rowLength, hcount]
  refine passes_range (fun i => s.keeps m.isNaN t path.length extent (path ++ [i]))
    (fun i => (σ.withValue n (W i)).bindAxes n 0 path) outer ?_ ?_
  · intro i hi hkeep
    have hpass := hstart i hi
    rw [if_pos hkeep, State.bindAxes_concat, Nat.zero_add] at hpass
    rw [Names.index_eq_part, runAll_append_of_next m hpass]
    have hrest := hbody i hi hkeep
    rwa [State.bindAxes_concat, Nat.zero_add] at hrest
  · intro i hi hkeep
    have hpass := hstart i hi
    rw [if_neg (by simp [hkeep]), State.bindAxes_concat, Nat.zero_add] at hpass
    rw [Names.index_eq_part, runAll_append, hpass, Outcome.andThen, Outcome.leave, State.leave_declare,
      State.leave_enter]

/-- A layer between the outermost and the innermost one gains an empty vector. -/
theorem runAll_growth {w : Object α} (hvalue : σ.get? (n.part .value) = some v) {path : List Nat} (hpath : path ≠ [])
    (hinside : path.length + 1 < s.vectorRank) (i : Nat) {item : ObjectType} {items : List (Object α)}
    (hw : w.at? path = some (.vector (.vector item) items)) :
    runAll m (growth n s path.length) ((σ.withValue n w).bindAxes n 0 (path ++ [i])) =
      .next ((σ.withValue n (w.put path (.vector (.vector item) (items ++ [.vector item []])))).bindAxes n 0
        (path ++ [i])) := by
  have hget : ((σ.withValue n w).bindAxes n 0 (path ++ [i])).get? n.value = some w := by
    rw [Names.value_eq_part, State.get?_bindAxes _ _ _ _ (by intro axis _; simp), State.get?_set_part hvalue,
      if_pos rfl]
  have hindices := (State.holdsIndex_bindAxes (σ.withValue n w) n 0 (path ++ [i])).left.evalIndex m
  have happend := appendTo_subscripts (fun item : ObjectType => some (item.initial : Object α)) hindices hget hw rfl
  rw [growth, if_pos ⟨List.length_pos_iff.mpr hpath, hinside⟩]
  apply runAll_singleton_of_next m
  rw [callOn, run, execute, if_pos rfl, happend, Names.value_eq_part,
    State.set_bindAxes _ _ _ _ (by simp), State.set_set]
  rfl

/-- What the innermost statements of the nest have to do: append the leaf of their path to its row. -/
def AppendsLeaf (m : Platform α) (n : Names) (s : Shape) (t : Tensor α) (σ : State α) (inner : List Stmt) : Prop :=
  ∀ (path : List Nat) (i : Nat) (w : Object α) (item : ObjectType) (items : List (Object α)),
    path.length + 1 = s.vectorRank → Within (path ++ [i]) (t.extents.take (path ++ [i]).length) →
    w.at? path = some (.vector item items) →
    (runAll m inner ((σ.withValue n w).bindAxes n 0 (path ++ [i]))).leave =
      .next ((σ.withValue n (w.put path (.vector item (items ++ [s.leafOf t (path ++ [i])])))).bindAxes n 0 path)

/-- A loop over a layer with further statements inside fills the vector at its path element by element, if each
pass adds one element. -/
theorem runAll_layersFrom_of_pass (hvalue : σ.get? (n.part .value) = some v) (hσ : σ.Supplies n t reach)
    (hrank : t.extents.length = s.tensorRank) (hprobes : s.ProbesInside t.extents reach) {inner : List Stmt}
    {extent : Extent} {rest : List Extent} {path : List Nat} (hlayer : s.vectors[path.length]? = some extent)
    {outer : Nat} (houter : t.extents[path.length]? = some outer)
    (hpath : Within path (t.extents.take path.length)) {w : Object α}
    (hempty : w.at? path = some (.vector (s.coreType.layered rest.length) []))
    (hpass : ∀ i < outer, s.keeps m.isNaN t path.length extent (path ++ [i]) = true →
      (runAll m (growth n s path.length ++ nested (layersFrom n s (path.length + 1) rest) inner)
        ((σ.withValue n (w.put path (s.rowUpTo m.isNaN t rest path i))).bindAxes n 0 (path ++ [i]))).leave =
          .next ((σ.withValue n (w.put path (s.rowUpTo m.isNaN t rest path (i + 1)))).bindAxes n 0 path)) :
    runAll m (nested (layersFrom n s path.length (extent :: rest)) inner) ((σ.withValue n w).bindAxes n 0 path) =
      .next ((σ.withValue n (w.put path (s.layersOf m.isNaN t (extent :: rest) path))).bindAxes n 0 path) := by
  have hrow := run_row hvalue hσ hrank hprobes path hlayer houter hpath _
    (fun i => w.put path (s.rowUpTo m.isNaN t rest path i)) hpass
  have hfirst : w.put path (s.rowUpTo m.isNaN t rest path 0) = w := Object.put_self hempty
  rw [hfirst] at hrow
  rw [nested_layersFrom_cons]
  exact runAll_singleton_of_next m hrow

/-- Each layer has an extent in the tensor. -/
theorem exists_extent (hrank : t.extents.length = s.tensorRank) (axis : Nat) (haxis : axis < s.vectorRank) :
    ∃ extent, t.extents[axis]? = some extent := by
  have hlt : axis < t.extents.length := by
    rw [hrank, Shape.tensorRank, Shape.rank]
    omega
  exact ⟨t.extents[axis], List.getElem?_eq_getElem hlt⟩

/-- The first of the layers below an axis, their number, and the others. -/
theorem layer_of_drop {axis : Nat} {extent : Extent} {rest : List Extent}
    (h : s.vectors.drop axis = extent :: rest) :
    s.vectors[axis]? = some extent ∧ axis + (rest.length + 1) = s.vectorRank ∧ s.vectors.drop (axis + 1) = rest := by
  have hlength := congrArg List.length h
  rw [List.length_drop, List.length_cons] at hlength
  refine ⟨?_, ?_, ?_⟩
  · rw [← List.head?_drop, h, List.head?_cons]
  · rw [Shape.vectorRank]
    omega
  · rw [← List.tail_drop, h, List.tail_cons]

/-- The loops over the layers below a path fill the vector at the path, if it is empty. The vectors inside
others are grown; so the path is not the empty one unless a single layer is left. -/
theorem runAll_layersFrom (hvalue : σ.get? (n.part .value) = some v) (hσ : σ.Supplies n t reach)
    (hrank : t.extents.length = s.tensorRank) (hprobes : s.ProbesInside t.extents reach) {inner : List Stmt}
    (hinner : AppendsLeaf m n s t σ inner) (extent : Extent) (rest : List Extent) (path : List Nat)
    (hvectors : s.vectors.drop path.length = extent :: rest) (hgrown : path ≠ [] ∨ rest = [])
    (hpath : Within path (t.extents.take path.length)) (w : Object α)
    (hempty : w.at? path = some (.vector (s.coreType.layered rest.length) [])) :
    runAll m (nested (layersFrom n s path.length (extent :: rest)) inner) ((σ.withValue n w).bindAxes n 0 path) =
      .next ((σ.withValue n (w.put path (s.layersOf m.isNaN t (extent :: rest) path))).bindAxes n 0 path) := by
  induction rest generalizing extent path w with
  | nil =>
    obtain ⟨hlayer, hlayers, _⟩ := layer_of_drop hvectors
    obtain ⟨outer, houter⟩ := exists_extent hrank path.length (by omega)
    apply runAll_layersFrom_of_pass hvalue hσ hrank hprobes hlayer houter hpath hempty
    intro i hi _
    have hgrowth : growth n s path.length = [] := by
      rw [growth, if_neg]
      simp only [List.length_nil] at hlayers
      omega
    have hleaf := hinner path i _ _ _ hlayers (hpath.concat_take houter hi)
      (Object.at?_put hempty (s.rowUpTo m.isNaN t [] path i))
    rw [Object.put_put] at hleaf
    rw [hgrowth, Shape.rowUpTo_succ]
    exact hleaf
  | cons extent' rest ih =>
    obtain ⟨hlayer, hlayers, hbelow⟩ := layer_of_drop hvectors
    obtain ⟨outer, houter⟩ := exists_extent hrank path.length (by omega)
    have hne : path ≠ [] := hgrown.resolve_right (by simp)
    apply runAll_layersFrom_of_pass hvalue hσ hrank hprobes hlayer houter hpath hempty
    intro i hi _
    -- The row gains an empty vector, which the loops below fill.
    have hgrowth := runAll_growth (m := m) (s := s) hvalue hne (by simp only [List.length_cons] at hlayers; omega) i
      (Object.at?_put hempty (s.rowUpTo m.isNaN t (extent' :: rest) path i))
    rw [Object.put_put] at hgrowth
    let items := (List.range i).map fun j => s.layersOf m.isNaN t (extent' :: rest) (path ++ [j])
    let grown := w.put path (.vector (s.coreType.layered (extent' :: rest).length)
      (items ++ [.vector (s.coreType.layered rest.length) []]))
    have hlength : items.length = i := by simp [items]
    have hat : grown.at? path = some (.vector (s.coreType.layered (extent' :: rest).length)
        (items ++ [.vector (s.coreType.layered rest.length) []])) := Object.at?_put hempty _
    have hnew : grown.at? (path ++ [i]) = some (.vector (s.coreType.layered rest.length) []) := by
      rw [Object.at?_append, hat, Option.bind_some, ← hlength, Object.at?_vector_length, Object.at?_nil]
    have hfilled := ih extent' (path ++ [i]) (by rwa [List.length_append, List.length_singleton]) (.inl (by simp))
      (hpath.concat_take houter hi) grown hnew
    have hput := Object.put_append hat [i] (s.layersOf m.isNaN t (extent' :: rest) (path ++ [i]))
    rw [← hlength, Object.put_vector_length, Object.put_nil, hlength, Object.put_put] at hput
    rw [runAll_append_of_next m hgrowth, Shape.rowUpTo_succ, ← hput]
    rw [List.length_append, List.length_singleton] at hfilled
    have hleft := congrArg Outcome.leave hfilled
    rw [Outcome.leave, State.leave_bindAxes_concat] at hleft
    exact hleft

/-- The outermost row is never cut. -/
theorem rowLength_nil (isNaN : α → Bool) (extent : Extent) :
    s.rowLength isNaN t extent [] = t.extents.getD 0 0 := by
  have hkeeps (i : Nat) : s.keeps isNaN t 0 extent [i] = true := by
    simp [Shape.keeps, isOpenRow]
  have hall : ((List.range (t.extents.getD 0 0)).takeWhile fun i => s.keeps isNaN t 0 extent [i]) =
      List.range (t.extents.getD 0 0) :=
    List.takeWhile_eq_self_iff.mpr fun i _ => hkeeps i
  rw [Shape.rowLength]
  simp only [List.length_nil, List.nil_append, hall, List.length_range]

/-- The vectors that are there before the loops run: none inside a single layer, and an empty one for each
position of the outermost of several. -/
def startOf (s : Shape) (rest : List Extent) (outer : Nat) : Object α :=
  .vector (s.coreType.layered rest.length)
    (if rest = [] then [] else List.replicate outer (s.coreType.layered rest.length).initial)

/-- The outermost vector while its loop runs: the elements that are filled, and the others. -/
def outermostUpTo (isNaN : α → Bool) (s : Shape) (t : Tensor α) (rest : List Extent) (outer count : Nat) : Object α :=
  .vector (s.coreType.layered rest.length)
    (((List.range count).map fun i => s.layersOf isNaN t rest [i]) ++
      List.replicate (outer - count) (s.coreType.layered rest.length).initial)

/-- A pass of the outermost loop finds an empty vector at its position. -/
theorem outermostUpTo_of_lt (isNaN : α → Bool) (s : Shape) (t : Tensor α) (rest : List Extent) {outer i : Nat}
    (hi : i < outer) :
    outermostUpTo isNaN s t rest outer i =
      .vector (s.coreType.layered rest.length)
        (((List.range i).map fun i => s.layersOf isNaN t rest [i]) ++
          (s.coreType.layered rest.length).initial ::
            List.replicate (outer - (i + 1)) (s.coreType.layered rest.length).initial) := by
  rw [outermostUpTo, ← List.replicate_succ, show outer - i = outer - (i + 1) + 1 by omega]

/-- The pass fills it. -/
theorem outermostUpTo_put (isNaN : α → Bool) (s : Shape) (t : Tensor α) (rest : List Extent) {outer i : Nat}
    (hi : i < outer) :
    (outermostUpTo isNaN s t rest outer i).put [i] (s.layersOf isNaN t rest [i]) =
      outermostUpTo isNaN s t rest outer (i + 1) := by
  have hlength : ((List.range i).map fun i => s.layersOf isNaN t rest [i]).length = i := by simp
  have hput := Object.put_vector_length (s.coreType.layered rest.length)
    ((List.range i).map fun i => s.layersOf isNaN t rest [i])
    (List.replicate (outer - (i + 1)) (s.coreType.layered rest.length).initial)
    (s.coreType.layered rest.length).initial (s.layersOf isNaN t rest [i]) []
  rw [hlength, Object.put_nil] at hput
  rw [outermostUpTo_of_lt isNaN s t rest hi, hput, outermostUpTo, List.range_succ, List.map_append,
    List.append_assoc]
  rfl

/-- The loops over all layers leave the container of the tensor. -/
theorem runAll_layerLoops (hvalue : σ.get? (n.part .value) = some v) (hσ : σ.Supplies n t reach)
    (hrank : t.extents.length = s.tensorRank) (hprobes : s.ProbesInside t.extents reach) {inner : List Stmt}
    (hinner : AppendsLeaf m n s t σ inner) {extent : Extent} {rest : List Extent}
    (hvectors : s.vectors = extent :: rest) {outer : Nat} (houter : t.extents[0]? = some outer) :
    runAll m (nested (layerLoops n s) inner) (σ.withValue n (startOf s rest outer)) =
      .next (σ.withValue n (s.containerOf m.isNaN t)) := by
  have hloops : layerLoops n s = layersFrom n s 0 (extent :: rest) := by
    rw [layerLoops_eq, hvectors]
    rfl
  have hlayers : s.vectorRank = rest.length + 1 := by rw [Shape.vectorRank, hvectors, List.length_cons]
  rw [hloops, Shape.containerOf, hvectors]
  cases rest with
  | nil =>
    have hrun := runAll_layersFrom hvalue hσ hrank hprobes hinner extent [] [] hvectors (.inr rfl)
      List.Forall₂.nil (startOf s [] outer) rfl
    rw [Object.put_nil] at hrun
    exact hrun
  | cons extent' rest =>
    have hrun := run_row (m := m) hvalue hσ hrank hprobes [] (by rw [hvectors]; rfl) houter List.Forall₂.nil
      (growth n s 0 ++ nested (layersFrom n s 1 (extent' :: rest)) inner)
      (outermostUpTo m.isNaN s t (extent' :: rest) outer) ?_
    · have hcount : t.extents.getD 0 0 = outer := by simp [houter]
      rw [rowLength_nil, hcount] at hrun
      rw [nested_layersFrom_cons]
      refine runAll_singleton_of_next m (hrun.trans ?_)
      rw [outermostUpTo, Nat.sub_self, List.replicate_zero, List.append_nil, Shape.layersOf, rowLength_nil, hcount]
      rfl
    · intro i hi _
      have hwithin : Within ([] ++ [i]) (t.extents.take ([] ++ [i]).length) :=
        Within.concat_take List.Forall₂.nil houter hi
      have hat : (outermostUpTo m.isNaN s t (extent' :: rest) outer i).at? [i] =
          some (.vector (s.coreType.layered rest.length) []) := by
        have hfind := Object.at?_vector_length (s.coreType.layered (extent' :: rest).length)
          ((List.range i).map fun i => s.layersOf m.isNaN t (extent' :: rest) [i])
          (List.replicate (outer - (i + 1)) (s.coreType.layered (extent' :: rest).length).initial)
          (s.coreType.layered (extent' :: rest).length).initial []
        rw [List.length_map, List.length_range, Object.at?_nil] at hfind
        rw [outermostUpTo_of_lt m.isNaN s t _ hi]
        exact hfind
      have hbelow := runAll_layersFrom hvalue hσ hrank hprobes hinner extent' rest [i] (by rw [hvectors]; rfl)
        (.inl (by simp)) hwithin _ hat
      rw [outermostUpTo_put m.isNaN s t _ hi] at hbelow
      have hleft := congrArg Outcome.leave hbelow
      exact hleft

/-! ### Rows probed outside of the map -/

/-- The axes down to the one that is probed outside have elements. -/
theorem exists_extent_pos {axis : Nat} (houtside : s.ProbesOutside t.extents reach axis)
    (hrank : t.extents.length = s.tensorRank) {above : Nat} (hle : above ≤ axis) :
    ∃ outer, t.extents[above]? = some outer ∧ 0 < outer := by
  obtain ⟨last, hlast, _⟩ := houtside.row
  have hlt : axis < s.vectorRank := (List.getElem?_eq_some_iff.mp hlast).1
  obtain ⟨outer, houter⟩ := exists_extent hrank above (by omega)
  have htake : (t.extents.take (axis + 1))[above]? = some outer := by
    rw [List.getElem?_take_of_lt (by omega), houter]
  exact ⟨outer, houter, houtside.reached outer (List.mem_of_getElem? htake)⟩

/-- A row with elements is stuck at its first one, if the probe of the row or one in the rows below points outside. -/
theorem run_row_stuck (hσ : σ.Supplies n t reach) (hrank : t.extents.length = s.tensorRank) {axis : Nat}
    (houtside : s.ProbesOutside t.extents reach axis) {extent : Extent} (path : List Nat)
    (hlayer : s.vectors[path.length]? = some extent) (hle : path.length ≤ axis)
    (hpath : Within path (t.extents.take path.length)) (inner : List Stmt)
    (hinner : path.length < axis → runAll m inner (σ.bindAxes n 0 (path ++ [0])) = .stuck) :
    run m (.loop (n.index path.length) (n.sizeOf path.length) ((rowEnd n s path.length extent).test ++ inner))
      (σ.bindAxes n 0 path) = .stuck := by
  obtain ⟨last, hlast, hopen⟩ := houtside.row
  obtain ⟨outer, houter, hpos⟩ := exists_extent_pos houtside hrank hle
  have hbound : eval m (σ.bindAxes n 0 path) (n.sizeOf path.length) = some (.number outer) := by
    rw [Names.sizeOf, eval, Names.size_eq_part]
    exact (hσ.bindAxes 0 path).size _ outer houter
  have hfirst : runAll m ((rowEnd n s path.length extent).test ++ inner) (σ.bindAxes n 0 (path ++ [0])) = .stuck := by
    have hwithin := hpath.concat_take houter hpos
    by_cases hprobed : isOpenRow path.length extent = true
    · have hbeyond : ¬ ∀ e ∈ reach.drop (path ++ [0]).length, 0 < e := by
        intro h
        apply houtside.beyond
        intro e he
        rw [show axis + 1 = path.length + 1 + (axis - path.length) by omega, ← List.drop_drop] at he
        rw [List.length_append, List.length_singleton] at h
        exact h e (List.mem_of_mem_drop he)
      have hlength : (path ++ [0]).length = path.length + 1 := by simp
      have hstop := run_stopAtNaN (m := m) (hσ.bindAxes 0 (path ++ [0])) hrank hlength hwithin
        (State.holdsIndex_bindAxes _ n 0 _)
      rw [if_neg hbeyond] at hstop
      rw [rowEnd_test, hprobed, houtside.floating, Bool.and_true, if_pos rfl, List.cons_append, runAll, hstop]
      rfl
    · have hlt : path.length < axis := by
        refine Nat.lt_of_le_of_ne hle fun heq => hprobed ?_
        rw [heq] at hlayer ⊢
        rwa [Option.some.inj (hlayer.symm.trans hlast)]
      rw [rowEnd_test, if_neg (by simp [hprobed]), List.nil_append]
      exact hinner hlt
  rw [State.bindAxes_concat, Nat.zero_add] at hfirst
  rw [run, hbound, Names.index_eq_part]
  exact passes_stuck hpos (congrArg Outcome.leave hfirst)

/-- The loops over the layers below a path are stuck if a probe in their rows points outside. -/
theorem runAll_layersFrom_stuck (hvalue : σ.get? (n.part .value) = some v) (hσ : σ.Supplies n t reach)
    (hrank : t.extents.length = s.tensorRank) {axis : Nat} (houtside : s.ProbesOutside t.extents reach axis)
    (inner : List Stmt) (extent : Extent) (rest : List Extent) (path : List Nat)
    (hvectors : s.vectors.drop path.length = extent :: rest) (hgrown : path ≠ [] ∨ rest = [])
    (hle : path.length ≤ axis) (hpath : Within path (t.extents.take path.length)) (w : Object α)
    (hempty : w.at? path = some (.vector (s.coreType.layered rest.length) [])) :
    runAll m (nested (layersFrom n s path.length (extent :: rest)) inner) ((σ.withValue n w).bindAxes n 0 path) =
      .stuck := by
  induction rest generalizing extent path w with
  | nil =>
    obtain ⟨hlayer, hlayers, _⟩ := layer_of_drop hvectors
    obtain ⟨last, hlast, _⟩ := houtside.row
    have hlt : axis < s.vectorRank := (List.getElem?_eq_some_iff.mp hlast).1
    -- There is no layer below, so it is this row that is probed outside.
    have hlast : ¬ path.length < axis := by
      rw [List.length_nil] at hlayers
      omega
    have hrow := run_row_stuck (m := m) (hσ.set (by simp) (by simp) hvalue w) hrank houtside path hlayer hle hpath
      (growth n s path.length ++ nested (layersFrom n s (path.length + 1) []) inner) fun h => absurd h hlast
    rw [nested_layersFrom_cons]
    exact runAll_cons_of_stuck m hrow []
  | cons extent' rest ih =>
    obtain ⟨hlayer, hlayers, hbelow⟩ := layer_of_drop hvectors
    obtain ⟨outer, houter, hpos⟩ := exists_extent_pos houtside hrank hle
    have hne : path ≠ [] := hgrown.resolve_right (by simp)
    have hrow := run_row_stuck (m := m) (hσ.set (by simp) (by simp) hvalue w) hrank houtside path hlayer hle hpath
      (growth n s path.length ++ nested (layersFrom n s (path.length + 1) (extent' :: rest)) inner) ?_
    · rw [nested_layersFrom_cons]
      exact runAll_cons_of_stuck m hrow []
    · intro hlt
      have hgrowth := runAll_growth (m := m) (s := s) hvalue hne (by simp only [List.length_cons] at hlayers; omega) 0
        hempty
      let grown := w.put path (.vector (s.coreType.layered (extent' :: rest).length)
        [.vector (s.coreType.layered rest.length) []])
      have hnew : grown.at? (path ++ [0]) = some (.vector (s.coreType.layered rest.length) []) := by
        rw [Object.at?_append, Object.at?_put hempty, Option.bind_some]
        exact Object.at?_vector_length _ [] _ _ _
      have hstuck := ih extent' (path ++ [0]) (by rwa [List.length_append, List.length_singleton]) (.inl (by simp))
        (by rw [List.length_append, List.length_singleton]; exact hlt) (hpath.concat_take houter hpos) grown hnew
      rw [List.length_append, List.length_singleton] at hstuck
      exact (runAll_append_of_next m hgrowth _).trans hstuck

/-- The loops over all layers are stuck if a probe points outside. -/
theorem runAll_layerLoops_stuck (hvalue : σ.get? (n.part .value) = some v) (hσ : σ.Supplies n t reach)
    (hrank : t.extents.length = s.tensorRank) {axis : Nat} (houtside : s.ProbesOutside t.extents reach axis)
    (inner : List Stmt) {extent : Extent} {rest : List Extent} (hvectors : s.vectors = extent :: rest) {outer : Nat}
    (houter : t.extents[0]? = some outer) :
    runAll m (nested (layerLoops n s) inner) (σ.withValue n (startOf s rest outer)) = .stuck := by
  have hloops : layerLoops n s = layersFrom n s 0 (extent :: rest) := by
    rw [layerLoops_eq, hvectors]
    rfl
  rw [hloops]
  cases rest with
  | nil =>
    exact runAll_layersFrom_stuck hvalue hσ hrank houtside inner extent [] [] hvectors (.inr rfl) (Nat.zero_le _)
      List.Forall₂.nil (startOf s [] outer) rfl
  | cons extent' rest =>
    have hrow := run_row_stuck (m := m) (hσ.set (by simp) (by simp) hvalue (startOf s (extent' :: rest) outer)) hrank
      houtside [] (by rw [hvectors]; rfl) (Nat.zero_le _) List.Forall₂.nil
      (growth n s 0 ++ nested (layersFrom n s 1 (extent' :: rest)) inner) ?_
    · rw [nested_layersFrom_cons]
      exact runAll_cons_of_stuck m hrow []
    · intro hlt
      obtain ⟨count, hcount, hpos⟩ := exists_extent_pos houtside hrank (Nat.zero_le axis)
      obtain rfl : count = outer := Option.some.inj (hcount.symm.trans houter)
      have hwithin : Within ([] ++ [0]) (t.extents.take ([] ++ [0]).length) :=
        Within.concat_take List.Forall₂.nil hcount hpos
      have hat : (startOf s (extent' :: rest) count : Object α).at? [0] =
          some (.vector (s.coreType.layered rest.length) []) := by
        obtain ⟨k, rfl⟩ : ∃ k, count = k + 1 := ⟨count - 1, by omega⟩
        rw [startOf, if_neg (by simp), List.replicate_succ]
        exact Object.at?_vector_length _ [] _ _ _
      exact runAll_layersFrom_stuck hvalue hσ hrank houtside inner extent' rest [0] (by rw [hvectors]; rfl)
        (.inl (by simp)) hlt hwithin _ hat

/-- The loops over all layers leave the container of the tensor exactly if the probes stay inside the map. -/
theorem runAll_layerLoops_eq (hvalue : σ.get? (n.part .value) = some v) (hσ : σ.Supplies n t reach)
    (hrank : t.extents.length = s.tensorRank) {inner : List Stmt} (hinner : AppendsLeaf m n s t σ inner)
    {extent : Extent} {rest : List Extent} (hvectors : s.vectors = extent :: rest) {outer : Nat}
    (houter : t.extents[0]? = some outer) :
    runAll m (nested (layerLoops n s) inner) (σ.withValue n (startOf s rest outer)) =
      if s.ProbesInside t.extents reach then .next (σ.withValue n (s.containerOf m.isNaN t)) else .stuck := by
  by_cases hprobes : s.ProbesInside t.extents reach
  · rw [if_pos hprobes]
    exact runAll_layerLoops hvalue hσ hrank hprobes hinner hvectors houter
  · obtain ⟨axis, houtside⟩ := (s.not_probesInside_iff t.extents).mp hprobes
    rw [if_neg hprobes]
    exact runAll_layerLoops_stuck hvalue hσ hrank houtside inner hvectors houter

end Row

end TensorBridge
