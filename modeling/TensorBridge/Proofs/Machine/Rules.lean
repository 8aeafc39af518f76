import TensorBridge.Proofs.Machine.Run

/-!
# Rules for running statements

How a run over several statements, or over the passes of a loop, is put together from its parts. The states of
such a run differ in one thing only, so they are given as a family over it; the state at the end is then
described by a fold over the items of the list or over the values of the loop variable, and for a loop that may
stop, by the number of passes up to the first one that does.
-/

namespace TensorBridge

variable {α : Type} (m : Platform α)

/-! ## Sequences -/

/-- A statement that leads to the next one. -/
theorem runAll_cons_of_next {s : Stmt} {σ τ : State α} (h : run m s σ = .next τ) (rest : List Stmt) :
    runAll m (s :: rest) σ = runAll m rest τ := by
  rw [runAll, h]
  rfl

/-- Statements after one that is stuck. -/
theorem runAll_cons_of_stuck {s : Stmt} {σ : State α} (h : run m s σ = .stuck) (rest : List Stmt) :
    runAll m (s :: rest) σ = .stuck := by
  rw [runAll, h]
  rfl

/-- A single statement. -/
theorem runAll_singleton_of_next {s : Stmt} {σ τ : State α} (h : run m s σ = .next τ) :
    runAll m [s] σ = .next τ := by
  rw [runAll_cons_of_next m h, runAll]

/-- Statements after others. -/
theorem runAll_append (first rest : List Stmt) (σ : State α) :
    runAll m (first ++ rest) σ = (runAll m first σ).andThen (runAll m rest) := by
  induction first generalizing σ with
  | nil =>
    rw [List.nil_append, runAll]
    rfl
  | cons s first ih =>
    rw [List.cons_append, runAll, runAll]
    cases run m s σ with
    | next τ => exact ih τ
    | stopped τ => rfl
    | refused => rfl
    | stuck => rfl

/-- Statements after others that lead to them. -/
theorem runAll_append_of_next {first : List Stmt} {σ τ : State α} (h : runAll m first σ = .next τ)
    (rest : List Stmt) : runAll m (first ++ rest) σ = runAll m rest τ := by
  rw [runAll_append, h]
  rfl

/-- Statements made from a list, of which each leads to the next one. The states are those of a family
`embed`, and what a statement does is said of its members. -/
theorem runAll_map {β γ : Type} (f : β → Stmt) (embed : γ → State α) (G : β → γ → γ) (items : List β)
    (hstep : ∀ b ∈ items, ∀ x, run m (f b) (embed x) = .next (embed (G b x))) (x : γ) :
    runAll m (items.map f) (embed x) = .next (embed (items.foldl (fun y b => G b y) x)) := by
  induction items generalizing x with
  | nil => exact runAll.eq_1 m (embed x)
  | cons b rest ih =>
    rw [List.map_cons, runAll_cons_of_next m (hstep b List.mem_cons_self x), List.foldl_cons]
    exact ih (fun c hc => hstep c (List.mem_cons_of_mem b hc)) (G b x)

/-! ## Loops -/

/-- Passes of which each leads to the next one. The states before them are those of a family `embed`. -/
theorem passes_foldl {γ : Type} (body : Nat → State α → Outcome α) (embed : γ → State α) (G : Nat → γ → γ)
    (values : List Nat) (hstep : ∀ i ∈ values, ∀ x, body i (embed x) = .next (embed (G i x))) (x : γ) :
    passes body values (embed x) = .next (embed (values.foldl (fun y i => G i y) x)) := by
  induction values generalizing x with
  | nil => rfl
  | cons i rest ih =>
    rw [passes, hstep i List.mem_cons_self x, List.foldl_cons]
    exact ih (fun j hj => hstep j (List.mem_cons_of_mem i hj)) (G i x)

/-- A loop whose first pass is stuck. -/
theorem passes_stuck {body : Nat → State α → Outcome α} {count : Nat} (hpos : 0 < count) {σ : State α}
    (h : body 0 σ = .stuck) : passes body (List.range count) σ = .stuck := by
  obtain ⟨k, rfl⟩ : ∃ k, count = k + 1 := ⟨count - 1, by omega⟩
  rw [List.range_succ_eq_map, passes, h]

/-- Passes up to the first one that stops. The states `F i` are those before the passes. -/
theorem passes_range {body : Nat → State α → Outcome α} (keep : Nat → Bool) (F : Nat → State α) (count : Nat)
    (hkeep : ∀ i < count, keep i = true → body i (F i) = .next (F (i + 1)))
    (hstop : ∀ i < count, keep i = false → body i (F i) = .stopped (F i)) :
    passes body (List.range count) (F 0) = .next (F ((List.range count).takeWhile keep).length) := by
  suffices hfrom : ∀ n first, first + n = count →
      passes body (List.range' first n) (F first) =
        .next (F (first + ((List.range' first n).takeWhile keep).length)) by
    rw [List.range_eq_range']
    simpa using hfrom count 0 (by omega)
  intro n
  induction n with
  | zero =>
    intro first _
    rfl
  | succ n ih =>
    intro first hcount
    rw [List.range'_succ, passes]
    cases hfirst : keep first with
    | true =>
      rw [hkeep first (by omega) hfirst, List.takeWhile_cons_of_pos hfirst, List.length_cons]
      have hrest := ih (first + 1) (by omega)
      rwa [Nat.add_right_comm, Nat.add_assoc] at hrest
    | false =>
      rw [hstop first (by omega) hfirst, List.takeWhile_cons_of_neg (by simp [hfirst])]
      rfl

/-! ## Indices and places -/

variable (σ : State α)

@[simp] theorem evalIndex_nil : evalIndex m σ [] = some [] := by
  rw [evalIndex, evalAll]
  rfl

/-- An index is read number by number. -/
theorem evalIndex_cons_eq_some {e : Expr} {rest : List Expr} {index : List Nat} :
    evalIndex m σ (e :: rest) = some index ↔
      ∃ i tail, index = i :: tail ∧ (eval m σ e).bind Object.position? = some i ∧
        evalIndex m σ rest = some tail := by
  rw [evalIndex, evalAll]
  constructor
  · intro h
    obtain ⟨values, hvalues, hindex⟩ := Option.bind_eq_some_iff.mp h
    obtain ⟨v, hv, hvalues⟩ := Option.bind_eq_some_iff.mp hvalues
    obtain ⟨values, hrest, rfl⟩ := Option.map_eq_some_iff.mp hvalues
    change (v :: values).mapM Object.position? = some index at hindex
    rw [List.mapM_cons] at hindex
    obtain ⟨i, hi, hindex⟩ := Option.bind_eq_some_iff.mp hindex
    obtain ⟨tail, htail, hindex⟩ := Option.bind_eq_some_iff.mp hindex
    cases hindex
    refine ⟨i, tail, rfl, ?_, ?_⟩
    · rw [hv]
      exact hi
    · rw [evalIndex, hrest]
      exact htail
  · rintro ⟨i, tail, rfl, he, hrest⟩
    obtain ⟨v, hv, hi⟩ := Option.bind_eq_some_iff.mp he
    obtain ⟨values, hvalues, htail⟩ := Option.bind_eq_some_iff.mp hrest
    have hmap : values.mapM Object.position? = some tail := htail
    rw [hv, hvalues]
    change (v :: values).mapM Object.position? = some (i :: tail)
    rw [List.mapM_cons, hi, hmap]
    rfl

/-- An index of two stretches. -/
theorem evalIndex_append {es es' : List Expr} {index index' : List Nat} (h : evalIndex m σ es = some index)
    (h' : evalIndex m σ es' = some index') : evalIndex m σ (es ++ es') = some (index ++ index') := by
  induction es generalizing index with
  | nil =>
    rw [evalIndex_nil, Option.some.injEq] at h
    subst h
    exact h'
  | cons e rest ih =>
    obtain ⟨i, tail, rfl, he, hrest⟩ := (evalIndex_cons_eq_some m σ).mp h
    exact (evalIndex_cons_eq_some m σ).mpr ⟨i, tail ++ index', rfl, he, ih hrest⟩

/-- An index of names and counts, each of them read on its own. -/
theorem evalIndex_map {β : Type} (f : β → Expr) (g : β → Nat) (items : List β)
    (h : ∀ b ∈ items, (eval m σ (f b)).bind Object.position? = some (g b)) :
    evalIndex m σ (items.map f) = some (items.map g) := by
  induction items with
  | nil => exact evalIndex_nil m σ
  | cons b rest ih =>
    have hrest := ih fun c hc => h c (List.mem_cons_of_mem b hc)
    exact (evalIndex_cons_eq_some m σ).mpr ⟨g b, rest.map g, rfl, h b List.mem_cons_self, hrest⟩

/-- A counted number is a position. -/
theorem eval_count (n : Nat) : (eval m σ (.count n)).bind Object.position? = some n := by
  rw [Expr.count, eval]
  simp [Object.position?]

/-- A variable that holds a number is a position. -/
theorem eval_name_position {x : String} {n : Nat} (h : σ.get? x = some (.number n)) :
    (eval m σ (.name x)).bind Object.position? = some n := by
  rw [eval, h]
  simp [Object.position?]

/-- The indices of the first element are zeros. -/
theorem evalIndex_zeroIndices (n : Nat) : evalIndex m σ (zeroIndices n) = some (List.replicate n 0) := by
  have hzeros := evalIndex_map m σ Expr.count id (List.replicate n 0) fun i _ => eval_count m σ i
  rwa [List.map_replicate, List.map_id] at hzeros

/-- An array of extents has them as its sizes. -/
theorem sizes?_numbers (extents : List Nat) :
    (Object.numbers (extents.map Int.ofNat) : Object α).sizes? = some extents := by
  change (extents.map Int.ofNat).mapM _ = some extents
  induction extents with
  | nil => rfl
  | cons extent rest ih =>
    rw [List.map_cons, List.mapM_cons, ih]
    simp

/-- An array is initialized with the numbers that its items give. -/
theorem initialObject_initializer (type : String) (args : List Expr) {items : List Expr} {ns : List Nat}
    (h : evalIndex m σ items = some ns) :
    initialObject m σ type args (some (.initializer items)) = some (.numbers (ns.map Int.ofNat)) := by
  obtain ⟨values, hvalues, hns⟩ := Option.bind_eq_some_iff.mp h
  have hmap : values.mapM Object.position? = some ns := hns
  rw [initialObject, hvalues, Option.bind_some, hmap]
  rfl

/-- Subscripts lead on from a place. -/
theorem evalPlace_subscripts_from {base : Expr} {x : String} {path : List Nat}
    (hbase : evalPlace m σ base = some (x, path)) {es : List Expr} {index : List Nat}
    (h : evalIndex m σ es = some index) : evalPlace m σ (base.subscripts es) = some (x, path ++ index) := by
  induction es generalizing base path index with
  | nil =>
    rw [evalIndex_nil, Option.some.injEq] at h
    subst h
    rw [List.append_nil]
    exact hbase
  | cons e rest ih =>
    obtain ⟨i, tail, rfl, he, hrest⟩ := (evalIndex_cons_eq_some m σ).mp h
    have hfirst : evalPlace m σ (.subscript base e) = some (x, path ++ [i]) := by
      rw [evalPlace, hbase, Option.bind_some, he]
      rfl
    have hall := ih hfirst hrest
    rwa [List.append_assoc] at hall

/-- The place inside a variable, at the path that the subscripts give. -/
theorem evalPlace_subscripts (x : String) {es : List Expr} {path : List Nat} (h : evalIndex m σ es = some path) :
    evalPlace m σ ((Expr.name x).subscripts es) = some (x, path) :=
  evalPlace_subscripts_from m σ (evalPlace.eq_1 m σ x) h

/-- The value behind subscripts, where elements may be read. -/
theorem eval_subscripts_from (hread : m.mayRead = true) {base : Expr} {v w : Object α}
    (hbase : eval m σ base = some v) {es : List Expr} {path : List Nat} (h : evalIndex m σ es = some path)
    (hw : v.at? path = some w) : eval m σ (base.subscripts es) = some w := by
  induction es generalizing base v path with
  | nil =>
    rw [evalIndex_nil, Option.some.injEq] at h
    subst h
    rw [Object.at?_nil] at hw
    exact hbase.trans hw
  | cons e rest ih =>
    obtain ⟨i, tail, rfl, he, hrest⟩ := (evalIndex_cons_eq_some m σ).mp h
    obtain ⟨item, items, part, rfl, hpart, hw⟩ := Object.exists_vector_of_at?_cons hw
    obtain ⟨index, hindex, hi⟩ := Option.bind_eq_some_iff.mp he
    have hfirst : eval m σ (.subscript base e) = some part := by
      rw [eval, hbase, Option.bind_some, hindex, Option.bind_some, Object.item?, if_pos hread, hi]
      exact hpart
    exact ih hfirst hrest hw

/-- There is nothing behind subscripts of an expression without a value. -/
theorem eval_subscripts_of_none {base : Expr} (hbase : eval m σ base = none) (es : List Expr) :
    eval m σ (base.subscripts es) = none := by
  induction es generalizing base with
  | nil => exact hbase
  | cons e rest ih =>
    apply ih
    rw [eval, hbase]
    rfl

/-- The value of a subscripted variable, where elements may be read. -/
theorem eval_subscripts (hread : m.mayRead = true) {x : String} {v w : Object α} (hx : σ.get? x = some v)
    {es : List Expr} {path : List Nat} (h : evalIndex m σ es = some path) (hw : v.at? path = some w) :
    eval m σ ((Expr.name x).subscripts es) = some w :=
  eval_subscripts_from m σ hread ((eval.eq_1 m σ x).trans hx) h hw

end TensorBridge
