import TensorBridge.Proofs.Conversion.Axes
import TensorBridge.Proofs.Conversion.Elements
import TensorBridge.Proofs.Conversion.Identifiers

/-!
# What an expression may be where it stands

Each expression of a conversion stands inside loops over the first axes. Its identifiers are declared there, and its
indices into the tensor and into a block are the variables of these loops. Such an expression is called sound; the
conditions on the parts of a conversion are put together from those on the few kinds of expressions that occur.
-/

namespace TensorBridge

/-! ## Sound expressions -/

/-- The index at which one value of the tensor is copied, inside the loops over all axes. -/
def Names.IsCopyIndex (n : Names) (s : Shape) (around : List Binding) (index : List Expr) : Prop :=
  if s.hasBlock then
    n.Counts around s.rank ∧ ∃ channel < s.element.channels,
      index = n.indices 0 s.rank ++ (s.channelIndex channel).map Expr.count
  else (∃ count, s.vectorRank ≤ count ∧ n.Counts around count) ∧ index = primitiveIndex n s

/-- The index at which the end of a row is looked for, inside the loop over the row. -/
def Names.IsProbeIndex (n : Names) (s : Shape) (around : List Binding) (index : List Expr) : Prop :=
  ∃ axis < s.vectorRank, n.Counts around (axis + 1) ∧ around.getLast? = some (n.axisBinding axis) ∧
    index = n.indices 0 (axis + 1) ++ zeroIndices (s.tensorRank - axis - 1)

/-- The index of one element of a block, inside the loops over all axes. -/
def Names.IsBlockIndex (n : Names) (s : Shape) (around : List Binding) (index : List Expr) : Prop :=
  n.Counts around s.rank ∧ index = n.indices s.vectorRank s.blockRank

/-- What an expression may be where it stands: an identifier that is declared, an access to the tensor or to a block
at the index of a copy, or a call of one of some methods. -/
def Expr.IsSound (n : Names) (s : Shape) (methods : List String) (around : List Binding) : Expr → Prop
  | .name text => IsIdentifier text → text ∈ around.map Binding.name
  | .call (.name function) index => function = n.dataIn ∨ function = n.dataOut → n.IsCopyIndex s around index
  | .method _ _ called _ => called ∈ methods
  | .element _ _ index _ => n.IsBlockIndex s around index
  | _ => True

/-- The test for the end of a row. -/
def Expr.IsProbe (n : Names) (s : Shape) (around : List Binding) (e : Expr) : Prop :=
  ∃ index, e = .callNamed "std::isnan" [.callNamed n.dataIn index] ∧ n.IsProbeIndex s around index

/-- What a conversion may evaluate. -/
def Site.IsSound (n : Names) (s : Shape) (methods : List String) (site : Site) : Prop :=
  site.expr.Every (Expr.IsSound n s methods site.around) ∨
    n.dataIn ∈ site.around.map Binding.name ∧ site.expr.IsProbe n s site.around

namespace Expr

variable {n : Names} {s : Shape} {methods : List String} {around : List Binding}

/-- A variable that is declared is sound. -/
theorem every_isSound_name {text : String} (h : text ∈ around.map Binding.name) :
    (Expr.name text).Every (IsSound n s methods around) :=
  every_name.mpr fun _ => h

/-- A name that no operand has is sound. -/
theorem every_isSound_of_not_plausible {text : String} (h : isPlausible text.toList = false) :
    (Expr.name text).Every (IsSound n s methods around) :=
  every_name.mpr fun hidentifier => absurd hidentifier.isPlausible (Bool.eq_false_iff.mp h)

/-- A number is sound. -/
theorem every_isSound_count (k : Nat) : (Expr.count k).Every (IsSound n s methods around) := every_int.mpr trivial

/-- A call of a function that no operand has is sound if its arguments are. -/
theorem every_isSound_callNamed {function : String} (h : isPlausible function.toList = false) {args : List Expr}
    (hargs : ∀ e ∈ args, e.Every (IsSound n s methods around)) :
    (Expr.callNamed function args).Every (IsSound n s methods around) := by
  have hne (p : Part) : function ≠ n.part p := by
    rintro rfl
    exact absurd (IsIdentifier.isPlausible ⟨n, p, rfl⟩) (Bool.eq_false_iff.mp h)
  refine every_call.mpr ⟨?_, every_isSound_of_not_plausible h, hargs⟩
  rintro (hdata | hdata)
  · exact absurd hdata (hne .dataIn)
  · exact absurd hdata (hne .dataOut)

/-- The variables of the open loops are sound. -/
theorem every_isSound_indices {first count opened : Nat} (h : n.Counts around opened)
    (hopened : first + count ≤ opened) : ∀ e ∈ n.indices first count, e.Every (IsSound n s methods around) := by
  intro e he
  obtain ⟨axis, haxis, rfl⟩ := List.mem_map.mp he
  have hlt := List.mem_range'_1.mp haxis
  exact every_isSound_name (h.mem_names (by omega))

/-- The indices of first elements are sound. -/
theorem every_isSound_zeroIndices (count : Nat) : ∀ e ∈ zeroIndices count, e.Every (IsSound n s methods around) :=
  every_replicate_count trivial

/-- The declared sizes of some axes are sound. -/
theorem every_isSound_sizes {first count : Nat}
    (h : ∀ axis < first + count, n.size axis ∈ around.map Binding.name) :
    ∀ e ∈ n.sizes first count, e.Every (IsSound n s methods around) := by
  intro e he
  obtain ⟨axis, haxis, rfl⟩ := List.mem_map.mp he
  exact every_isSound_name (h axis (List.mem_range'_1.mp haxis).2)

/-- An access to the tensor at the index of a copy is sound. -/
theorem every_isSound_datum {data : String} {index : List Expr} (hdata : data ∈ around.map Binding.name)
    (hindex : n.IsCopyIndex s around index) (hparts : ∀ e ∈ index, e.Every (IsSound n s methods around)) :
    (Expr.callNamed data index).Every (IsSound n s methods around) :=
  every_call.mpr ⟨fun _ => hindex, every_isSound_name hdata, hparts⟩

end Expr

/-- An expression that calls no methods but the given ones. -/
def Expr.CallsOnly (methods : List String) : Expr → Prop
  | .method _ _ called _ => called ∈ methods
  | _ => True

/-- A condition that follows from soundness, and that no name, number or call violates, holds for what a conversion
evaluates. -/
theorem Site.IsSound.every {n : Names} {s : Shape} {methods : List String} {site : Site}
    (h : site.IsSound n s methods) {P : Expr → Prop} (hsound : ∀ e, e.IsSound n s methods site.around → P e)
    (hname : ∀ text, P (.name text)) (hint : ∀ value, P (.int value))
    (hcall : ∀ function args, P (.call function args)) : site.expr.Every P := by
  rcases h with h | ⟨_, index, hprobe, axis, _, _, _, rfl⟩
  · exact h.imp hsound
  · have hindex : ∀ e ∈ n.indices 0 (axis + 1) ++ zeroIndices (s.tensorRank - axis - 1), e.Every P :=
      List.forall_mem_append.mpr
        ⟨List.forall_mem_map.mpr fun _ _ => Expr.every_name.mpr (hname _), Expr.every_replicate_count (hint _)⟩
    rw [hprobe]
    refine Expr.every_call.mpr ⟨hcall _ _, Expr.every_name.mpr (hname _), List.forall_mem_singleton.mpr ?_⟩
    exact Expr.every_call.mpr ⟨hcall _ _, Expr.every_name.mpr (hname _), hindex⟩

/-- What a conversion evaluates calls the given methods only. -/
theorem Site.IsSound.callsOnly {n : Names} {s : Shape} {methods : List String} {site : Site}
    (h : site.IsSound n s methods) : site.expr.Every (Expr.CallsOnly methods) := by
  refine h.every (fun e he => ?_) (fun _ => trivial) (fun _ => trivial) fun _ _ => trivial
  cases e <;> first | exact he | trivial

/-- Every identifier of an operand that an expression names is declared where the expression stands. -/
def Site.IsResolved (site : Site) : Prop :=
  ∀ text, Expr.name text ∈ site.expr.parts → IsIdentifier text → text ∈ site.around.map Binding.name

/-- Resolved statements are resolved where more is declared. -/
theorem EverySite.isResolved_of_subset {around around' : List Binding} {stmts : List Stmt}
    (h : EverySite Site.IsResolved around stmts)
    (hsubset : around.map Binding.name ⊆ around'.map Binding.name) : EverySite Site.IsResolved around' stmts := by
  refine h.transfer ?_
  intro more e hresolved text htext hidentifier
  have hmem := hresolved text htext hidentifier
  rw [List.map_append, List.mem_append] at hmem ⊢
  exact hmem.imp_left fun hmem => hsubset hmem

/-- What a conversion evaluates is resolved. -/
theorem Site.IsSound.isResolved {n : Names} {s : Shape} {methods : List String} {site : Site}
    (h : site.IsSound n s methods) : site.IsResolved := by
  intro text htext hidentifier
  rcases h with h | ⟨hdata, index, hprobe, axis, _, hcounts, _, rfl⟩
  · exact h _ htext hidentifier
  · -- The access in the test for the end of a row is no copy, so its names are looked at one by one.
    have hindex : ∀ e ∈ n.indices 0 (axis + 1) ++ zeroIndices (s.tensorRank - axis - 1),
        e.Every (Expr.IsSound n s methods site.around) :=
      List.forall_mem_append.mpr
        ⟨Expr.every_isSound_indices hcounts (by omega), Expr.every_isSound_zeroIndices _⟩
    rw [hprobe] at htext
    simp only [Expr.callNamed, Expr.parts, Expr.allParts, List.append_nil, List.mem_cons, List.mem_append,
      reduceCtorEq, Expr.name.injEq, List.not_mem_nil, or_false, false_or] at htext
    rcases htext with rfl | rfl | htext
    · exact absurd hidentifier.isPlausible (by decide)
    · exact hdata
    · exact Expr.forall_mem_allParts.mpr hindex _ htext hidentifier

/-! ## Statements of the conversions -/

namespace Conversion

/-- The methods of values that conversions call. -/
def valueMethods : List String := ["size", "empty", "emplace_back", "push_back"]

section Statements

variable {n : Names} {s : Shape} {around : List Binding}

/-- Everything that some statements evaluate is sound. -/
abbrev AllSound (n : Names) (s : Shape) (around : List Binding) (stmts : List Stmt) : Prop :=
  EverySite (Site.IsSound n s valueMethods) around stmts

/-- The value at the loop variables of its layers is sound. -/
theorem isSound_layer {methods : List String} {index : List Expr} (hvalue : n.value ∈ around.map Binding.name)
    (hindex : ∀ e ∈ index, e.Every (Expr.IsSound n s methods around)) :
    ((Expr.name n.value).subscripts index).Every (Expr.IsSound n s methods around) :=
  Expr.every_subscripts (fun _ _ => trivial) (Expr.every_isSound_name hvalue) hindex

/-- The two sides of the copy of an element are sound inside the loops over all axes. -/
theorem isSound_elementPairs {methods : List String} {block : Expr} {data : String} (hmatrix : s.hasBlock = true)
    (hcounts : n.Counts around s.rank) (hblock : block.Every (Expr.IsSound n s methods around))
    (hdata : data ∈ around.map Binding.name) :
    ∀ pair ∈ elementPairs n s block data, pair.1.Every (Expr.IsSound n s methods around) ∧
      pair.2.Every (Expr.IsSound n s methods around) := by
  rw [elementPairs_eq, List.forall_mem_map]
  intro channel hchannel
  rw [List.mem_range] at hchannel
  have helement : (Expr.element block s.element.container (n.indices s.vectorRank s.blockRank) s.element.valueType).Every
      (Expr.IsSound n s methods around) :=
    Expr.every_element.mpr ⟨⟨hcounts, rfl⟩, hblock, Expr.every_isSound_indices hcounts (Nat.le_refl _)⟩
  constructor
  · unfold elementExpr
    dsimp only
    split
    · exact helement
    · exact Expr.every_subscript.mpr ⟨trivial, helement, Expr.every_isSound_count channel⟩
  · apply Expr.every_isSound_datum hdata
    · rw [Names.IsCopyIndex, if_pos hmatrix]
      exact ⟨hcounts, channel, hchannel, rfl⟩
    · rw [List.forall_mem_append, List.forall_mem_map]
      exact ⟨Expr.every_isSound_indices hcounts (by omega), fun c _ => Expr.every_isSound_count c⟩

/-- The index of a primitive value is that of a copy. -/
theorem isSound_primitiveDatum {methods : List String} {data : String} (hprimitive : s.hasBlock = false) {count : Nat}
    (hcounts : n.Counts around count) (hcount : s.vectorRank ≤ count) (hdata : data ∈ around.map Binding.name) :
    (Expr.callNamed data (primitiveIndex n s)).Every (Expr.IsSound n s methods around) := by
  apply Expr.every_isSound_datum hdata
  · rw [Names.IsCopyIndex, if_neg (by simp [hprimitive])]
    exact ⟨⟨count, hcount, hcounts⟩, rfl⟩
  · unfold primitiveIndex
    split
    · exact List.forall_mem_singleton.mpr (Expr.every_isSound_count 0)
    · exact Expr.every_isSound_indices hcounts (by omega)

/-- The bound of a loop is sound if the size of the axis is declared. -/
theorem isSound_sizeOf {methods : List String} {axis : Nat} (h : n.size axis ∈ around.map Binding.name) :
    Site.IsSound n s methods ⟨around, n.sizeOf axis⟩ :=
  .inl (Expr.every_isSound_name h)

/-- The declaration of the size of an axis is sound if what it reads is. -/
theorem holdsAt_declareSize {methods : List String} {axis : Nat} {extent : Expr}
    (h : extent.Every (Expr.IsSound n s methods around)) :
    (n.declareSize axis extent).HoldsAt (Site.IsSound n s methods) around := by
  rw [Names.declareSize, Stmt.constant, Stmt.holdsAt_declare]
  refine ⟨List.forall_mem_nil _, ?_⟩
  rintro e ⟨⟩
  exact .inl (Expr.every_isSound_callNamed (by decide) (List.forall_mem_singleton.mpr h))

/-- A requirement is sound if its condition and its report are. -/
theorem holdsAt_requireThat {methods : List String} {condition report : Expr}
    (hcondition : condition.Every (Expr.IsSound n s methods around))
    (hreport : report.Every (Expr.IsSound n s methods around)) :
    (requireThat condition report).HoldsAt (Site.IsSound n s methods) around := by
  refine Stmt.holdsAt_eval.mpr (.inl (Expr.every_isSound_callNamed (by decide) ?_))
  simp only [List.forall_mem_cons]
  exact ⟨Expr.every_isSound_of_not_plausible (by decide), hcondition, hreport, List.forall_mem_nil _⟩

/-- A report is sound if the texts in it are. -/
theorem isSound_invalidArgument {methods : List String} {message : String} {details : List Expr}
    (hdetails : ∀ e ∈ details, e.Every (Expr.IsSound n s methods around)) :
    (invalidArgument message details).Every (Expr.IsSound n s methods around) :=
  Expr.every_isSound_callNamed (by decide) (List.forall_mem_cons.mpr ⟨Expr.every_string.mpr trivial, hdetails⟩)

end Statements

end Conversion

end TensorBridge
