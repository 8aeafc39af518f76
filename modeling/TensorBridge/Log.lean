import TensorBridge.Error
import TensorBridge.Text.Bytes
import TensorBridge.Text.Uppercase

/-!
# The log

Computations leave records beside their result, and the records stay when the computation fails. Which
records are written is decided afterwards by a threshold: a number, of which zero stands for the
default. The threshold is set by the name of a level in any letter case; an unknown name means the
default.
-/

namespace TensorBridge

/-- Levels of importance. -/
inductive Level
  | debug
  | info
  | warning
  | error
  | critical
deriving DecidableEq, Repr

namespace Level

/-- The levels in increasing order. -/
def all : List Level := [.debug, .info, .warning, .error, .critical]

/-- The name of a level. -/
def name : Level → String
  | .debug => "DEBUG"
  | .info => "INFO"
  | .warning => "WARNING"
  | .error => "ERROR"
  | .critical => "CRITICAL"

/-- The rank of a level. -/
def rank : Level → Nat
  | .debug => 10
  | .info => 20
  | .warning => 30
  | .error => 40
  | .critical => 50

end Level

/-- The part of the library that a record comes from. -/
inductive Source
  | shapes
  | conversions
  | kernels
deriving DecidableEq, Repr

/-- The name under which a part of the library logs. -/
def Source.name : Source → String
  | .shapes => "tfcv_opgen.shape.classifier"
  | .conversions => "tfcv_opgen.codegen.loops"
  | .kernels => "tfcv_opgen.kernel_helper.scaffold"

/-- One record of the log. -/
structure Record where
  level : Level
  source : Source
  message : String
deriving DecidableEq, Repr

/-- A record as a line of the log, with its line break. -/
def Record.line (r : Record) : String :=
  "[tfcv-opgen] " ++ r.level.name ++ " " ++ r.source.name ++ ": " ++ r.message ++ "\n"

/-! ## Thresholds -/

/-- The least rank of the records that are written; zero leaves the choice to the default. -/
abbrev Threshold : Type := Nat

/-- The default threshold. -/
def defaultThreshold : Threshold := Level.warning.rank

/-- The names of thresholds: the levels, two other names of levels, and the name for no choice. -/
def thresholdNames : List (String × Threshold) :=
  Level.all.map (fun level => (level.name, level.rank)) ++
    [("WARN", Level.warning.rank), ("FATAL", Level.critical.rank), ("NOTSET", 0)]

/-- The threshold of a name in any letter case. Two names are taken by settings of the log's format and
are refused; any other unknown name means the default. -/
def thresholdNamed (name : String) : Except Error Threshold :=
  let capitals := capitalized name
  match thresholdNames.lookup capitals with
  | some threshold => .ok threshold
  | none =>
    if capitals = "BASIC_FORMAT" then .error (.fault .unknownLevel)
    else if capitals = "_STYLES" then .error (.fault .levelNotAName)
    else .ok defaultThreshold

/-- The threshold of a setting: of the given name or else of the environment's, which is held as bytes
and may stand between blanks. -/
def thresholdOf (given environment : Option String) : Except Error Threshold :=
  match given with
  | some name => thresholdNamed name
  | none => thresholdNamed (trim (byteText (environment.getD "")))

/-- Whether records of a level are written. -/
def Level.passes (level : Level) (threshold : Threshold) : Bool :=
  (if threshold = 0 then defaultThreshold else threshold) ≤ level.rank

/-- What is written of some records. -/
def logText (threshold : Threshold) (records : List Record) : String :=
  String.join ((records.filter (·.level.passes threshold)).map Record.line)

/-! ## Computations that log -/

/-- A computation that may fail, with the records that it left up to its end. -/
structure Traced (α : Type) where
  records : List Record
  outcome : Except Error α

namespace Traced

/-- One computation after the other; the second runs only if the first has a result. -/
protected def bind {α β : Type} (first : Traced α) (next : α → Traced β) : Traced β :=
  match first.outcome with
  | .error e => ⟨first.records, .error e⟩
  | .ok a => ⟨first.records ++ (next a).records, (next a).outcome⟩

instance : Monad Traced where
  pure a := ⟨[], .ok a⟩
  bind := Traced.bind

/-- A computation that leaves no records. -/
def ofExcept {α : Type} (outcome : Except Error α) : Traced α :=
  ⟨[], outcome⟩

/-- Leaves records. -/
def record (records : List Record) : Traced Unit :=
  ⟨records, .ok ()⟩

/-- The computations of a list one after the other. -/
def forEach {α β : Type} (f : α → Traced β) : List α → Traced (List β)
  | [] => pure []
  | a :: rest => do
    let b ← f a
    let bs ← forEach f rest
    return b :: bs

@[simp] theorem outcome_pure {α : Type} (a : α) : (pure a : Traced α).outcome = .ok a := rfl

@[simp] theorem records_pure {α : Type} (a : α) : (pure a : Traced α).records = [] := rfl

/-- The outcome of two computations in a row: that of the second, if the first has a result. -/
theorem outcome_bind {α β : Type} (first : Traced α) (next : α → Traced β) :
    (first >>= next).outcome = first.outcome.bind fun a => (next a).outcome := by
  show (Traced.bind first next).outcome = _
  unfold Traced.bind
  cases first.outcome <;> rfl

/-- Two computations in a row of which the first has a result. -/
theorem bind_of_ok {α β : Type} {first : Traced α} {a : α} (h : first.outcome = .ok a) (next : α → Traced β) :
    first >>= next = ⟨first.records ++ (next a).records, (next a).outcome⟩ := by
  show Traced.bind first next = _
  unfold Traced.bind
  rw [h]

/-- Two computations in a row of which the first fails. -/
theorem bind_of_error {α β : Type} {first : Traced α} {e : Error} (h : first.outcome = .error e)
    (next : α → Traced β) : first >>= next = ⟨first.records, .error e⟩ := by
  show Traced.bind first next = _
  unfold Traced.bind
  rw [h]

end Traced

end TensorBridge
