import TensorBridge.Conversion.ToTensor
import TensorBridge.Conversion.ToValue

/-!
# Building conversions

The conversion of an operand in either direction, with its records: those that the loops over the layers
leave, in the order of the axes, and a note of what was built.
-/

namespace TensorBridge

namespace Conversion

/-- The conversion of an operand in a direction. -/
def of (name : String) (s : Shape) : Direction → Conversion
  | .toValue => toValue ⟨name⟩ s
  | .toTensor => toTensor ⟨name⟩ s

/-- The records that the loops of a conversion leave. -/
def loopRecords (name : String) (s : Shape) : Direction → List Record
  | .toValue => (layers ⟨name⟩ s).flatMap LayerLoop.records
  | .toTensor => []

/-- The note of a conversion. -/
def builtRecord (name : String) (s : Shape) (direction : Direction) : Record :=
  { level := .debug
    source := .conversions
    message :=
      "synthesized " ++ direction.name ++ " conversion for " ++ name ++ " (" ++ s.kind.name ++ ", " ++
        toString s.rank ++ " loops deep)" }

/-- Builds a conversion and leaves its records. -/
def build (name : String) (s : Shape) (direction : Direction) : Traced Conversion := do
  Traced.record (loopRecords name s direction ++ [builtRecord name s direction])
  return of name s direction

end Conversion

end TensorBridge
