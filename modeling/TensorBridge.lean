import TensorBridge.Main
import TensorBridge.Proofs.Command.LastKernels
import TensorBridge.Proofs.Conversion.EmptyLayers
import TensorBridge.Proofs.Conversion.FromTensor
import TensorBridge.Proofs.Conversion.IntoTensor
import TensorBridge.Proofs.Conversion.Probes
import TensorBridge.Proofs.Cpp.Indentation
import TensorBridge.Proofs.Cpp.StringLiterals
import TensorBridge.Proofs.Kernel.AttributeLines
import TensorBridge.Proofs.Kernel.Brackets
import TensorBridge.Proofs.Kernel.Clashes
import TensorBridge.Proofs.Kernel.EmptyOutputs
import TensorBridge.Proofs.Kernel.FixedBlocks
import TensorBridge.Proofs.Kernel.Positions
import TensorBridge.Proofs.Kernel.Ranks
import TensorBridge.Proofs.Kernel.RegisteredNames
import TensorBridge.Proofs.Kernel.Rendering
import TensorBridge.Proofs.Kernel.Scopes
import TensorBridge.Proofs.Kernel.Warnings
import TensorBridge.Proofs.Operator.Files
import TensorBridge.Proofs.Operator.Reading
import TensorBridge.Proofs.Operator.RoundTrip
import TensorBridge.Proofs.Operator.StableName
import TensorBridge.Proofs.Shape.Layout
import TensorBridge.Proofs.Shape.Printed
import TensorBridge.Proofs.Text.Runs
