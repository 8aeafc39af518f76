import TensorBridge.Text.Words

/-!
# Loader modules

A compiled library of operators is used through a loader: a module that loads the library and binds each
operator to the name under which the library shows it, which is the operator's name in snake case.
-/

namespace TensorBridge

/-- The line that binds one operator. -/
def loaderBinding (operator : String) : String :=
  let name := snakeCase operator
  name ++ " = _op_module." ++ name

/-- The text of the loader of some operators of a library. -/
def loaderText (operators : List String) (library : String) : String :=
  unlines [
    "# This file was generated automatically, please don't modify it unless you know what you are doing.",
    "import os.path",
    "",
    "import tensorflow as tf",
    "",
    "_op_module = tf.load_op_library(os.path.join(",
    "    tf.compat.v1.resource_loader.get_data_files_path(), '" ++ library ++ "'",
    "))",
    "",
    unlines (operators.map loaderBinding),
    ""]

end TensorBridge
