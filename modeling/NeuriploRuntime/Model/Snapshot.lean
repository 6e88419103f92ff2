import NeuriploRuntime.Model.State
import NeuriploRuntime.Tensor.Metadata

open neuriplo.tensor

namespace neuriplo.model

/-- `InferSnapshot`: what inference and the index see of a model, published behind
the slot's back and immutable once published. What is known of its scheduler
depends on who looks at it. -/
structure Snapshot (Scheduler : Type) where
  name : String := ""
  versions : List String := []
  state : ModelState := .unloaded
  metadata : ModelMetadata := {}
  scheduler : Option Scheduler := none
  load_error : Option String := none
deriving DecidableEq, Repr

end neuriplo.model
