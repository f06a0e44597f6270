import DiffTensor.Host.Rates
import DiffTensor.Host.Tensor

/-!
# Optimizers on the host

A `Host.Optimizer` wraps the handle of an optimizer. Its parameters belong to the caller:
the wrapper only keeps their number, and giving the optimizer back leaves them alone.
-/

namespace DiffTensor.Host

variable {α W : Type}

/-- An optimizer of a library. -/
structure Optimizer (α : Type) where
  owned : Owned
  kind : OptimizerKind
  rate : α
  parameters : Nat
  deriving Repr

namespace Optimizer

def library (o : Optimizer α) : LibraryId := o.owned.library

def isReleased (o : Optimizer α) : Bool := o.owned.isReleased

/-- The handles of the parameters. Each has to be held, and to belong to the given library. -/
def parameterHandles (library : LibraryId) : List Tensor → Except HostError (List Handle)
  | [] => .ok []
  | t :: rest => do
    let h ← t.owned.handle
    if t.library ≠ library then throw (.configuration (.differentLibraries "optimizer"))
    return h :: (← parameterHandles library rest)

/-- The handles of the parameters, of which there has to be one (`collect_params`). -/
def someParameterHandles (library : LibraryId) (params : List Tensor) :
    Except HostError (List Handle) := do
  let handles ← parameterHandles library params
  if handles.isEmpty then throw (.configuration .noParameters)
  return handles

/-- Makes an optimizer and wraps it. -/
def create (libs : Libraries α W) (library : LibraryId) (kind : OptimizerKind) (rate : α)
    (handles : List Handle) (c : Creation α Handle) : Action W (Optimizer α) := do
  let h ← Action.create (libs library) { operation := kind.name } c
  Action.report (.optimizerMade kind handles.length)
  return { owned := ← Owned.acquire .optimizer library h, kind, rate, parameters := handles.length }

variable [Scalar α]

/-- A new Adam optimizer. -/
def adam (libs : Libraries α W) (library : LibraryId) (params : List Tensor)
    (rates : AdamRates α) : Action W (Optimizer α) := do
  Action.check rates.check
  let handles ← Action.check (someParameterHandles library params)
  create libs library .adam rates.rate handles
    (.adam (some (handles.map some)) handles.length rates)

/-- A new optimizer for stochastic gradient descent. -/
def sgd (libs : Libraries α W) (library : LibraryId) (params : List Tensor)
    (rates : SgdRates α) : Action W (Optimizer α) := do
  Action.check rates.check
  let handles ← Action.check (someParameterHandles library params)
  create libs library .sgd rates.rate handles
    (.sgd (some (handles.map some)) handles.length rates)

omit [Scalar α]

/-- One step. -/
def step (libs : Libraries α W) (o : Optimizer α) : Action W Unit := do
  let h ← Action.check o.owned.handle
  Action.report (.optimizerStep o.kind o.parameters)
  let status ← Action.call (libs o.library) (.command (.step (some h)))
  Action.checkStatus (libs o.library) { operation := "step" } status

/-- Clears the gradients of all parameters (`zero_grad`). -/
def clearGradients (libs : Libraries α W) (o : Optimizer α) : Action W Unit := do
  let h ← Action.check o.owned.handle
  let status ← Action.call (libs o.library) (.command (.clearGradients (some h)))
  Action.checkStatus (libs o.library) { operation := "zero_grad" } status

/-- Gives the handle back. -/
def destroy (libs : Libraries α W) (o : Optimizer α) : Action W (Optimizer α) := do
  return { o with owned := ← o.owned.release libs }

end Optimizer

end DiffTensor.Host
