import DiffTensor.Text.Brackets

/-!
# The log

What host and library do is reported as a list of events, oldest first. Each event has a
level and a text; in the text a handle is only shown to be one.
-/

namespace DiffTensor

/-- A handle: the name under which a library keeps an object for its callers (`RawHandle`). -/
abbrev Handle := Nat

/-- The kinds of objects behind handles. -/
inductive ResourceKind where
  | tensor
  | layer
  | optimizer
  deriving DecidableEq, Repr

/-- The name of a kind in messages. -/
def ResourceKind.name : ResourceKind → String
  | tensor => "tensor"
  | layer => "layer"
  | optimizer => "optimizer"

/-- The kinds of optimizers. -/
inductive OptimizerKind where
  | adam
  | sgd
  deriving DecidableEq, Repr

/-- The name of a kind in messages. -/
def OptimizerKind.name : OptimizerKind → String
  | adam => "adam"
  | sgd => "sgd"

/-- How much an event matters. -/
inductive Level where
  | trace
  | debug
  | warn
  deriving DecidableEq, Repr

namespace Level

def name : Level → String
  | trace => "TRACE"
  | debug => "DEBUG"
  | warn => "WARN"

def weight : Level → Nat
  | trace => 0
  | debug => 1
  | warn => 2

/-- Does an event of this level pass a threshold? -/
def passes (level threshold : Level) : Bool := threshold.weight ≤ level.weight

end Level

/-- Something that is reported. -/
inductive Event where
  /-- The host took over a handle. -/
  | acquired (kind : ResourceKind) (handle : Handle)
  /-- The host gave a handle back on request. -/
  | released (kind : ResourceKind) (handle : Handle)
  /-- The host gave a handle back because its owner went away. -/
  | leaked (kind : ResourceKind) (handle : Handle)
  | differentiating (shape : List Int)
  | optimizerMade (kind : OptimizerKind) (parameters : Nat)
  | optimizerStep (kind : OptimizerKind) (parameters : Nat)
  /-- The library goes through so many nodes. -/
  | sweeping (nodes : Nat)
  /-- The library refused a call. -/
  | callFailed (message : String)
  deriving DecidableEq, Repr

namespace Event

def level : Event → Level
  | acquired .. | released .. | sweeping .. => .trace
  | differentiating .. | optimizerMade .. | optimizerStep .. | callFailed .. => .debug
  | leaked .. => .warn

/-- What stands for a handle. -/
def maskedHandle : String := "0x*"

def text : Event → String
  | acquired kind _ => "acquired " ++ kind.name ++ " handle " ++ maskedHandle
  | released kind _ => "released " ++ kind.name ++ " handle " ++ maskedHandle
  | leaked kind _ =>
    kind.name ++ " handle " ++ maskedHandle ++ " was never destroyed; releasing it on drop"
  | differentiating shape => "backward from tensor of shape " ++ Text.integers shape
  | optimizerMade kind parameters =>
    "created " ++ kind.name ++ " optimizer over " ++ parameters.repr ++ " parameters"
  | optimizerStep kind parameters =>
    kind.name ++ " step over " ++ parameters.repr ++ " parameters"
  | sweeping nodes => "backward over " ++ nodes.repr ++ " nodes"
  | callFailed message => "native call failed: " ++ message

/-- The level and the text. -/
def line (e : Event) : String := e.level.name ++ " " ++ e.text

end Event

end DiffTensor
