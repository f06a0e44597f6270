import DiffTensor.Library.Call

/-!
# How a host operation can fail

The host refuses an operation with a `HostError`. Some it finds itself: settings that make
no sense (`Misconfiguration`), shapes that do not go together, a wrapper that has given its
handle back. The others are what a library reported, sorted by status.

An operation of the host can also crash, when a library hands it something that cannot be.
-/

namespace DiffTensor

/-- What is wrong with the settings of an operation (the messages of `Configuration`). -/
inductive Misconfiguration where
  | negativeDim (dims : List Int) (dim : Int)
  | tooManyElements (dims : List Int)
  /-- The learning rate, as it stands in messages, is not a positive number. -/
  | learningRate (text : String)
  /-- A setting, with its value as it stands in messages, is not in `[0, 1)`. -/
  | outsideUnit (setting text : String)
  | negative (setting text : String)
  | layerFeatures (inputs outputs : Nat)
  | layerWeights (inputs outputs : Nat)
  /-- The objects of an operation belong to different libraries. -/
  | differentLibraries (operation : String)
  | noParameters
  /-- A refusal in words of its own. -/
  | stated (text : String)
  deriving DecidableEq, Repr

open Text in
def Misconfiguration.text : Misconfiguration → String
  | negativeDim dims dim => "shape " ++ integers dims ++ " has negative dimension " ++ integer dim
  | tooManyElements dims => "shape " ++ integers dims ++ " has more elements than fit in memory"
  | learningRate text => "learning rate must be positive, got " ++ text
  | outsideUnit setting text => setting ++ " must be in [0, 1), got " ++ text
  | negative setting text => setting ++ " must be non-negative, got " ++ text
  | layerFeatures inputs outputs =>
    "linear layer needs positive feature counts, got " ++ inputs.repr ++ " -> " ++ outputs.repr
  | layerWeights inputs outputs =>
    "linear layer " ++ inputs.repr ++ " -> " ++ outputs.repr ++ " has too many weights"
  | differentLibraries operation =>
    operation ++ ": operands were created by different native libraries"
  | noParameters => "optimizer needs at least one parameter"
  | stated text => text

/-- Why the host refuses an operation (`BridgeError`). -/
inductive HostError where
  | configuration (cause : Misconfiguration)
  | shapeMismatch (operation : String) (left right : List Int)
  | unsupportedRank (operation : String) (rank : Nat)
  /-- The object's handle has been given back. -/
  | released (kind : ResourceKind)
  /-- Differentiation failed; the text is the library's. -/
  | autograd (text : String)
  /-- A library failed in any other way. -/
  | library (operation : String) (status : Status) (text : String)
  deriving DecidableEq, Repr

open Text in
def HostError.message : HostError → String
  | configuration cause => "configuration error: " ++ cause.text
  | shapeMismatch operation left right =>
    "shape mismatch in " ++ operation ++ ": " ++ integers left ++ " vs " ++ integers right
  | unsupportedRank operation rank =>
    operation ++ " does not support tensors of rank " ++ rank.repr
  | released kind => kind.name ++ " used after release"
  | autograd text => "autograd error: " ++ text
  | library operation status text =>
    "native error in " ++ operation ++ " (status " ++ integer status ++ "): " ++ text

/-- Why an operation of the host did not succeed. -/
inductive HostFailure where
  | refused (cause : HostError)
  | crashed (cause : Crash)
  deriving DecidableEq, Repr

end DiffTensor
