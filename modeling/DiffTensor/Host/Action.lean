import DiffTensor.Host.Error
import DiffTensor.Library.Calling

/-!
# Operations of the host

An operation of the host makes calls and either comes to a result or fails; what it has
done before it failed stays done. `attempt` takes a failure as a result, so that what is
held can be given back before the failure goes on.

A `CallSite` says for which operation, on which shapes, a call is made. `statusError` sorts
a failed call by its status, and is where the library's text is read.
-/

namespace DiffTensor

/-- An operation of the host. -/
abbrev Action (W β : Type) := ExceptT HostFailure (StateM (Env W)) β

/-- The operation that a call belongs to, and the shapes of its operands. -/
structure CallSite where
  operation : String
  left : List Int := []
  right : List Int := []
  deriving DecidableEq, Repr

variable {α W β : Type}

namespace Action

/-- Refuses. -/
def refuse (cause : HostError) : Action W β := throw (.refused cause)

/-- Crashes. -/
def crash (cause : Crash) : Action W β := throw (.crashed cause)

/-- A check that makes no calls. -/
def check : Except HostError β → Action W β
  | .ok x => pure x
  | .error cause => refuse cause

/-- Takes a failure as a result. -/
def attempt (action : Action W β) : Action W (Except HostFailure β) := fun env =>
  let (result, env) := action env
  (.ok result, env)

/-- Reports an event. -/
def report (e : Event) : Action W Unit := liftM (m := Calling W) (Env.report e)

/-- Makes a call. -/
def call (library : Library α W) (c : Call α) : Action W c.Reply :=
  liftM (m := Calling W) (library.call c)

/-- Reads the last error. -/
def errorText (library : Library α W) : Action W String :=
  liftM (m := Calling W) library.errorText

/-- Refuses for a status other than success (`status_error`). -/
def statusError (library : Library α W) (site : CallSite) (status : Status) : Action W β := do
  let text ← errorText library
  if status = .shapeMismatch then refuse (.shapeMismatch site.operation site.left site.right)
  else if status = .unsupportedRank then
    refuse (.unsupportedRank site.operation (max site.left.length site.right.length))
  else if status = .autograd then refuse (.autograd text)
  else refuse (.library site.operation status text)

/-- Goes on only if the status is success (`check`). -/
def checkStatus (library : Library α W) (site : CallSite) (status : Status) : Action W Unit :=
  if status = .success then pure () else statusError library site status

/-- Makes an object (`call_ctor`). A status that the library does not write counts as an internal
failure. -/
def create (library : Library α W) (site : CallSite) (c : Creation α Handle) :
    Action W Handle := do
  let made ← call library (.create c true)
  checkStatus library site (made.status.getD .internal)
  match made.handle with
  | some h => pure h
  | none =>
    refuse (.library site.operation .internal "native library returned a null handle")

/-- Makes room for so many items. -/
def reserve (length : Nat) : Action W Unit :=
  if length < Extent.allocationLimit then pure () else crash .capacity

end Action

end DiffTensor
