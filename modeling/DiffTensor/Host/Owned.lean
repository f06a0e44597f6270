import DiffTensor.Host.Action

/-!
# Owning a handle

Everything that the host wraps owns one handle of one library. The handle is given back
once: on request (`release`), after which the owner holds nothing and every use of it is
refused without a call, or when the owner goes away while it still holds the handle
(`discard`), which is reported as a leak. Each handle that is taken over is reported too.
-/

namespace DiffTensor.Host

/-- The owner of a handle; it holds nothing once it has been released (`OwnedHandle`). -/
structure Owned where
  kind : ResourceKind
  library : LibraryId
  held : Option Handle
  deriving DecidableEq, Repr

namespace Owned

variable {α W β : Type}

def isReleased (o : Owned) : Bool := o.held.isNone

/-- The handle, while it is held (`get`). -/
def handle (o : Owned) : Except HostError Handle :=
  match o.held with
  | some h => .ok h
  | none => .error (.released o.kind)

/-- Takes a handle over (`new`). -/
def acquire (kind : ResourceKind) (library : LibraryId) (h : Handle) : Action W Owned := do
  Action.report (.acquired kind h)
  return ⟨kind, library, some h⟩

/-- Gives the handle back on request. -/
def release (libs : Libraries α W) (o : Owned) : Action W Owned := do
  let h ← Action.check o.handle
  Action.report (.released o.kind h)
  Action.call (libs o.library) (.release o.kind (some h))
  return { o with held := none }

/-- Gives the handle back if the owner goes away while holding it (`drop`). -/
def discard (libs : Libraries α W) (o : Owned) : Action W Unit :=
  match o.held with
  | none => pure ()
  | some h => do
    Action.report (.leaked o.kind h)
    Action.call (libs o.library) (.release o.kind (some h))

/-- Goes on with an action on behalf of an owner. If it is refused the handle is given back, and
if it crashes the owner goes away. -/
def whileHolding (libs : Libraries α W) (o : Owned) (action : Action W β) : Action W β := do
  match ← action.attempt with
  | .ok x => return x
  | .error (.refused cause) =>
    let _ ← o.release libs
    Action.refuse cause
  | .error (.crashed cause) =>
    o.discard libs
    Action.crash cause

end Owned

/-- Refuses objects of different libraries (`same_library`). -/
def sameLibrary (operation : String) (a b : Owned) : Except HostError Unit :=
  if a.library = b.library then .ok ()
  else .error (.configuration (.differentLibraries operation))

end DiffTensor.Host
