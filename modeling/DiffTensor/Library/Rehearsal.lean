import DiffTensor.Library.Call

/-!
# Rehearsing failures

`Library.rehearsed` stands in front of another library. It passes calls on, counts the
objects that it has handed out and not got back, and fails when it is told to: a `Fault`
names an entry point, and the next call through it does not reach the library behind, or
is reported with another status than it had.

While the last call met a fault, the last error is the fault's text. Reseeding, releases
and the reading of the last error always pass.
-/

namespace DiffTensor

/-- A failure that has been ordered. -/
structure Fault where
  /-- The entry point that is to fail, if there is one of that name. -/
  entry : Option Entry
  /-- The status that is reported. -/
  status : Option Status
  /-- Is an object that the call makes made all the same? -/
  carriedOut : Bool
  /-- The answer to a query. -/
  number : Nat
  /-- The text that the last error is to have. -/
  message : List UInt8
  /-- How many calls pass before the one that fails. -/
  skip : Nat
  deriving DecidableEq, Repr

/-- How many objects of each kind are held by callers. -/
structure Census where
  tensors : Nat := 0
  layers : Nat := 0
  optimizers : Nat := 0
  deriving DecidableEq, Repr

namespace Census

def count (c : Census) : ResourceKind → Nat
  | .tensor => c.tensors
  | .layer => c.layers
  | .optimizer => c.optimizers

def add (c : Census) : ResourceKind → Census
  | .tensor => { c with tensors := c.tensors + 1 }
  | .layer => { c with layers := c.layers + 1 }
  | .optimizer => { c with optimizers := c.optimizers + 1 }

def remove (c : Census) : ResourceKind → Census
  | .tensor => { c with tensors := c.tensors - 1 }
  | .layer => { c with layers := c.layers - 1 }
  | .optimizer => { c with optimizers := c.optimizers - 1 }

end Census

/-- The state of a rehearsing library, around the state of the library behind it. -/
structure Rehearsal (W : Type) where
  inner : W
  faults : List Fault := []
  injected : Option (List UInt8) := none
  census : Census := {}

variable {α W : Type}

/-- Finds the first fault of an entry point. It is taken off the list, unless calls are to pass
before it: then it is one call nearer. -/
def Fault.take (entry : Entry) : List Fault → Option Fault × List Fault
  | [] => (none, [])
  | f :: faults =>
    if f.entry = some entry then
      if 0 < f.skip then (none, { f with skip := f.skip - 1 } :: faults) else (some f, faults)
    else
      let (found, rest) := take entry faults
      (found, f :: rest)

/-- The reply to a call that is not carried out. A flag is the answer's lower 32 bits. -/
def Fault.reply (f : Fault) : (c : Call α) → c.Reply
  | .seed _ => ()
  | .release _ _ => ()
  | .lastError _ => ⟨0, []⟩
  | .create _ hasStatus => ⟨if hasStatus then f.status else none, none⟩
  | .command _ => f.status.getD .success
  | .query (.tracked _) => f.number % 0x100000000
  | .query _ => f.number
  | .shape .. => ⟨f.status.getD .success, []⟩
  | .copyData .. => ⟨f.status.getD .success, []⟩
  | .parameters .. => ⟨f.status.getD .success, []⟩
  | .gradient _ => none

namespace Rehearsal

/-- Passes a call on, and counts what it hands out. -/
def passOn (inner : Library α W) (c : Call α) (r : Rehearsal W) :
    c.Reply × Rehearsal W × List Event :=
  let (reply, world, events) := inner.answer c r.inner
  let census := (c.handedOut reply).foldl (fun census object => census.add object.1) r.census
  (reply, { r with inner := world, census }, events)

/-- Lets a call fail. -/
def apply (inner : Library α W) (f : Fault) (c : Call α) (r : Rehearsal W) :
    c.Reply × Rehearsal W × List Event :=
  match c with
  | .create body hasStatus =>
    if f.carriedOut then
      let (made, r, events) := r.passOn inner (.create body hasStatus)
      (⟨if hasStatus then f.status <|> made.status else none, made.handle⟩, r, events)
    else (f.reply (.create body hasStatus), r, [])
  | c => (f.reply c, r, [])

/-- Passes a call on or lets it fail, as the ordered faults say. -/
def obey (inner : Library α W) (c : Call α) (r : Rehearsal W) :
    c.Reply × Rehearsal W × List Event :=
  let (fault, faults) := Fault.take c.entry r.faults
  let r := { r with faults, injected := fault.map Fault.message }
  match fault with
  | none => r.passOn inner c
  | some f => r.apply inner f c

/-- Answers a call. -/
def answer (inner : Library α W) (c : Call α) (r : Rehearsal W) :
    c.Reply × Rehearsal W × List Event :=
  match c with
  | .seed value => r.passOn inner (.seed value)
  | .lastError buffer =>
    match r.injected with
    | some text => (.ofText text buffer, r, [])
    | none => r.passOn inner (.lastError buffer)
  | .release kind handle =>
    let (reply, r, events) := r.passOn inner (.release kind handle)
    (reply, if handle.isSome then { r with census := r.census.remove kind } else r, events)
  | c => r.obey inner c

end Rehearsal

/-- A library in front of `inner` that fails as it is told to. -/
def Library.rehearsed (inner : Library α W) : Library α (Rehearsal W) := ⟨Rehearsal.answer inner⟩

/-- The library behind a rehearsing one, reached directly. -/
def Library.direct (inner : Library α W) : Library α (Rehearsal W) where
  answer c r :=
    let (reply, world, events) := inner.answer c r.inner
    (reply, { r with inner := world }, events)

end DiffTensor
