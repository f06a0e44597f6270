import DiffTensor.Library.Engine
import DiffTensor.Text.Utf8

/-!
# The reference library

Answers every call on an `Engine`. Each call but the release of an object, reseeding and
the reading of the last error goes through `settle`: success clears the last error, a
refusal leaves its message there and is reported, a crash leaves a text of its own.

Nothing of a refused or crashed call reaches the caller but its status.
-/

namespace DiffTensor

namespace Engine

variable {α : Type}

/-- Records how a call went, and turns a failure into its status (`guarded`). -/
def settle {β : Type} (result : Outcome β) (e : Engine α) :
    Except Status β × Engine α × List Event :=
  match result with
  | .ok x => (.ok x, { e with lastError := "" }, [])
  | .error (.refused cause) =>
    (.error cause.status, { e with lastError := cause.message }, [.callFailed cause.message])
  | .error (.crashed cause) =>
    (.error Status.internal, { e with lastError := "internal panic: " ++ cause.text }, [])

/-- Settles a call that changes nothing unless it succeeds. -/
def attempt {β : Type} (e : Engine α) (result : Outcome (β × Engine α)) :
    Except Status β × Engine α × List Event :=
  match result with
  | .ok (x, e) => settle (.ok x) e
  | .error cause => settle (.error cause) e

/-- The status of a settled call. -/
def statusOf {β : Type} : Except Status β → Status
  | .ok _ => .success
  | .error status => status

/-- The status of a settled call, with what it wrote. -/
def written {β : Type} : Except Status (List β) → Written β
  | .ok items => ⟨.success, items⟩
  | .error status => ⟨status, []⟩

variable [Scalar α] [Sampler α]

/-- Answers a call that makes an object (`ctor`). -/
def answerCreation (e : Engine α) (c : Creation α Handle) : Created × Engine α × List Event :=
  let (result, e, events) := e.attempt (e.make c)
  match result with
  | .ok h => (⟨some .success, some h⟩, e, events)
  | .error status => (⟨some status, none⟩, e, events)

/-- Answers a command (`status`). -/
def answerCommand (e : Engine α) (c : Command Handle) : Status × Engine α × List Event :=
  let (result, e, before) := e.run c
  let (settled, e, after) := settle result e
  (statusOf settled, e, before ++ after)

/-- Answers a query; a query that fails is answered with zero (`query`). -/
def answerQuery (e : Engine α) (q : Query Handle) : Nat × Engine α × List Event :=
  let (result, e, events) := settle (e.look q) e
  (result.toOption.getD 0, e, events)

/-- Answers a call. -/
def answer (c : Call α) (e : Engine α) : c.Reply × Engine α × List Event :=
  match c with
  | .seed value => ((), { e with stream := .ofSeed value }, [])
  | .lastError buffer => (.ofText (Text.Utf8.encode e.lastError) buffer, e, [])
  | .release _ handle => ((), e.release handle, [])
  | .create _ false => (⟨none, none⟩, e, [])
  | .create c true => e.answerCreation c
  | .command c => e.answerCommand c
  | .query q => e.answerQuery q
  | .shape tensor hasBuffer =>
    let (result, e, events) := settle (e.readDims tensor hasBuffer) e
    (written result, e, events)
  | .copyData tensor hasBuffer length =>
    let (result, e, events) := settle (e.readValues tensor hasBuffer length) e
    (written result, e, events)
  | .parameters layer hasBuffer length =>
    let (result, e, events) := e.attempt (e.exportParameters layer hasBuffer length)
    (written result, e, events)
  | .gradient tensor =>
    let (result, e, events) := e.attempt (e.exportGradient tensor)
    (result.toOption.join, e, events)

end Engine

/-- The reference library. -/
def Library.reference {α : Type} [Scalar α] [Sampler α] : Library α (Engine α) :=
  ⟨Engine.answer⟩

end DiffTensor
