import DiffTensor.Library.Call
import DiffTensor.Text.Utf8

/-!
# Making calls

Callers of a library run in an environment that holds the world of the libraries and the
log. A computation of type `Calling W β` makes calls one after the other; what they report
is appended to the log.
-/

namespace DiffTensor

/-- Tells libraries apart. -/
abbrev LibraryId := Nat

/-- Several libraries over one world. -/
abbrev Libraries (α W : Type) := LibraryId → Library α W

/-- What calls are made in: the world of the libraries, and the log, oldest event first. -/
structure Env (W : Type) where
  world : W
  log : List Event := []

/-- A computation that makes calls. -/
abbrev Calling (W β : Type) := StateM (Env W) β

variable {α W : Type}

/-- Makes a call. -/
def Library.call (library : Library α W) (c : Call α) : Calling W c.Reply := fun env =>
  let (reply, world, events) := library.answer c env.world
  (reply, ⟨world, env.log ++ events⟩)

/-- Reports an event. -/
def Env.report (e : Event) : Calling W Unit := fun env => ((), { env with log := env.log ++ [e] })

/-- Reads the last error: first its length, then, if there is a text, the text
(`last_error_message`). -/
def Library.errorText (library : Library α W) : Calling W String := do
  let full := (← library.call (.lastError none)).length
  if full = 0 then return ""
  else
    let copied ← library.call (.lastError (some (List.replicate (full + 1) 0)))
    return Text.Utf8.decode (copied.buffer.take (min copied.length full))

end DiffTensor
