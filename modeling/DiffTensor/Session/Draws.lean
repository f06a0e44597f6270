import DiffTensor.Random.Sampler

/-!
# Sessions on the random stream

A list of draws from two streams that start with the same seed: a shared one, which can be
seeded again, and one of the session's own. A draw that crashes takes nothing from its
stream.
-/

namespace DiffTensor.Draws

/-- What is drawn. -/
inductive Draw (α : Type) where
  | word
  | normals (shape : List Nat)
  | uniforms (shape : List Nat) (bound : α)

/-- A draw from the session's own stream or from the shared one, or a new seed for the latter. -/
inductive Step (α : Type) where
  | draw (own : Bool) (what : Draw α)
  | seed (value : UInt64)

/-- The answers to steps. -/
inductive Answer (α : Type) where
  | word (bits : UInt64)
  | buffer (samples : Buffer α)
  | done
  | failed (cause : Failure)

/-- The state of a session. -/
structure State where
  shared : Stream
  own : Stream

/-- A session at its start. -/
def State.ofSeed (seed : UInt64) : State := ⟨.ofSeed seed, .ofSeed seed⟩

variable {α : Type} [Sampler α]

/-- Draws. -/
def Draw.sample (s : Stream) : Draw α → Outcome (Answer α × Stream)
  | word => let (bits, s) := s.next; .ok (.word bits, s)
  | normals shape => do
    let (samples, s) ← Sampler.normals shape s
    return (.buffer samples, s)
  | uniforms shape bound => do
    let (samples, s) ← Sampler.uniforms shape bound s
    return (.buffer samples, s)

/-- The answer to a step, and the state after it. -/
def answer (s : State) : Step α → Answer α × State
  | .draw own what =>
    match what.sample (if own then s.own else s.shared) with
    | .ok (a, stream) => (a, if own then { s with own := stream } else { s with shared := stream })
    | .error cause => (.failed cause, s)
  | .seed value => (.done, { s with shared := .ofSeed value })

/-- The answers to a list of steps. -/
def answers : State → List (Step α) → List (Answer α)
  | _, [] => []
  | s, step :: rest =>
    let (a, s) := answer s step
    a :: answers s rest

end DiffTensor.Draws
