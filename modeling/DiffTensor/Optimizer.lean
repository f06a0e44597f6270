import DiffTensor.Graph.Store

/-!
# Optimizers

An optimizer goes through a fixed list of parameters and moves the value of each
against its gradient. `Adam` keeps two moving averages for each parameter and counts its
steps; `Sgd` keeps a velocity once it has momentum and a gradient has been seen.

A parameter without a gradient is passed over. Parameters are dealt with in order, and
what has been done to earlier ones stays if a later one fails. The two kinds are the variants of
`OptimizerState`, and their steps the two branches of its `step`.
-/

namespace DiffTensor

/-- The settings of Adam (`AdamParams`). -/
structure AdamRates (α : Type) where
  rate : α
  decay1 : α
  decay2 : α
  epsilon : α
  weightDecay : α
  deriving Repr

/-- The settings of stochastic gradient descent (`SgdParams`). -/
structure SgdRates (α : Type) where
  rate : α
  momentum : α
  weightDecay : α
  deriving Repr

/-- The moving averages of one parameter's gradients and of their squares. -/
structure Moments (α : Type) where
  parameter : NodeId
  mean : Buffer α
  square : Buffer α

/-- The velocity of one parameter. -/
structure Velocity (α : Type) where
  parameter : NodeId
  velocity : Option (Buffer α)

structure Adam (α : Type) where
  rates : AdamRates α
  steps : Nat
  moments : List (Moments α)

structure Sgd (α : Type) where
  rates : SgdRates α
  velocities : List (Velocity α)

/-- An optimizer with its state (`OptimizerState`). -/
inductive Optimizer (α : Type) where
  | adam (state : Adam α)
  | sgd (state : Sgd α)

variable {α : Type} [Scalar α]

namespace Store

/-- The gradient of a parameter, with a share of the parameter's value added if weights decay
(`decayed_grad`). Nothing if the parameter has no gradient. -/
def decayedGradient (s : Store α) (n : NodeId) (weightDecay : α) :
    Outcome (Option (Buffer α)) :=
  match s.gradient n with
  | none => .ok none
  | some g =>
    if Scalar.isZero weightDecay then .ok (some (s.value g))
    else do
      return some (← Buffer.zipMap (fun g p => g + weightDecay * p) (s.value g) (s.value n))

end Store

/-- Refuses an empty list of parameters and a learning rate that is not a positive number
(`check_params`). -/
def checkParameters (params : List NodeId) (rate : α) : Outcome Unit :=
  if params.isEmpty then refuse .noParameters
  else if Scalar.finite rate && Scalar.positive rate then .ok ()
  else refuse (.learningRate (Scalar.text rate))

namespace Adam

/-- The last step count: it is a signed 32-bit number. -/
def lastStep : Nat := 0x7fffffff

/-- A new optimizer; both averages of each parameter are zero (`adam`). -/
def new (s : Store α) (params : List NodeId) (rates : AdamRates α) : Outcome (Adam α) := do
  checkParameters params rates.rate
  let moments ← params.mapM fun n => do
    let zero ← Buffer.zeros (s.shape n)
    return { parameter := n, mean := zero, square := zero }
  return { rates, steps := 0, moments }

/-- What is subtracted from an element, given its averages and how far they still lag behind. -/
def move (rates : AdamRates α) (lag1 lag2 : α) (m v : α) : α :=
  rates.rate * (m / lag1) / (Scalar.sqrt (v / lag2) + rates.epsilon)

/-- One parameter's part of step number `t`. -/
def stepOne (rates : AdamRates α) (t : Nat) (s : Store α) (p : Moments α) :
    Outcome Unit × Moments α × Store α :=
  match s.decayedGradient p.parameter rates.weightDecay with
  | .error e => (.error e, p, s)
  | .ok none => (.ok (), p, s)
  | .ok (some g) =>
    match Buffer.zipMap (fun m g => rates.decay1 * m + (1 - rates.decay1) * g) p.mean g with
    | .error e => (.error e, p, s)
    | .ok mean =>
      let p := { p with mean }
      match Buffer.zipMap (fun v g => rates.decay2 * v + (1 - rates.decay2) * g * g)
          p.square g with
      | .error e => (.error e, p, s)
      | .ok square =>
        let p := { p with square }
        let lag1 := 1 - Scalar.power rates.decay1 t
        let lag2 := 1 - Scalar.power rates.decay2 t
        match Buffer.zipMap (move rates lag1 lag2) p.mean p.square with
        | .error e => (.error e, p, s)
        | .ok moves =>
          let value := (s.value p.parameter).updateWith (fun x u => x - u) moves.data
          (.ok (), p, s.setValue p.parameter value)

/-- The parameters' parts of step number `t`, up to the first failure. -/
def stepAll (rates : AdamRates α) (t : Nat) :
    List (Moments α) → Store α → Outcome Unit × List (Moments α) × Store α
  | [], s => (.ok (), [], s)
  | p :: rest, s =>
    match stepOne rates t s p with
    | (.error e, p, s) => (.error e, p :: rest, s)
    | (.ok (), p, s) =>
      let (result, rest, s) := stepAll rates t rest s
      (result, p :: rest, s)

/-- One step. -/
def step (opt : Adam α) (s : Store α) : Outcome Unit × Adam α × Store α :=
  if lastStep ≤ opt.steps then (crash .sum, opt, s)
  else
    let t := opt.steps + 1
    let (result, moments, s) := stepAll opt.rates t opt.moments s
    (result, { opt with steps := t, moments }, s)

end Adam

namespace Sgd

/-- A new optimizer; no parameter has a velocity yet (`sgd`). -/
def new (params : List NodeId) (rates : SgdRates α) : Outcome (Sgd α) := do
  checkParameters params rates.rate
  return { rates, velocities := params.map fun n => { parameter := n, velocity := none } }

/-- The direction in which a parameter with gradient `g` moves, and the velocity kept for it. -/
def direction (rates : SgdRates α) (velocity : Option (Buffer α)) (g : Buffer α) :
    Outcome (Buffer α) × Option (Buffer α) :=
  if Scalar.isZero rates.momentum then (.ok g, velocity)
  else
    match velocity with
    | none => (.ok g, some g)
    | some held =>
      match Buffer.zipMap (fun b g => rates.momentum * b + g) held g with
      | .ok next => (.ok next, some next)
      | .error e => (.error e, none)

/-- One parameter's part of a step. -/
def stepOne (rates : SgdRates α) (s : Store α) (p : Velocity α) :
    Outcome Unit × Velocity α × Store α :=
  match s.decayedGradient p.parameter rates.weightDecay with
  | .error e => (.error e, p, s)
  | .ok none => (.ok (), p, s)
  | .ok (some g) =>
    match direction rates p.velocity g with
    | (.error e, velocity) => (.error e, { p with velocity }, s)
    | (.ok d, velocity) =>
      let value := (s.value p.parameter).updateWith (fun x d => x - rates.rate * d) d.data
      (.ok (), { p with velocity }, s.setValue p.parameter value)

/-- The parameters' parts of a step, up to the first failure. -/
def stepAll (rates : SgdRates α) :
    List (Velocity α) → Store α → Outcome Unit × List (Velocity α) × Store α
  | [], s => (.ok (), [], s)
  | p :: rest, s =>
    match stepOne rates s p with
    | (.error e, p, s) => (.error e, p :: rest, s)
    | (.ok (), p, s) =>
      let (result, rest, s) := stepAll rates rest s
      (result, p :: rest, s)

/-- One step. -/
def step (opt : Sgd α) (s : Store α) : Outcome Unit × Sgd α × Store α :=
  let (result, velocities, s) := stepAll opt.rates opt.velocities s
  (result, { opt with velocities }, s)

end Sgd

namespace Optimizer

/-- The parameters, in order. -/
def parameters : Optimizer α → List NodeId
  | adam state => state.moments.map (·.parameter)
  | sgd state => state.velocities.map (·.parameter)

/-- One step over all parameters that have a gradient. -/
def step (opt : Optimizer α) (s : Store α) : Outcome Unit × Optimizer α × Store α :=
  match opt with
  | adam state =>
    let (result, state, s) := state.step s
    (result, adam state, s)
  | sgd state =>
    let (result, state, s) := state.step s
    (result, sgd state, s)

/-- Forgets the gradients of all parameters (`zero_grad`). -/
def clearGradients (opt : Optimizer α) (s : Store α) : Store α :=
  opt.parameters.foldl Store.clearGradient s

end Optimizer

end DiffTensor
