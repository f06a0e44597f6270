import DiffTensor.Host.Error
import DiffTensor.Optimizer

/-!
# Settings of optimizers

The host checks the settings of an optimizer one after the other before anything is made:
the learning rate has to be a positive number, Adam's decay rates lie in `[0, 1)`, and all
other settings are numbers that are not negative. The first setting that is out of range
is refused.
-/

namespace DiffTensor

variable {α : Type} [Scalar α]

/-- Refuses a learning rate that is not a positive number (`check_learning_rate`). -/
def checkRate (rate : α) : Except HostError Unit :=
  if Scalar.finite rate && Scalar.positive rate then .ok ()
  else .error (.configuration (.learningRate (Scalar.text rate)))

/-- Refuses a decay rate that does not lie in `[0, 1)`. -/
def checkDecay (setting : String) (value : α) : Except HostError Unit :=
  if Scalar.atMost 0 value && Scalar.less value 1 then .ok ()
  else .error (.configuration (.outsideUnit setting (Scalar.text value)))

/-- Refuses a negative value, or one that is not a number (`check_non_negative`). -/
def checkNonNegative (setting : String) (value : α) : Except HostError Unit :=
  if Scalar.finite value && Scalar.atMost 0 value then .ok ()
  else .error (.configuration (.negative setting (Scalar.text value)))

namespace AdamRates

/-- Checks all settings, in the order in which they are listed (`validate`). -/
def check (r : AdamRates α) : Except HostError Unit := do
  checkRate r.rate
  checkDecay "beta1" r.decay1
  checkDecay "beta2" r.decay2
  checkNonNegative "eps" r.epsilon
  checkNonNegative "weight_decay" r.weightDecay

/-- The settings that hold where nothing else is said (`default`). -/
def standard : AdamRates Float := ⟨1e-3, 0.9, 0.999, 1e-8, 0.0⟩

/-- Numeric equality of all settings. -/
def same (a b : AdamRates α) : Bool :=
  Scalar.same a.rate b.rate && Scalar.same a.decay1 b.decay1 && Scalar.same a.decay2 b.decay2 &&
    Scalar.same a.epsilon b.epsilon && Scalar.same a.weightDecay b.weightDecay

end AdamRates

namespace SgdRates

/-- Checks all settings, in the order in which they are listed (`validate`). -/
def check (r : SgdRates α) : Except HostError Unit := do
  checkRate r.rate
  checkNonNegative "momentum" r.momentum
  checkNonNegative "weight_decay" r.weightDecay

/-- The settings that hold where nothing else is said (`default`). -/
def standard : SgdRates Float := ⟨1e-2, 0.0, 0.0⟩

/-- Numeric equality of all settings. -/
def same (a b : SgdRates α) : Bool :=
  Scalar.same a.rate b.rate && Scalar.same a.momentum b.momentum &&
    Scalar.same a.weightDecay b.weightDecay

end SgdRates

end DiffTensor
