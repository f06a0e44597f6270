import Mathlib.Algebra.Order.Group.Multiset
import DiffTensor.Extent
import DiffTensor.Library.Calling

/-!
# Custody of handles

What callers and libraries owe each other. A caller only makes calls that can be represented
(`Call.Representable`), and passes only handles that it holds, of the right kind and to the
library that they come from (`Call.Backed`). A library hands out handles that are not held yet,
and none where it reports a failure (`Custody`).

To be able to say what a caller does, its calls are written down in a `Journal`; what it holds is
read off the journal (`heldAfter`).
-/

namespace DiffTensor

variable {α V : Type}

/-! ## Calls that can be made -/

/-- Dimensions that are signed words and lie in memory. -/
def Words (dims : Option (List Int)) : Prop :=
  ∀ l, dims = some l → l.length < Extent.allocationLimit ∧
    ∀ d ∈ l, -0x8000000000000000 ≤ d ∧ d < 0x8000000000000000

instance (dims : Option (List Int)) : Decidable (Words dims) :=
  inferInstanceAs (Decidable (∀ l ∈ dims, _ ∧ _))

/-- The dimensions of a call are signed words, and they and its data lie in memory. -/
def Call.Representable : Call α → Prop
  | create (.filled _ dims _) _ => Words dims
  | create (.fromData data _ dims _) _ =>
    Words dims ∧ ∀ l, data = some l → l.length < Extent.allocationLimit
  | _ => True

instance : (c : Call α) → Decidable c.Representable
  | .create (.filled _ dims _) _ => inferInstanceAs (Decidable (Words dims))
  | .create (.fromData data _ dims _) _ =>
    inferInstanceAs (Decidable (Words dims ∧ ∀ l ∈ data, l.length < Extent.allocationLimit))
  | .create (.binary ..) _ | .create (.unary ..) _ | .create (.newLinear ..) _
  | .create (.applyLinear ..) _ | .create (.adam ..) _ | .create (.sgd ..) _ | .seed _
  | .lastError _ | .release .. | .command _ | .query _ | .shape .. | .copyData .. | .parameters ..
  | .gradient _ => isTrue trivial

/-! ## What is held -/

/-- A handle that a library has handed out to a caller. -/
structure Holding where
  library : LibraryId
  kind : ResourceKind
  handle : Handle
  deriving DecidableEq, Repr

/-- What the log tells of a holding. -/
def Holding.face (x : Holding) : ResourceKind × Handle := (x.kind, x.handle)

/-- The handles that a creation uses, each with the kind that it has to have. -/
def Creation.arguments : Creation α Handle → List (ResourceKind × Option Handle)
  | filled .. | fromData .. | newLinear .. => []
  | binary _ a b => [(.tensor, a), (.tensor, b)]
  | unary _ a => [(.tensor, a)]
  | applyLinear layer x => [(.layer, layer), (.tensor, x)]
  | adam handles _ _ | sgd handles _ _ => (handles.getD []).map fun h => (.tensor, h)

def Command.arguments : Command Handle → List (ResourceKind × Option Handle)
  | setTracked tensor _ | backward tensor => [(.tensor, tensor)]
  | step optimizer | clearGradients optimizer => [(.optimizer, optimizer)]

def Query.arguments : Query Handle → List (ResourceKind × Option Handle)
  | rank tensor | size tensor | tracked tensor => [(.tensor, tensor)]
  | parameterCount layer => [(.layer, layer)]

/-- The handles that a call is given, each with the kind that it has to have. -/
def Call.arguments : Call α → List (ResourceKind × Option Handle)
  | seed _ | lastError _ => []
  | release kind handle => [(kind, handle)]
  | create body _ => body.arguments
  | command body => body.arguments
  | query body => body.arguments
  | shape tensor _ | copyData tensor _ _ | gradient tensor => [(.tensor, tensor)]
  | parameters layer _ _ => [(.layer, layer)]

/-- All handles that a call is given are held, with the right kind and from this library. -/
def Call.Backed (library : LibraryId) (c : Call α) (held : Multiset Holding) : Prop :=
  ∀ a ∈ c.arguments, ∃ h, a.2 = some h ∧ ⟨library, a.1, h⟩ ∈ held

/-- A call that was made, and its reply. -/
structure Exchange (α : Type) where
  library : LibraryId
  call : Call α
  reply : call.Reply

namespace Exchange

/-- What the caller was handed out. -/
def gained (x : Exchange α) : Multiset Holding :=
  (x.call.handedOut x.reply).map fun object => (⟨x.library, object.1, object.2⟩ : Holding)

/-- What the caller gave back. -/
def returned (x : Exchange α) : Multiset Holding :=
  match x.call with
  | .release kind (some h) => {⟨x.library, kind, h⟩}
  | _ => 0

/-- What is held after a call. -/
def onto (x : Exchange α) (held : Multiset Holding) : Multiset Holding :=
  x.gained + (held - x.returned)

end Exchange

/-- What is held after calls, of which the latest comes first. -/
def heldAfter : List (Exchange α) → Multiset Holding
  | [] => 0
  | x :: earlier => x.onto (heldAfter earlier)

/-- All that calls handed out. -/
def handedOutBy : List (Exchange α) → Multiset Holding
  | [] => 0
  | x :: earlier => x.gained + handedOutBy earlier

/-- Each call was backed by what was held when it was made. The latest comes first. -/
def Orderly : List (Exchange α) → Prop
  | [] => True
  | x :: earlier => x.call.Backed x.library (heldAfter earlier) ∧ Orderly earlier

/-! ## The journal -/

/-- A world, and the calls that were made in it, latest first. -/
structure Journal (α V : Type) where
  world : V
  calls : List (Exchange α) := []

/-- The same library; calls are written down. -/
def Library.journaled (library : LibraryId) (inner : Library α V) : Library α (Journal α V) where
  answer c j :=
    let (reply, world, events) := inner.answer c j.world
    (reply, ⟨world, ⟨library, c, reply⟩ :: j.calls⟩, events)

/-- The same libraries; calls to all of them are written down in one journal. -/
def Libraries.journaled (libs : Libraries α V) : Libraries α (Journal α V) :=
  fun library => (libs library).journaled library

/-! ## What can be relied on -/

/-- What a caller relies on in a reply: nothing is handed out by a call that fails, the list of a
layer's parameters is complete, and dimensions lie in memory. -/
def Call.Honest : (c : Call α) → c.Reply → Prop
  | create _ hasStatus, made =>
    made.handle.isSome → hasStatus = true ∧ made.status = some .success
  | parameters _ _ length, out =>
    if out.status = .success then out.items.length = length else out.items = []
  | query (.rank _), rank => rank < Extent.allocationLimit
  | _, _ => True

/-- What the events of taking over and giving back tell, if this is such an event. -/
def Event.face? : Event → Option (ResourceKind × Handle)
  | acquired kind h | released kind h | leaked kind h => some (kind, h)
  | _ => none

/-- Libraries keep to what callers rely on, as long as the callers keep to it; `Valid` says in
which states they do, and what is held then. -/
structure Custody (libs : Libraries α V) (Valid : V → Multiset Holding → Prop) : Prop where
  distinct {world : V} {held : Multiset Holding} : Valid world held → held.Nodup
  valid {world : V} {held : Multiset Holding} (library : LibraryId) (c : Call α) :
    Valid world held → c.Representable → c.Backed library held →
      Valid ((libs library).answer c world).2.1
        (Exchange.onto ⟨library, c, ((libs library).answer c world).1⟩ held)
  honest {world : V} {held : Multiset Holding} (library : LibraryId) (c : Call α) :
    Valid world held → c.Representable → c.Backed library held →
      c.Honest ((libs library).answer c world).1
  /-- Taking over and giving back are reported by callers only. -/
  quiet (library : LibraryId) (c : Call α) (world : V) :
    ∀ e ∈ ((libs library).answer c world).2.2, e.face? = none

end DiffTensor
