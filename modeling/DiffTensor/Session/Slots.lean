/-!
# Slots

A session keeps its objects in named slots. Each kind of object has slots of its own, and
every slot is empty until something is put into it. A slot is looked at by `find?`; the
lemmas say what filling and emptying one slot means for all of them.
-/

namespace DiffTensor

/-- The slots of one kind. -/
structure Slots (β : Type) where
  filled : List (String × β) := []

namespace Slots

variable {β : Type}

/-- What is in a slot. -/
def find? (slots : Slots β) (name : String) : Option β := slots.filled.lookup name

/-- Empties a slot. -/
def erase (slots : Slots β) (name : String) : Slots β :=
  ⟨slots.filled.filter fun slot => slot.1 ≠ name⟩

/-- Fills a slot, whatever was in it. -/
def insert (slots : Slots β) (name : String) (x : β) : Slots β :=
  ⟨(name, x) :: (slots.erase name).filled⟩

theorem find?_erase (slots : Slots β) (name other : String) :
    (slots.erase name).find? other = if other = name then none else slots.find? other := by
  obtain ⟨filled⟩ := slots
  simp only [find?, erase]
  induction filled with
  | nil => simp
  | cons slot filled ih => grind

theorem find?_insert (slots : Slots β) (name other : String) (x : β) :
    (slots.insert name x).find? other = if other = name then some x else slots.find? other := by
  have h := find?_erase slots name other
  grind [find?, insert]

end Slots

end DiffTensor
