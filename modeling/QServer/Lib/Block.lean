import Mathlib.Data.List.Basic

/-
This file treats a block of memory as a list, with an allocator that may refuse a block.
-/

namespace Memory

variable {Byte : Type}

/-- A write that does not fit into the block has no result. -/
def write (block : List Byte) (place : Nat) (bytes : List Byte) : Option (List Byte) :=
  if place + bytes.length ≤ block.length then
    some (block.take place ++ bytes ++ block.drop (place + bytes.length))
  else none

section Write

variable {block after : List Byte} {place : Nat} {bytes : List Byte}

theorem write_of_room (room : place + bytes.length ≤ block.length) :
    write block place bytes =
      some (block.take place ++ bytes ++ block.drop (place + bytes.length)) := if_pos room

theorem write_cases (written : write block place bytes = some after) :
    place + bytes.length ≤ block.length ∧
      after = block.take place ++ bytes ++ block.drop (place + bytes.length) := by
  obtain ⟨room, same⟩ := Option.ite_none_right_eq_some.mp written
  exact ⟨room, (Option.some.inj same).symm⟩

theorem write_length (written : write block place bytes = some after) :
    after.length = block.length := by
  obtain ⟨room, rfl⟩ := write_cases written
  rw [List.length_append, List.length_append, List.length_take, List.length_drop]
  omega

/-- The part before the write stays, and the bytes stand behind it. -/
theorem write_take (written : write block place bytes = some after) :
    after.take (place + bytes.length) = block.take place ++ bytes := by
  obtain ⟨room, rfl⟩ := write_cases written
  have front : (block.take place ++ bytes).length = place + bytes.length := by
    rw [List.length_append, List.length_take]
    omega
  rw [← front, List.take_left]

theorem write_take_before (written : write block place bytes = some after) {count : Nat}
    (before : count ≤ place) : after.take count = block.take count := by
  have whole := congrArg (List.take count) (write_take written)
  obtain ⟨room, _⟩ := write_cases written
  rw [List.take_take, Nat.min_eq_left (by omega), List.take_append_of_le_length (by
    rw [List.length_take]
    omega), List.take_take, Nat.min_eq_left before] at whole
  exact whole

theorem write_getElem? {byte : Byte} (written : write block place [byte] = some after) :
    after[place]? = some byte := by
  obtain ⟨room, rfl⟩ := write_cases written
  have front : (block.take place).length = place := by
    rw [List.length_take]
    simp only [List.length_singleton] at room
    omega
  rw [List.append_assoc, List.getElem?_append_right (Nat.le_of_eq front), front, Nat.sub_self]
  rfl

end Write

/-- What the allocator does with the next request. A block has any content. -/
structure Allocator (Byte : Type) (limit : Nat) where
  malloc : Nat → Option (List Byte)
  sized : ∀ size block, malloc size = some block → block.length = size
  limited : ∀ size block, malloc size = some block → size ≤ limit

namespace Allocator

variable {limit : Nat} (allocator : Allocator Byte limit)

/-- The content of the old block stays as far as the new one goes. -/
def realloc (old : List Byte) (size : Nat) : Option (List Byte) :=
  (allocator.malloc size).map fun fresh => old.take size ++ fresh.drop old.length

/-- The allocator that always grants blocks of zeros up to the limit. -/
def generous (zero : Byte) : Allocator Byte limit where
  malloc size := if size ≤ limit then some (List.replicate size zero) else none
  sized size block granted := by
    obtain ⟨_, same⟩ := Option.ite_none_right_eq_some.mp granted
    cases same
    exact List.length_replicate
  limited size block granted := (Option.ite_none_right_eq_some.mp granted).1

variable {allocator} {old block : List Byte} {size : Nat}

theorem realloc_cases (granted : allocator.realloc old size = some block) :
    size ≤ limit ∧ block.length = size ∧ block.take old.length = old.take size := by
  obtain ⟨fresh, given, rfl⟩ := Option.map_eq_some_iff.mp granted
  have fits := allocator.limited size fresh given
  have sized := allocator.sized size fresh given
  refine ⟨fits, ?_, ?_⟩
  · rw [List.length_append, List.length_take, List.length_drop, sized]
    omega
  · by_cases shrinks : size ≤ old.length
    · rw [List.drop_eq_nil_of_le (by omega), List.append_nil]
      exact List.take_of_length_le (by rw [List.length_take]; omega)
    · rw [List.take_of_length_le (Nat.le_of_not_le shrinks), List.take_left]

end Allocator

end Memory
