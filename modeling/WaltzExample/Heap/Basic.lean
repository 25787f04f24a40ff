import Mathlib.Logic.Function.Basic

-- A reference to an object of a heap.
abbrev Ref := Nat

-- The objects of one type that exist, by reference. `next` is the reference that the next new
-- object gets, so the references below it are those in use.
structure Heap (α : Type) where
  next   : Ref
  object : Ref → α

namespace Heap

variable {α : Type} (h : Heap α) (r r' : Ref) (a : α)

def empty (default : α) : Heap α where
  next     := 0
  object _ := default

def alloc : Heap α where
  next   := h.next + 1
  object := Function.update h.object h.next a

def set : Heap α :=
  { h with object := Function.update h.object r a }

@[simp]
theorem object_alloc_next : (h.alloc a).object h.next = a := by
  simp [alloc]

variable {r r'} in
theorem object_alloc_of_lt (hr : r < h.next) : (h.alloc a).object r = h.object r := by
  simp [alloc, Function.update_of_ne <| Nat.ne_of_lt hr]

@[simp]
theorem object_set_self : (h.set r a).object r = a := by
  simp [set]

variable {r r'} in
@[simp]
theorem object_set_of_ne (hr : r' ≠ r) : (h.set r a).object r' = h.object r' := by
  simp [set, hr]

@[simp]
theorem set_object : h.set r (h.object r) = h := by
  simp [set]

end Heap
