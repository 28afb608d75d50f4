import Mathlib.Data.List.GetD

/-!
Lists as objects: each has an address, can be overwritten through it, and is never freed. The
next address is the number of lists there are.
-/
namespace Python

structure ListHeap (α : Type*) where
  cells : List (List α)
deriving DecidableEq

namespace ListHeap

variable {α : Type*} (heap : ListHeap α)

def empty : ListHeap α := ⟨[]⟩

def size : Nat := heap.cells.length

def read (a : Nat) : List α := heap.cells.getD a []

/-- A new list, at the address `heap.size`. -/
def alloc (xs : List α) : ListHeap α := ⟨heap.cells ++ [xs]⟩

def write (a : Nat) (xs : List α) : ListHeap α := ⟨heap.cells.set a xs⟩

@[simp] theorem size_alloc (xs : List α) : (heap.alloc xs).size = heap.size + 1 :=
  List.length_append

@[simp] theorem size_write (a : Nat) (xs : List α) : (heap.write a xs).size = heap.size :=
  List.length_set

theorem read_alloc_of_lt {a : Nat} (h : a < heap.size) (xs : List α) :
    (heap.alloc xs).read a = heap.read a := List.getD_append _ _ _ _ h

@[simp] theorem read_alloc_self (xs : List α) : (heap.alloc xs).read heap.size = xs := by
  rw [read, alloc, size, List.getD_append_right _ _ _ _ (Nat.le_refl _), Nat.sub_self]
  rfl

theorem read_write_of_ne {a b : Nat} (h : a ≠ b) (xs : List α) :
    (heap.write b xs).read a = heap.read a := by
  rw [read, write, List.getD_eq_getElem?_getD, List.getElem?_set_ne h.symm,
    ← List.getD_eq_getElem?_getD, read]

end ListHeap
end Python
