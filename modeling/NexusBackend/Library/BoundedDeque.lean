import Mathlib.Data.List.Basic

/-! `collections.deque(maxlen=n)`: a full deque drops its oldest element on an append. -/
namespace Python

structure BoundedDeque (α : Type*) (maxlen : Nat) where
  items : List α
  fits : items.length ≤ maxlen

namespace BoundedDeque

variable {α : Type*} {maxlen : Nat}

def empty : BoundedDeque α maxlen := ⟨[], Nat.zero_le _⟩

def isFull (d : BoundedDeque α maxlen) : Bool := d.items.length = maxlen

def append (d : BoundedDeque α maxlen) (a : α) : BoundedDeque α maxlen :=
  ⟨(d.items ++ [a]).drop (d.items.length + 1 - maxlen), by
    rw [List.length_drop, List.length_append, List.length_singleton]
    omega⟩

theorem append_items_of_not_full {d : BoundedDeque α maxlen} (a : α) (h : d.isFull = false) :
    (d.append a).items = d.items ++ [a] := by
  have hfits := d.fits
  have hne : d.items.length ≠ maxlen := by simpa [isFull] using h
  have hdrop : d.items.length + 1 - maxlen = 0 := by omega
  change (d.items ++ [a]).drop (d.items.length + 1 - maxlen) = _
  rw [hdrop, List.drop_zero]

end BoundedDeque
end Python
