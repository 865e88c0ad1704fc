import Mathlib.Data.List.Basic

/-!
# SparseBuffer — what was stored around the start of a buffer

A buffer is what stands at each offset from its start, `none` where nothing was stored yet.  Offsets may
be negative or beyond the end: whether all of them lie within the buffer is a property of its own.
-/

namespace EvQueue

def SparseBuffer (α : Type) := Int → Option α

namespace SparseBuffer

variable {α : Type}

def empty : SparseBuffer α := fun _ ↦ none

/-- Items stored one after the other, the first of them at offset `i`. -/
def store (b : SparseBuffer α) (i : Int) (items : List α) : SparseBuffer α := fun k ↦
  if i ≤ k ∧ k < i + items.length then items[(k - i).toNat]? else b k

/-- The buffer starts with these items. -/
def Holds (b : SparseBuffer α) (items : List α) : Prop :=
  ∀ k : Nat, k < items.length → b k = items[k]?

/-- Nothing was stored outside the first `n` offsets. -/
def Within (b : SparseBuffer α) (n : Int) : Prop := ∀ k, b k ≠ none → 0 ≤ k ∧ k < n

variable {b : SparseBuffer α} {out items : List α} {i n m : Int}

theorem store_outside {k : Int} (h : k < i ∨ i + items.length ≤ k) : b.store i items k = b k := by
  unfold store
  exact if_neg (by omega)

theorem store_inside {k : Nat} (h : k < items.length) : b.store i items (i + k) = items[k]? := by
  have hindex : (i + k - i).toNat = k := by omega
  unfold store
  rw [if_pos (by omega), hindex]

theorem holds_nil (b : SparseBuffer α) : b.Holds [] := fun _ h ↦ absurd h (Nat.not_lt_zero _)

theorem within_empty (n : Int) : (empty : SparseBuffer α).Within n := fun _ h ↦ absurd rfl h

/-- What is stored at the end of what the buffer holds comes behind it. -/
theorem Holds.store (h : b.Holds out) (items : List α) :
    (b.store out.length items).Holds (out ++ items) := by
  intro k hk
  rw [List.length_append] at hk
  by_cases hout : k < out.length
  · rw [store_outside (.inl (by omega)), h k hout, List.getElem?_append_left hout]
  · obtain ⟨d, rfl⟩ := Nat.exists_eq_add_of_le (Nat.le_of_not_lt hout)
    have hcast : ((out.length + d : Nat) : Int) = out.length + d := by omega
    rw [hcast, store_inside (by omega), List.getElem?_append_right (by omega)]
    congr 1
    omega

/-- The first part of what the buffer holds. -/
theorem Holds.of_append (h : b.Holds (out ++ items)) : b.Holds out := by
  intro k hk
  rw [h k (by rw [List.length_append]; omega), List.getElem?_append_left hk]

theorem Within.store (h : b.Within n) (hi : 0 ≤ i) (hn : i + items.length ≤ n) :
    (b.store i items).Within n := by
  intro k hk
  by_cases hin : i ≤ k ∧ k < i + items.length
  · omega
  · rw [store_outside (by omega)] at hk
    exact h k hk

/-- What a buffer holds is not longer than the buffer. -/
theorem Holds.length_le (h : b.Holds out) (hwithin : b.Within n) (hn : 0 ≤ n) : (out.length : Int) ≤ n := by
  by_cases hempty : out.length = 0
  · omega
  · have hlast := h (out.length - 1) (by omega)
    have hstored : b ((out.length - 1 : Nat) : Int) ≠ none := by
      rw [hlast, List.getElem?_eq_getElem (by omega)]
      exact Option.some_ne_none _
    have hlt := (hwithin _ hstored).2
    omega

end SparseBuffer

end EvQueue
