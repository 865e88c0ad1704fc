import Mathlib.Data.List.Nodup
import Mathlib.Data.List.Perm.Subperm
import Mathlib.Logic.Function.Basic

/-!
# Accounted — what several owners have sent is theirs

Every owner has a list of what it owns.  A part of it is still to be sent, another part is on its way, and
nothing else is.  Sending moves an item from the first part to the second one, and when it arrives the
owner strikes it from its list.
-/

namespace EvQueue

/-- What is on its way is owned: what each owner has still to send and what it has sent are part of what
it owns. -/
def Accounted {K X : Type*} [DecidableEq K] [DecidableEq X] (owned owed : K → List X)
    (sent : List (K × X)) : Prop :=
  ∀ k x, sent.count (k, x) + (owed k).count x ≤ (owned k).count x

theorem subperm_map {α β : Type*} (f : α → β) {xs ys : List α} (h : xs.Subperm ys) :
    (xs.map f).Subperm (ys.map f) := by
  rcases h with ⟨zs, hperm, hsub⟩
  exact ⟨zs.map f, hperm.map f, hsub.map f⟩

namespace Accounted

variable {K X : Type*} [DecidableEq K] [DecidableEq X] {owned owed : K → List X}
variable {sent sent' : List (K × X)} {k : K} {x : X} {xs : List X}

theorem subperm (h : Accounted owned owed sent) (hsub : sent'.Subperm sent) :
    Accounted owned owed sent' := by
  intro l y
  have hold := h l y
  have hle := hsub.count_le (l, y)
  omega

theorem mem (h : Accounted owned owed sent) (hin : (k, x) ∈ sent) : x ∈ owned k := by
  have hold := h k x
  have hpos := List.count_pos_iff.mpr hin
  apply List.count_pos_iff.mp
  omega

/-- Where no owner owns anything twice, nothing is on its way twice. -/
theorem nodup (h : Accounted owned owed sent) (hnodup : ∀ k, (owned k).Nodup) : sent.Nodup := by
  rw [List.nodup_iff_count_le_one]
  intro item
  have hcount := h item.1 item.2
  have hone := List.nodup_iff_count_le_one.mp (hnodup item.1) item.2
  exact Nat.le_trans (Nat.le_of_add_right_le hcount) hone

/-- An owner sends what it owes. -/
theorem send (h : Accounted owned owed sent) (howed : owed k = x :: xs)
    (hsub : sent'.Subperm ((k, x) :: sent)) :
    Accounted owned (Function.update owed k xs) sent' := by
  intro l y
  have hold := h l y
  have hle := hsub.count_le (l, y)
  rw [List.count_cons] at hle
  by_cases hl : l = k
  · rw [hl, howed, List.count_cons] at hold
    rw [hl, Function.update_self]
    rw [hl] at hle
    by_cases hy : x = y
    · simp only [hy, beq_self_eq_true, if_true] at hold hle
      omega
    · simp only [Prod.mk.injEq, true_and, hy, beq_iff_eq, if_false] at hold hle
      omega
  · rw [Function.update_of_ne hl]
    have hne : ((k, x) == (l, y)) = false := by
      simp only [beq_eq_false_iff_ne, ne_eq, Prod.mk.injEq, not_and]
      exact fun hk ↦ absurd hk.symm hl
    rw [hne, if_neg Bool.false_ne_true] at hle
    omega

/-- What was sent has arrived. -/
theorem arrive (h : Accounted owned owed ((k, x) :: sent)) :
    Accounted (Function.update owned k ((owned k).erase x)) owed sent := by
  intro l y
  have hold := h l y
  rw [List.count_cons] at hold
  by_cases hl : l = k
  · rw [hl, Function.update_self]
    rw [hl] at hold
    by_cases hy : x = y
    · rw [hy, List.count_erase_self]
      simp only [hy, beq_self_eq_true, if_true] at hold
      omega
    · rw [List.count_erase_of_ne (Ne.symm hy)]
      omega
  · rw [Function.update_of_ne hl]
    omega

/-- An owner that owes nothing acquires more. -/
theorem acquire (h : Accounted owned owed sent) (howed : owed k = []) {ys : List X}
    (hys : owned k ++ xs = ys) :
    Accounted (Function.update owned k ys) (Function.update owed k xs) sent := by
  intro l y
  have hold := h l y
  by_cases hl : l = k
  · rw [hl, Function.update_self, Function.update_self, ← hys, List.count_append]
    rw [hl, howed, List.count_nil] at hold
    omega
  · rw [Function.update_of_ne hl, Function.update_of_ne hl]
    exact hold

end Accounted

end EvQueue
