import Mathlib.Data.List.Nodup
import Mathlib.Data.Nat.Find
import Mathlib.Logic.Relation
import Mathlib.Order.WellFounded
import EvQueue.Base.Runs

/-!
# Descent — machines that cannot go on for ever

The states of a machine have ranks in a well-founded order.  An action that counts leads to a smaller
rank, and the others keep it; then an endless run takes only finitely many actions that count.
-/

namespace EvQueue.Runs

variable {σ α : Type} {ρ : Type*}

/-- An endless run, by its states and its actions. -/
def Endless (step : σ → α → Option σ) (states : ℕ → σ) (actions : ℕ → α) : Prop :=
  ∀ n, step (states n) (actions n) = some (states (n + 1))

/-- An idle action keeps every rank of the state, and any other action leads to a smaller one. -/
structure Descends [Preorder ρ] (step : σ → α → Option σ) (idle : α → Prop) (ranked : σ → ρ → Prop) :
    Prop where
  keeps : ∀ s a s' r, idle a → ranked s r → step s a = some s' → ranked s' r
  lowers : ∀ s a s' r, ¬idle a → ranked s r → step s a = some s' → ∃ r' < r, ranked s' r'

variable [Preorder ρ] {step : σ → α → Option σ} {idle : α → Prop} {ranked : σ → ρ → Prop}
variable {states : ℕ → σ} {actions : ℕ → α} {r : ρ} {n : ℕ}

theorem Descends.keeps_until (h : Descends step idle ranked) (hrun : Endless step states actions)
    (hranked : ranked (states n) r) (k : ℕ) (hidle : ∀ i < k, idle (actions (n + i))) :
    ranked (states (n + k)) r := by
  induction k with
  | zero => exact hranked
  | succ k ih =>
    have hbefore := ih fun i hi ↦ hidle i (Nat.lt_succ_of_lt hi)
    exact h.keeps _ _ _ r (hidle k (Nat.lt_succ_self k)) hbefore (hrun (n + k))

/-- **From some point on, an endless run is idle.** -/
theorem Descends.eventually_idle [WellFoundedLT ρ] (h : Descends step idle ranked)
    (hrun : Endless step states actions) (hranked : ranked (states n) r) :
    ∃ m, ∀ k ≥ m, idle (actions k) := by
  -- induction on the rank; the next action that counts lowers it
  induction r using WellFoundedLT.induction generalizing n with
  | ind r ih =>
    by_cases hall : ∀ k, idle (actions (n + k))
    · refine ⟨n, ?_⟩
      intro k hk
      obtain ⟨j, rfl⟩ := Nat.exists_eq_add_of_le hk
      exact hall j
    · rw [not_forall] at hall
      classical
      have hcounts := Nat.find_spec hall
      have hbefore := h.keeps_until hrun hranked (Nat.find hall) fun i hi ↦
        not_not.mp (Nat.find_min hall hi)
      obtain ⟨r', hlt, hranked'⟩ := h.lowers _ _ _ r hcounts hbefore (hrun _)
      exact ih r' hlt hranked'

/-! ## Machines without a choice -/

section Course

variable (next : σ → Option σ)

/-- The machine leads from one state to the other. -/
abbrev Leads : σ → σ → Prop := Relation.ReflTransGen fun s t ↦ next s = some t

/-- The state behind the next `n` steps, or behind those that there are. -/
def follow : ℕ → σ → σ
  | 0, s => s
  | n + 1, s =>
      match next s with
      | none => s
      | some s' => follow n s'

variable {next} {s t u : σ}

theorem leads_follow (n : ℕ) (s : σ) : Leads next s (follow next n s) := by
  induction n generalizing s with
  | zero => exact .refl
  | succ n ih =>
    unfold follow
    cases hnext : next s with
    | none => exact .refl
    | some s' => exact .head hnext (ih s')

/-- A measure that becomes smaller says how many steps there are at most. -/
theorem follow_ends (inv : σ → Prop) (measure : σ → ℕ)
    (hstep : ∀ s t, inv s → next s = some t → inv t ∧ measure t < measure s) (hinv : inv s) (n : ℕ)
    (hn : measure s ≤ n) : next (follow next n s) = none := by
  induction n generalizing s with
  | zero =>
    cases hnext : next s with
    | none => exact hnext
    | some s' =>
      have hlt := (hstep s s' hinv hnext).2
      omega
  | succ n ih =>
    unfold follow
    cases hnext : next s with
    | none => exact hnext
    | some s' =>
      have hnew := hstep s s' hinv hnext
      exact ih hnew.1 (by omega)

/-- There is only one end. -/
theorem Leads.unique (h : Leads next s t) (h' : Leads next s u) (ht : next t = none)
    (hu : next u = none) : t = u := by
  have hstays {a b : σ} (ha : next a = none) (hab : Leads next a b) : a = b := by
    rcases Relation.ReflTransGen.cases_head hab with heq | ⟨c, hc, -⟩
    · exact heq
    · rw [ha] at hc
      cases hc
  have hone : Relator.RightUnique fun s t ↦ next s = some t :=
    fun _ _ _ hb hc ↦ Option.some.inj (hb.symm.trans hc)
  rcases Relation.ReflTransGen.total_of_right_unique hone h h' with htu | hut
  · exact hstays ht htu
  · exact (hstays hu hut).symm

end Course

/-! ## Counting -/

/-- One element more, and nothing else, is counted. -/
theorem countP_of_differ {xs : List α} {p q : α → Bool} {x : α} (hnodup : xs.Nodup) (hx : x ∈ xs)
    (hsame : ∀ y ∈ xs, y ≠ x → q y = p y) (hp : p x = false) :
    xs.countP q = xs.countP p + (q x).toNat := by
  rcases List.append_of_mem hx with ⟨before, behind, heq⟩
  rw [heq] at hnodup hsame ⊢
  rw [List.nodup_append, List.nodup_cons] at hnodup
  have hbefore : before.countP q = before.countP p := by
    apply List.countP_congr
    intro y hy
    rw [hsame y (List.mem_append_left _ hy) (hnodup.2.2 y hy x List.mem_cons_self)]
  have hbehind : behind.countP q = behind.countP p := by
    apply List.countP_congr
    intro y hy
    rw [hsame y (List.mem_append_right _ (List.mem_cons_of_mem _ hy))]
    intro hyx
    exact hnodup.2.1.1 (hyx ▸ hy)
  rw [List.countP_append, List.countP_cons, List.countP_append, List.countP_cons, hp, hbefore, hbehind]
  cases q x <;> simp +arith

/-- Where nothing is added and one element goes, there are fewer. -/
theorem countP_lt_countP {xs : List α} {p q : α → Bool} {x : α} (hmono : ∀ y ∈ xs, p y = true → q y = true)
    (hx : x ∈ xs) (hq : q x = true) (hp : p x = false) : xs.countP p < xs.countP q := by
  rcases List.append_of_mem hx with ⟨before, behind, heq⟩
  rw [heq] at hmono ⊢
  have hbefore : before.countP p ≤ before.countP q :=
    List.countP_mono_left fun y hy ↦ hmono y (List.mem_append_left _ hy)
  have hbehind : behind.countP p ≤ behind.countP q :=
    List.countP_mono_left fun y hy ↦ hmono y (List.mem_append_right _ (List.mem_cons_of_mem _ hy))
  rw [List.countP_append, List.countP_cons, List.countP_append, List.countP_cons, hq, hp]
  simp only [Bool.false_eq_true, if_false, if_true]
  omega

end EvQueue.Runs
