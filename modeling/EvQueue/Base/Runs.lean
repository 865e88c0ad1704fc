import Mathlib.Data.List.Basic

/-!
# Runs — state machines that may get stuck, and what holds along their runs

A machine is a step function on states that answers `none` where the program has no defined
behaviour.  A run is the list of actions taken.  The rules below turn a fact about one step into a
fact about every state of a run, under a condition that each step meets in the state before it.
-/

namespace EvQueue.Runs

variable {σ α : Type} (step : σ → α → Option σ)

def run : σ → List α → Option σ
  | s, [] => some s
  | s, a :: as => (step s a).bind fun s' ↦ run s' as

/-- Every step of the run meets `ok` in the state it starts from. -/
def Meets (ok : σ → α → Prop) : σ → List α → Prop
  | _, [] => True
  | s, a :: as => ok s a ∧ ∀ s', step s a = some s' → Meets ok s' as

/-- How many steps of the run meet `p` in the state they start from. -/
def count (p : σ → α → Bool) : σ → List α → Nat
  | _, [] => 0
  | s, a :: as => (p s a).toNat + ((step s a).map fun s' ↦ count p s' as).getD 0

variable {step} {s s' t : σ} {a : α} {as bs : List α} {ok : σ → α → Prop}

@[simp] theorem run_nil : run step s [] = some s := rfl

theorem run_cons : run step s (a :: as) = (step s a).bind fun s' ↦ run step s' as := rfl

theorem run_append : run step s (as ++ bs) = (run step s as).bind fun s' ↦ run step s' bs := by
  induction as generalizing s with
  | nil => rfl
  | cons a as ih =>
    simp only [List.cons_append, run_cons, ih, Option.bind_assoc]

theorem run_concat (hrun : run step s as = some s') : run step s (as ++ [a]) = step s' a := by
  rw [run_append, hrun]
  simp [run_cons]

theorem run_cons_eq_some (hrun : run step s (a :: as) = some t) :
    ∃ s', step s a = some s' ∧ run step s' as = some t :=
  Option.bind_eq_some_iff.mp hrun

/-- What every guarded step preserves holds at the end of every guarded run. -/
theorem run_invariant {inv : σ → Prop}
    (hstep : ∀ s a s', inv s → ok s a → step s a = some s' → inv s')
    (hinv : inv s) (hok : Meets step ok s as) (hrun : run step s as = some t) : inv t := by
  induction as generalizing s with
  | nil =>
    obtain rfl : s = t := by simpa using hrun
    exact hinv
  | cons a as ih =>
    obtain ⟨s', hs, hrest⟩ := run_cons_eq_some hrun
    exact ih (hstep s a s' hinv hok.1 hs) (hok.2 s' hs) hrest

theorem Meets.cons (hok : ok s a) (hstep : step s a = some s') (hrest : Meets step ok s' as) :
    Meets step ok s (a :: as) := by
  refine ⟨hok, ?_⟩
  intro t ht
  rw [hstep, Option.some.injEq] at ht
  rw [← ht]
  exact hrest

instance Meets.decidable [∀ s a, Decidable (ok s a)] :
    (s : σ) → (as : List α) → Decidable (Meets step ok s as)
  | _, [] => .isTrue trivial
  | s, a :: as =>
      match h : step s a with
      | none => decidable_of_iff (ok s a) ⟨fun hok ↦ ⟨hok, by simp [h]⟩, And.left⟩
      | some s' =>
          have := Meets.decidable s' as
          decidable_of_iff (ok s a ∧ Meets step ok s' as)
            ⟨fun hok ↦ Meets.cons hok.1 h hok.2, fun hok ↦ ⟨hok.1, hok.2 s' h⟩⟩

/-- The actions meet the condition in every state. -/
theorem Meets.of_always (h : ∀ a ∈ as, ∀ s, ok s a) : Meets step ok s as := by
  induction as generalizing s with
  | nil => trivial
  | cons a as ih =>
    exact ⟨h a List.mem_cons_self s, fun s' _ ↦ ih fun a' ha' ↦ h a' (List.mem_cons_of_mem _ ha')⟩

/-- A condition on actions alone. -/
theorem Meets.of_forall {ok : α → Prop} (h : ∀ a ∈ as, ok a) : Meets step (fun _ a ↦ ok a) s as :=
  Meets.of_always fun a ha _ ↦ h a ha

theorem Meets.append (hok : Meets step ok s as)
    (hrest : ∀ t, run step s as = some t → Meets step ok t bs) : Meets step ok s (as ++ bs) := by
  induction as generalizing s with
  | nil => exact hrest s rfl
  | cons a as ih =>
    refine ⟨hok.1, fun s' hs ↦ ih (hok.2 s' hs) fun t hrun ↦ hrest t ?_⟩
    rw [run_cons, hs, Option.bind_some]
    exact hrun

theorem Meets.and {ok' : σ → α → Prop} (h : Meets step ok s as) (h' : Meets step ok' s as) :
    Meets step (fun s a ↦ ok s a ∧ ok' s a) s as := by
  induction as generalizing s with
  | nil => trivial
  | cons a as ih => exact ⟨⟨h.1, h'.1⟩, fun s' hs ↦ ih (h.2 s' hs) (h'.2 s' hs)⟩

/-- A prefix of a guarded run is guarded. -/
theorem Meets.prefix (hok : Meets step ok s (as ++ bs)) : Meets step ok s as := by
  induction as generalizing s with
  | nil => trivial
  | cons a as ih => exact ⟨hok.1, fun s' hs ↦ ih (hok.2 s' hs)⟩

/-- So is what follows it. -/
theorem Meets.suffix (hok : Meets step ok s (as ++ bs)) (hrun : run step s as = some t) :
    Meets step ok t bs := by
  induction as generalizing s with
  | nil =>
    rw [run_nil, Option.some.injEq] at hrun
    rw [← hrun]
    exact hok
  | cons a as ih =>
    rcases run_cons_eq_some hrun with ⟨s', hs, hrest⟩
    exact ih (hok.2 s' hs) hrest

/-! ## Counts -/

variable {p q : σ → α → Bool} {m n : Nat}

theorem count_cons (hstep : step s a = some s') :
    count step p s (a :: as) = (p s a).toNat + count step p s' as := by
  simp [count, hstep]

/-- What every guarded step preserves, with the numbers of the steps so far that met `p` and `q`. -/
theorem run_counted {inv : Nat → Nat → σ → Prop}
    (hstep : ∀ m n s a s', inv m n s → ok s a → step s a = some s' →
      inv (m + (p s a).toNat) (n + (q s a).toNat) s')
    (hinv : inv m n s) (hok : Meets step ok s as) (hrun : run step s as = some t) :
    inv (m + count step p s as) (n + count step q s as) t := by
  induction as generalizing s m n with
  | nil =>
    obtain rfl : s = t := by simpa using hrun
    exact hinv
  | cons a as ih =>
    obtain ⟨s', hs, hrest⟩ := run_cons_eq_some hrun
    have hlater := ih (hstep m n s a s' hinv hok.1 hs) (hok.2 s' hs) hrest
    rw [count_cons hs, count_cons hs, ← Nat.add_assoc, ← Nat.add_assoc]
    exact hlater

/-- No step of the run is counted. -/
theorem count_eq_zero_iff (hrun : run step s as = some t) :
    count step p s as = 0 ↔ Meets step (fun s a ↦ p s a = false) s as := by
  induction as generalizing s with
  | nil => exact iff_of_true rfl trivial
  | cons a as ih =>
    obtain ⟨s', hs, hrest⟩ := run_cons_eq_some hrun
    rw [count_cons hs, Nat.add_eq_zero_iff, ih hrest]
    have hfirst : (p s a).toNat = 0 ↔ p s a = false := by
      cases p s a <;> decide
    rw [hfirst]
    constructor
    · intro h
      exact Meets.cons h.1 hs h.2
    · intro h
      exact ⟨h.1, h.2 s' hs⟩

end EvQueue.Runs
