import EvQueue.Base.Runs

/-!
# Projection — a component of a machine and the runs it goes through

A machine has a component, which is not there at first.  It begins in some state, and from then on an
action of the machine leaves it alone, or is an action of its own.  Then whatever the machine has done, the
component has gone through a run.
-/

namespace EvQueue.Runs

variable {σ α γ β : Type}

/-- What one step of the machine does to the component: `shows s g` when the component of `s` is there, in
state `g`. -/
structure Projects (step : σ → α → Option σ) (ok : σ → α → Prop) (part : γ → β → Option γ)
    (allowed : γ → β → Prop) (inv absent : σ → Prop) (begins : γ → Prop) (shows : σ → γ → Prop) :
    Prop where
  keeps : ∀ s a s', inv s → ok s a → step s a = some s' → inv s'
  absent : ∀ s a s', inv s → absent s → ok s a → step s a = some s' →
    absent s' ∨ ∃ g, begins g ∧ shows s' g
  shows : ∀ s a s' g, inv s → shows s g → ok s a → step s a = some s' →
    shows s' g ∨ ∃ b g', allowed g b ∧ part g b = some g' ∧ shows s' g'

/-- The component comes to this state in a run of its own. -/
def Comes (part : γ → β → Option γ) (allowed : γ → β → Prop) (begins : γ → Prop) (g : γ) : Prop :=
  ∃ first bs, begins first ∧ Meets part allowed first bs ∧ run part first bs = some g

variable {step : σ → α → Option σ} {ok : σ → α → Prop} {part : γ → β → Option γ}
variable {allowed : γ → β → Prop} {inv absent : σ → Prop} {begins : γ → Prop} {shows : σ → γ → Prop}
variable {s t : σ} {as : List α} {g g' : γ} {b : β}

theorem Comes.first (h : begins g) : Comes part allowed begins g := ⟨g, [], h, trivial, rfl⟩

theorem Comes.next (h : Comes part allowed begins g) (hallowed : allowed g b)
    (hstep : part g b = some g') : Comes part allowed begins g' := by
  rcases h with ⟨first, bs, hbegins, hmeets, hrun⟩
  refine ⟨first, bs ++ [b], hbegins, hmeets.append ?_, (run_concat hrun).trans hstep⟩
  intro t ht
  rw [hrun, Option.some.injEq] at ht
  rw [← ht]
  exact ⟨hallowed, fun _ _ ↦ trivial⟩

/-- What holds at the beginning of the component, and is kept by its steps, holds in what it comes to. -/
theorem Comes.invariant {P : γ → Prop} (h : Comes part allowed begins g) (hbegins : ∀ g, begins g → P g)
    (hstep : ∀ g b g', P g → allowed g b → part g b = some g' → P g') : P g := by
  rcases h with ⟨first, bs, hfirst, hmeets, hrun⟩
  exact run_invariant hstep (hbegins first hfirst) hmeets hrun

/-- **The component goes through a run of its own.** -/
theorem Projects.run (h : Projects step ok part allowed inv absent begins shows) (hinv : inv s)
    (habsent : absent s) (hok : Meets step ok s as) (hrun : run step s as = some t) :
    inv t ∧ (absent t ∨ ∃ g, Comes part allowed begins g ∧ shows t g) := by
  have hstep : ∀ s a s', (inv s ∧ (absent s ∨ ∃ g, Comes part allowed begins g ∧ shows s g)) → ok s a →
      step s a = some s' → inv s' ∧ (absent s' ∨ ∃ g, Comes part allowed begins g ∧ shows s' g) := by
    intro s a s' hs hoka hstep
    refine ⟨h.keeps s a s' hs.1 hoka hstep, ?_⟩
    rcases hs.2 with hno | ⟨g, hcomes, hshows⟩
    · rcases h.absent s a s' hs.1 hno hoka hstep with hno | ⟨g, hbegins, hshows⟩
      · exact .inl hno
      · exact .inr ⟨g, Comes.first hbegins, hshows⟩
    · apply Or.inr
      rcases h.shows s a s' g hs.1 hshows hoka hstep with hshows | ⟨b, g', hallowed, hone, hshows⟩
      · exact ⟨g, hcomes, hshows⟩
      · exact ⟨g', hcomes.next hallowed hone, hshows⟩
  have hend := run_invariant hstep ⟨hinv, .inl habsent⟩ hok hrun
  exact hend

end EvQueue.Runs
