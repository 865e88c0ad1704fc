import Mathlib.Logic.Function.Basic

/-!
# Variables — the variables of a process, which only valid names may have

Of several values that are set under a name, the last one counts.  A name that is not valid is refused, and no
environment has it.
-/

namespace EvQueue

structure Variables (κ ν : Type) (valid : κ → Prop) where
  getenv : κ → Option ν
  invalid : ∀ name, ¬ valid name → getenv name = none

namespace Variables

variable {κ ν : Type} {valid : κ → Prop} [DecidableEq κ] [DecidablePred valid]

/-- Overwrites; the name is refused when it is not valid. -/
def setenv (env : Variables κ ν valid) (name : κ) (value : ν) : Variables κ ν valid :=
  if h : valid name then
    { getenv := Function.update env.getenv name (some value)
      invalid := by
        intro other hother
        rw [Function.update_of_ne (fun heq ↦ hother (by rw [heq]; exact h))]
        exact env.invalid other hother }
  else env

/-- One variable after another. -/
def exports (env : Variables κ ν valid) (assignments : List (κ × ν)) : Variables κ ν valid :=
  assignments.foldl (fun env p ↦ env.setenv p.1 p.2) env

variable {env : Variables κ ν valid} {name other : κ} {value : ν} {assignments : List (κ × ν)}

theorem getenv_setenv (h : valid name) : (env.setenv name value).getenv name = some value := by
  unfold setenv
  rw [dif_pos h]
  exact Function.update_self ..

theorem getenv_setenv_of_ne (hne : other ≠ name) : (env.setenv name value).getenv other = env.getenv other := by
  unfold setenv
  split
  · exact Function.update_of_ne hne ..
  · rfl

theorem exports_cons (p : κ × ν) :
    env.exports (p :: assignments) = (env.setenv p.1 p.2).exports assignments := rfl

/-- A name that is not among them keeps its value. -/
theorem getenv_exports_of_not_mem (h : ∀ p ∈ assignments, p.1 ≠ name) :
    (env.exports assignments).getenv name = env.getenv name := by
  induction assignments generalizing env with
  | nil => rfl
  | cons p assignments ih =>
    rw [exports_cons, ih fun q hq ↦ h q (List.mem_cons_of_mem p hq)]
    exact getenv_setenv_of_ne (Ne.symm (h p List.mem_cons_self))

end Variables

end EvQueue
