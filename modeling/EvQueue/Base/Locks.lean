import Mathlib.Data.List.Basic
import Mathlib.Logic.Relation

/-!
# Locks — threads that take and release mutexes, and who waits for whom

A thread is the list of the mutexes it holds and the operations that are still before it; what else the
program does between them is left out.  A mutex is taken when nobody holds it, the thread itself included.
-/

namespace EvQueue.Locks

open Relation

inductive Op (M : Type) where
  | lock (m : M)
  | unlock (m : M)
deriving DecidableEq, Repr

structure Activity (M : Type) where
  held : List M
  todo : List (Op M)
deriving DecidableEq, Repr

variable {M : Type} [DecidableEq M]

/-- A critical section with nothing inside. -/
def visit (m : M) : List (Op M) := [.lock m, .unlock m]

namespace Activity

def idle : Activity M := ⟨[], []⟩

/-- The thread behind its next operation. -/
def next (a : Activity M) : Activity M :=
  match a.todo with
  | [] => a
  | .lock m :: rest => ⟨m :: a.held, rest⟩
  | .unlock m :: rest => ⟨a.held.erase m, rest⟩

/-- The mutex that the thread takes next. -/
def wanted (a : Activity M) : Option M :=
  match a.todo with
  | .lock m :: _ => some m
  | _ => none

end Activity

/-- Thread `t` performs its next operation; `none` when it has to wait or has nothing to do. -/
def step (s : List (Activity M)) (t : Nat) : Option (List (Activity M)) :=
  match s[t]? with
  | none => none
  | some a =>
      match a.todo with
      | [] => none
      | .lock m :: _ => if s.all fun b ↦ m ∉ b.held then some (s.set t a.next) else none
      | .unlock _ :: _ => some (s.set t a.next)

theorem step_eq_some {s s' : List (Activity M)} {t : Nat} (h : step s t = some s') :
    ∃ a, s[t]? = some a ∧ a.todo ≠ [] ∧ s' = s.set t a.next := by
  unfold step at h
  cases ha : s[t]? with
  | none => simp [ha] at h
  | some a =>
    simp only [ha] at h
    refine ⟨a, rfl, ?_⟩
    rcases a with ⟨held, todo⟩
    cases todo with
    | nil => cases h
    | cons op rest =>
      refine ⟨List.cons_ne_nil op rest, ?_⟩
      cases op with
      | lock m =>
        dsimp only at h
        by_cases hfree : (s.all fun b ↦ m ∉ b.held) = true
        · rw [if_pos hfree, Option.some.injEq] at h
          exact h.symm
        · rw [if_neg hfree] at h
          cases h
      | unlock m => exact (Option.some.inj h).symm

/-! ## Waiting -/

/-- Thread `t` waits for a mutex that thread `u` holds. -/
def WaitsFor (s : List (Activity M)) (t u : Nat) : Prop :=
  ∃ a b m, s[t]? = some a ∧ s[u]? = some b ∧ a.wanted = some m ∧ m ∈ b.held

def Deadlock (s : List (Activity M)) : Prop := ∃ t, TransGen (WaitsFor s) t t

section

variable {α : Type} {R : α → α → Prop} {x : α}

/-- The node before one on a cycle. -/
theorem exists_before (h : TransGen R x x) : ∃ y, R y x ∧ TransGen R y y := by
  rcases TransGen.tail'_iff.mp h with ⟨y, hxy, hyx⟩
  exact ⟨y, hyx, TransGen.head' hyx hxy⟩

/-- The node behind one on a cycle. -/
theorem exists_behind (h : TransGen R x x) : ∃ y, R x y ∧ TransGen R y y := by
  rcases TransGen.head'_iff.mp h with ⟨y, hxy, hyx⟩
  exact ⟨y, hxy, TransGen.tail' hyx hxy⟩

end

/-! ## Plans -/

section

variable (allowed : List M → M → Prop)

/-- Along the operations every mutex is taken under an allowed set of mutexes, and only a mutex that is
held is released. -/
def Follows (held : List M) : List (Op M) → Prop
  | [] => True
  | .lock m :: rest => allowed held m ∧ Follows (m :: held) rest
  | .unlock m :: rest => m ∈ held ∧ Follows (held.erase m) rest

/-- What is held once all operations are done. -/
def heldAfter (held : List M) : List (Op M) → List M
  | [] => held
  | .lock m :: rest => heldAfter (m :: held) rest
  | .unlock m :: rest => heldAfter (held.erase m) rest

variable {allowed} {held : List M} {xs ys : List (Op M)} {m : M}

theorem follows_append : Follows allowed held (xs ++ ys) ↔
    Follows allowed held xs ∧ Follows allowed (heldAfter held xs) ys := by
  induction xs generalizing held with
  | nil => simp [Follows, heldAfter]
  | cons op xs ih =>
    cases op with
    | lock m =>
      show allowed held m ∧ Follows allowed (m :: held) (xs ++ ys) ↔ _
      rw [ih]
      exact and_assoc.symm
    | unlock m =>
      show m ∈ held ∧ Follows allowed (held.erase m) (xs ++ ys) ↔ _
      rw [ih]
      exact and_assoc.symm

theorem heldAfter_append : heldAfter held (xs ++ ys) = heldAfter (heldAfter held xs) ys := by
  induction xs generalizing held with
  | nil => rfl
  | cons op xs ih =>
    cases op with
    | lock m => exact ih
    | unlock m => exact ih

/-- A part of a plan that releases what it takes. -/
structure Returns (allowed : List M → M → Prop) (held : List M) (xs : List (Op M)) : Prop where
  follows : Follows allowed held xs
  held : heldAfter held xs = held

theorem Returns.nil : Returns allowed held [] := ⟨trivial, rfl⟩

theorem Returns.append (hx : Returns allowed held xs) (hy : Returns allowed held ys) :
    Returns allowed held (xs ++ ys) := by
  constructor
  case follows =>
    rw [follows_append, hx.held]
    exact ⟨hx.follows, hy.follows⟩
  case held => rw [heldAfter_append, hx.held, hy.held]

/-- A critical section around a part that releases what it takes. -/
theorem Returns.around (hm : allowed held m) (hx : Returns allowed (m :: held) xs) :
    Returns allowed held (.lock m :: (xs ++ [.unlock m])) := by
  constructor
  case follows =>
    refine ⟨hm, ?_⟩
    rw [follows_append, hx.held]
    exact ⟨hx.follows, List.mem_cons_self, trivial⟩
  case held =>
    show heldAfter (m :: held) (xs ++ [.unlock m]) = held
    rw [heldAfter_append, hx.held]
    exact List.erase_cons_head m held

theorem Returns.visit (hm : allowed held m) : Returns allowed held (visit m) := by
  show Returns allowed held (.lock m :: ([] ++ [.unlock m]))
  exact Returns.around hm Returns.nil

theorem Returns.flatMap {β : Type} {f : β → List (Op M)} {l : List β}
    (h : ∀ b ∈ l, Returns allowed held (f b)) : Returns allowed held (l.flatMap f) := by
  induction l with
  | nil => exact Returns.nil
  | cons b l ih =>
    rw [List.flatMap_cons]
    exact (h b List.mem_cons_self).append (ih fun c hc ↦ h c (List.mem_cons_of_mem b hc))

/-- What is before the thread goes on following the rule. -/
theorem Follows.next {a : Activity M} (h : Follows allowed a.held a.todo) :
    Follows allowed a.next.held a.next.todo := by
  rcases a with ⟨held, todo⟩
  cases todo with
  | nil => exact h
  | cons op rest =>
    cases op with
    | lock m => exact h.2
    | unlock m => exact h.2

theorem Follows.allowed_wanted {a : Activity M} (h : Follows allowed a.held a.todo)
    (hwanted : a.wanted = some m) : allowed a.held m := by
  rcases a with ⟨held, todo⟩
  cases todo with
  | nil => cases hwanted
  | cons op rest =>
    cases op with
    | lock m' =>
      obtain rfl : m' = m := Option.some.inj hwanted
      exact h.1
    | unlock m' => cases hwanted

end

end EvQueue.Locks
