import Mathlib.Data.Fintype.EquivFin
import Mathlib.Data.UInt
import Mathlib.Logic.Function.Basic
import EvQueue.Base.Runs

/-!
# WorkflowInstances — the instances that are running, and who waits for them

`WorkflowInstances.cpp` keeps the running instances in one map and, for those somebody waits for, a
condition in another.  Threads call `Add`, `Remove` and `Wait`; a step is one statement of one thread, so
that a run is any interleaving of the calls, down to what happens inside the critical sections.
-/

namespace EvQueue

open Runs

/-- Where a thread stands: in no call, or before the statement named. -/
inductive InstancesThread (WI : Type) where
  | outside
  /-- `pthread_mutex_lock` of the three calls. -/
  | add (id : UInt32) (workflowInstance : WI)
  | remove (id : UInt32)
  | wait (id : UInt32)
  /-- `wi[workflow_instance_id] = workflow_instance`. -/
  | adding (id : UInt32) (workflowInstance : WI)
  /-- `wi.erase`. -/
  | removing (id : UInt32)
  /-- `wi_wait.find`, in `Remove`. -/
  | erased (id : UInt32)
  /-- `pthread_cond_broadcast`. -/
  | broadcasting (id : UInt32) (waitCond : Nat)
  /-- `wi_wait.erase`. -/
  | forgetting (id : UInt32) (waitCond : Nat)
  /-- `pthread_cond_destroy` and `delete`. -/
  | destroying (waitCond : Nat)
  /-- `wi.find`. -/
  | checking (id : UInt32)
  /-- `wi_wait.find`, in `Wait`, and `new pthread_cond_t` when nothing is found. -/
  | preparing (id : UInt32)
  /-- `wi_wait[workflow_instance_id] = wait_cond`. -/
  | creating (id : UInt32) (waitCond : Nat)
  /-- `pthread_cond_wait`. -/
  | entering (id : UInt32) (waitCond : Nat)
  /-- Inside `pthread_cond_wait`, without the mutex. -/
  | blocked (id : UInt32) (waitCond : Nat)
  /-- Woken up, and waiting for the mutex. -/
  | woken
  /-- `pthread_mutex_unlock`. -/
  | unlocking
deriving DecidableEq, Repr

/-- The conditions are their addresses. -/
structure WorkflowInstances (Thread WI : Type) where
  lock : Option Thread
  wi : UInt32 → Option WI
  wiWait : UInt32 → Option Nat
  /-- The conditions that are allocated. -/
  conds : List Nat
  threads : Thread → InstancesThread WI

inductive InstancesAction (Thread WI : Type) where
  | add (t : Thread) (id : UInt32) (workflowInstance : WI)
  | remove (t : Thread) (id : UInt32)
  | wait (t : Thread) (id : UInt32)
  /-- The next statement of thread `t`; `fresh` is what `new` returns. -/
  | advance (t : Thread) (fresh : Nat)
  /-- `pthread_cond_wait` returns without a broadcast. -/
  | wakeUp (t : Thread)

namespace InstancesThread

variable {WI : Type}

/-- The thread holds the mutex. -/
def holds : InstancesThread WI → Bool
  | .outside | .add _ _ | .remove _ | .wait _ | .blocked _ _ | .woken => false
  | _ => true

/-- In `Remove` of this instance, behind `wi.erase` and before the broadcast. -/
def removes (id : UInt32) : InstancesThread WI → Prop
  | .erased id' | .broadcasting id' _ => id' = id
  | _ => False

/-- In `Remove` of this instance, behind `wi.erase` and before `wi_wait.erase`. -/
def forgets (id : UInt32) : InstancesThread WI → Prop
  | .erased id' | .broadcasting id' _ | .forgetting id' _ => id' = id
  | _ => False

/-- What `pthread_cond_broadcast` makes of a thread. -/
def signalled (waitCond : Nat) : InstancesThread WI → InstancesThread WI
  | .blocked id c => if c = waitCond then .woken else .blocked id c
  | p => p

end InstancesThread

namespace WorkflowInstances

variable {Thread WI : Type}

/-- The constructor, with no thread in a call. -/
def create (Thread WI : Type) : WorkflowInstances Thread WI :=
  { lock := none, wi := fun _ ↦ none, wiWait := fun _ ↦ none, conds := [], threads := fun _ ↦ .outside }

section Steps

variable [DecidableEq Thread]

def setThread (s : WorkflowInstances Thread WI) (t : Thread) (p : InstancesThread WI) :
    WorkflowInstances Thread WI :=
  { s with threads := Function.update s.threads t p }

/-- `pthread_mutex_lock`, which returns when the mutex is free. -/
def acquire (s : WorkflowInstances Thread WI) (t : Thread) (p : InstancesThread WI) :
    Option (WorkflowInstances Thread WI) :=
  if s.lock.isNone then some { s.setThread t p with lock := some t } else none

def advance (s : WorkflowInstances Thread WI) (t : Thread) (fresh : Nat) :
    Option (WorkflowInstances Thread WI) :=
  match s.threads t with
  | .outside | .blocked _ _ => none
  | .add id workflowInstance => s.acquire t (.adding id workflowInstance)
  | .adding id workflowInstance =>
      some { s.setThread t .unlocking with wi := Function.update s.wi id (some workflowInstance) }
  | .remove id => s.acquire t (.removing id)
  | .removing id => some { s.setThread t (.erased id) with wi := Function.update s.wi id none }
  | .erased id =>
      match s.wiWait id with
      | none => some (s.setThread t .unlocking)
      | some waitCond => some (s.setThread t (.broadcasting id waitCond))
  | .broadcasting id waitCond =>
      some ({ s with threads := fun u ↦ (s.threads u).signalled waitCond }.setThread t
        (.forgetting id waitCond))
  | .forgetting id waitCond =>
      some { s.setThread t (.destroying waitCond) with wiWait := Function.update s.wiWait id none }
  | .destroying waitCond =>
      some { s.setThread t .unlocking with conds := s.conds.filter fun c ↦ c ≠ waitCond }
  | .wait id => s.acquire t (.checking id)
  | .checking id =>
      match s.wi id with
      | none => some (s.setThread t .unlocking)
      | some _ => some (s.setThread t (.preparing id))
  | .preparing id =>
      match s.wiWait id with
      | none =>
          -- `new` returns no address that is in use
          if fresh ∈ s.conds then none
          else some { s.setThread t (.creating id fresh) with conds := fresh :: s.conds }
      | some waitCond => some (s.setThread t (.entering id waitCond))
  | .creating id waitCond =>
      some { s.setThread t (.entering id waitCond) with
        wiWait := Function.update s.wiWait id (some waitCond) }
  -- `pthread_cond_wait` releases the mutex, and returns with it
  | .entering id waitCond => some { s.setThread t (.blocked id waitCond) with lock := none }
  | .woken => s.acquire t .unlocking
  | .unlocking => some { s.setThread t .outside with lock := none }

/-- A thread that is in no call begins one. -/
def call (s : WorkflowInstances Thread WI) (t : Thread) (p : InstancesThread WI) :
    Option (WorkflowInstances Thread WI) :=
  match s.threads t with
  | .outside => some (s.setThread t p)
  | _ => none

def step (s : WorkflowInstances Thread WI) :
    InstancesAction Thread WI → Option (WorkflowInstances Thread WI)
  | .add t id workflowInstance => s.call t (.add id workflowInstance)
  | .remove t id => s.call t (.remove id)
  | .wait t id => s.call t (.wait id)
  | .advance t fresh => s.advance t fresh
  | .wakeUp t =>
      match s.threads t with
      | .blocked _ _ => some (s.setThread t .woken)
      | _ => none

end Steps

/-! ## What holds in every state -/

/-- `id` is a key of `wi`. -/
def Known (s : WorkflowInstances Thread WI) (id : UInt32) : Prop := s.wi id ≠ none

/-- `Remove` of the instance has the mutex, and its broadcast is still to come. -/
def Removing (s : WorkflowInstances Thread WI) (id : UInt32) : Prop :=
  ∃ t, s.lock = some t ∧ (s.threads t).removes id

/-- `Remove` of the instance has the mutex, and its `wi_wait.erase` is still to come. -/
def Forgetting (s : WorkflowInstances Thread WI) (id : UInt32) : Prop :=
  ∃ t, s.lock = some t ∧ (s.threads t).forgets id

/-- What the thread that holds the mutex relies on at its next statement. -/
def Reached (s : WorkflowInstances Thread WI) : InstancesThread WI → Prop
  | .broadcasting id c => s.wiWait id = some c
  | .forgetting id c => s.wiWait id = some c ∧ ∀ u c', s.threads u ≠ .blocked id c'
  | .preparing id => s.Known id
  | .creating id c => s.Known id ∧ s.wiWait id = none ∧ c ∈ s.conds ∧ ∀ id', s.wiWait id' ≠ some c
  | .entering id c => s.Known id ∧ s.wiWait id = some c
  | .destroying c => ∀ id, s.wiWait id ≠ some c
  | _ => True

/-- The invariant. -/
structure Inv (s : WorkflowInstances Thread WI) : Prop where
  owner : ∀ t, (s.threads t).holds = true ↔ s.lock = some t
  blocked : ∀ t id c, s.threads t = .blocked id c → s.wiWait id = some c
  keys : ∀ id, s.wiWait id ≠ none → s.Known id ∨ s.Forgetting id
  distinct : ∀ id id' c, s.wiWait id = some c → s.wiWait id' = some c → id = id'
  allocated : ∀ id c, s.wiWait id = some c → c ∈ s.conds
  reached : ∀ t, s.lock = some t → s.Reached (s.threads t)

theorem create_inv : (create Thread WI).Inv where
  owner t := by simp [create, InstancesThread.holds]
  blocked := nofun
  keys id hkey := absurd rfl hkey
  distinct := nofun
  allocated := nofun
  reached := nofun

variable {s s' : WorkflowInstances Thread WI} {t : Thread} {p : InstancesThread WI} {fresh : Nat}

theorem Inv.free (h : s.Inv) (hfree : s.lock = none) (u : Thread) : (s.threads u).holds = false := by
  rw [← Bool.not_eq_true, h.owner u, hfree]
  exact nofun

theorem Inv.others (h : s.Inv) (hlock : s.lock = some t) {u : Thread} (hu : u ≠ t) :
    (s.threads u).holds = false := by
  rw [← Bool.not_eq_true, h.owner u, hlock, Option.some.injEq]
  exact fun heq ↦ hu heq.symm

theorem Inv.known (h : s.Inv) (hfree : s.lock = none) {id : UInt32} (hkey : s.wiWait id ≠ none) :
    s.Known id := by
  rcases h.keys id hkey with hknown | ⟨u, hu, -⟩
  · exact hknown
  · rw [hfree] at hu
    cases hu

/-- The instances somebody waits for are known while no `Remove` has begun to forget them. -/
theorem Inv.known_of (h : s.Inv) (hlock : s.lock = some t) {id : UInt32}
    (hforgets : ¬ (s.threads t).forgets id) (hkey : s.wiWait id ≠ none) : s.Known id := by
  rcases h.keys id hkey with hknown | ⟨u, hu, hforgot⟩
  · exact hknown
  · rw [hlock, Option.some.injEq] at hu
    rw [← hu] at hforgot
    exact absurd hforgot hforgets

/-! ## The steps -/

variable [DecidableEq Thread]

/-- Only a thread that becomes blocked, or is about to wait, has to be looked at again. -/
theorem reached_setThread {q : InstancesThread WI} (h : s.Reached q)
    (hnew : ∀ id c, p ≠ .blocked id c) : (s.setThread t p).Reached q := by
  cases q with
  | forgetting id c =>
    refine ⟨h.1, ?_⟩
    intro u c' hblocked
    unfold setThread at hblocked
    dsimp only at hblocked
    by_cases hu : u = t
    · rw [hu, Function.update_self] at hblocked
      exact hnew id c' hblocked
    · rw [Function.update_of_ne hu] at hblocked
      exact h.2 u c' hblocked
  | _ => exact h

/-- A thread without the mutex goes on to where it does not have it either. -/
theorem Inv.move (h : s.Inv) (hold : (s.threads t).holds = false) (hp : p.holds = false)
    (hnew : ∀ id c, p ≠ .blocked id c) : (s.setThread t p).Inv := by
  have hne {u : Thread} (hu : s.lock = some u) : u ≠ t := by
    intro heq
    have hholds := (h.owner u).mpr hu
    rw [heq, hold] at hholds
    cases hholds
  have hsame {u : Thread} (hu : u ≠ t) : (s.setThread t p).threads u = s.threads u :=
    Function.update_of_ne hu _ _
  constructor
  case owner =>
    intro u
    by_cases hu : u = t
    · rw [hu, show (s.setThread t p).threads t = p from Function.update_self _ _ _, hp]
      exact iff_of_false Bool.false_ne_true fun hlock ↦ hne hlock rfl
    · rw [hsame hu]
      exact h.owner u
  case blocked =>
    intro u id c hblocked
    by_cases hu : u = t
    · rw [hu, show (s.setThread t p).threads t = p from Function.update_self _ _ _] at hblocked
      exact absurd hblocked (hnew id c)
    · rw [hsame hu] at hblocked
      exact h.blocked u id c hblocked
  case keys =>
    intro id hkey
    rcases h.keys id hkey with hknown | ⟨u, hu, hforgets⟩
    · exact .inl hknown
    · refine .inr ⟨u, hu, ?_⟩
      rw [hsame (hne hu)]
      exact hforgets
  case distinct => exact h.distinct
  case allocated => exact h.allocated
  case reached =>
    intro u hu
    rw [hsame (hne hu)]
    exact reached_setThread (h.reached u hu) hnew

/-- A thread takes the free mutex. -/
theorem Inv.acquire (h : s.Inv) (hp : p.holds = true)
    (hreached : ∀ s' : WorkflowInstances Thread WI, s'.Reached p)
    (hstep : s.acquire t p = some s') : s'.Inv := by
  unfold WorkflowInstances.acquire at hstep
  split at hstep
  · rename_i hnone
    have hfree : s.lock = none := Option.isNone_iff_eq_none.mp hnone
    rw [Option.some.injEq] at hstep
    rw [← hstep]
    have hself : (s.setThread t p).threads t = p := Function.update_self _ _ _
    have hsame {u : Thread} (hu : u ≠ t) : (s.setThread t p).threads u = s.threads u :=
      Function.update_of_ne hu _ _
    constructor
    case owner =>
      intro u
      show ((s.setThread t p).threads u).holds = true ↔ some t = some u
      by_cases hu : u = t
      · rw [hu, hself]
        exact iff_of_true hp rfl
      · rw [hsame hu, h.free hfree u, Option.some.injEq]
        exact iff_of_false Bool.false_ne_true fun heq ↦ hu heq.symm
    case blocked =>
      intro u id c hblocked
      by_cases hu : u = t
      · rw [hu, show ({ s.setThread t p with lock := some t } : WorkflowInstances Thread WI).threads t = p
          from hself] at hblocked
        rw [hblocked] at hp
        cases hp
      · exact h.blocked u id c ((hsame hu).symm.trans hblocked)
    case keys => exact fun id hkey ↦ .inl (h.known hfree hkey)
    case distinct => exact h.distinct
    case allocated => exact h.allocated
    case reached =>
      intro u hu
      rw [← Option.some.inj hu, show ({ s.setThread t p with
        lock := some t } : WorkflowInstances Thread WI).threads t = p from hself]
      exact hreached _
  · cases hstep

/-- The thread that has the mutex gives it back, or waits. -/
theorem Inv.release (h : s.Inv) (hlock : s.lock = some t) (hp : p.holds = false)
    (hforgets : ∀ id, ¬ (s.threads t).forgets id)
    (hnew : ∀ id c, p = .blocked id c → s.wiWait id = some c) :
    Inv { s.setThread t p with lock := none } := by
  have hself : (s.setThread t p).threads t = p := Function.update_self _ _ _
  have hsame {u : Thread} (hu : u ≠ t) : (s.setThread t p).threads u = s.threads u :=
    Function.update_of_ne hu _ _
  constructor
  case owner =>
    intro u
    show ((s.setThread t p).threads u).holds = true ↔ none = some u
    apply iff_of_false _ nofun
    by_cases hu : u = t
    · rw [hu, hself, hp]
      exact Bool.false_ne_true
    · rw [hsame hu, h.others hlock hu]
      exact Bool.false_ne_true
  case blocked =>
    intro u id c hblocked
    by_cases hu : u = t
    · rw [hu] at hblocked
      exact hnew id c (hself.symm.trans hblocked)
    · exact h.blocked u id c ((hsame hu).symm.trans hblocked)
  case keys =>
    exact fun id hkey ↦ .inl (h.known_of hlock (hforgets id) hkey)
  case distinct => exact h.distinct
  case allocated => exact h.allocated
  case reached => exact nofun

/-- The thread that has the mutex goes on with it, and may change the maps. -/
theorem Inv.proceed (h : s.Inv) (hlock : s.lock = some t)
    (hthreads : s'.threads = Function.update s.threads t p) (hlock' : s'.lock = some t)
    (hp : p.holds = true)
    (hblocked : ∀ u id c, s.threads u = .blocked id c → s'.wiWait id = some c)
    (hkeys : ∀ id, s'.wiWait id ≠ none → s'.Known id ∨ p.forgets id)
    (hdistinct : ∀ id id' c, s'.wiWait id = some c → s'.wiWait id' = some c → id = id')
    (hallocated : ∀ id c, s'.wiWait id = some c → c ∈ s'.conds) (hreached : s'.Reached p) : s'.Inv := by
  have hself : s'.threads t = p := by rw [hthreads, Function.update_self]
  have hsame {u : Thread} (hu : u ≠ t) : s'.threads u = s.threads u := by
    rw [hthreads, Function.update_of_ne hu]
  constructor
  case owner =>
    intro u
    rw [hlock', Option.some.injEq]
    by_cases hu : u = t
    · rw [hu, hself]
      exact iff_of_true hp rfl
    · rw [hsame hu, h.others hlock hu]
      exact iff_of_false Bool.false_ne_true fun heq ↦ hu heq.symm
  case blocked =>
    intro u id c hu
    by_cases hut : u = t
    · rw [hut, hself] at hu
      rw [hu] at hp
      cases hp
    · exact hblocked u id c ((hsame hut).symm.trans hu)
  case keys =>
    intro id hkey
    rcases hkeys id hkey with hknown | hforgets
    · exact .inl hknown
    · exact .inr ⟨t, hlock', hself ▸ hforgets⟩
  case distinct => exact hdistinct
  case allocated => exact hallocated
  case reached =>
    intro u hu
    rw [hlock', Option.some.injEq] at hu
    rw [← hu, hself]
    exact hreached

/-- `wi[id] = workflow_instance` takes no key away. -/
theorem adding_inv (h : s.Inv) {id : UInt32} {workflowInstance : WI}
    (ht : s.threads t = .adding id workflowInstance) (hlock : s.lock = some t) :
    Inv { s.setThread t .unlocking with wi := Function.update s.wi id (some workflowInstance) } := by
  refine h.proceed hlock rfl hlock rfl h.blocked ?_ h.distinct h.allocated trivial
  intro id' hkey
  left
  unfold Known
  dsimp only
  by_cases hid : id' = id
  · rw [hid, Function.update_self]
    exact nofun
  · rw [Function.update_of_ne hid]
    exact h.known_of hlock (by rw [ht]; exact not_false) hkey

/-- `wi.erase`: from here on the instance is being removed. -/
theorem removing_inv (h : s.Inv) {id : UInt32} (ht : s.threads t = .removing id)
    (hlock : s.lock = some t) :
    Inv { s.setThread t (.erased id) with wi := Function.update s.wi id none } := by
  refine h.proceed hlock rfl hlock rfl h.blocked ?_ h.distinct h.allocated trivial
  intro id' hkey
  by_cases hid : id' = id
  · exact .inr hid.symm
  · left
    unfold Known
    dsimp only
    rw [Function.update_of_ne hid]
    exact h.known_of hlock (by rw [ht]; exact not_false) hkey

/-- The thread goes on, and the maps stay. -/
theorem Inv.goOn (h : s.Inv) (hlock : s.lock = some t) (hp : p.holds = true)
    (hforgets : ∀ id, s.wiWait id ≠ none → (s.threads t).forgets id → p.forgets id)
    (hreached : s.Reached p) (hnew : ∀ id c, p ≠ .blocked id c) : (s.setThread t p).Inv := by
  refine h.proceed hlock rfl hlock hp h.blocked ?_ h.distinct h.allocated
    (reached_setThread hreached hnew)
  intro id hkey
  by_cases hforgot : (s.threads t).forgets id
  · exact .inr (hforgets id hkey hforgot)
  · exact .inl (h.known_of hlock hforgot hkey)

theorem signalled_eq_blocked {c c' : Nat} {id : UInt32} (h : p.signalled c = .blocked id c') :
    p = .blocked id c' ∧ c' ≠ c := by
  cases p with
  | blocked id' c'' =>
    unfold InstancesThread.signalled at h
    dsimp only at h
    split at h
    · cases h
    · rename_i hne
      cases h
      exact ⟨rfl, hne⟩
  | _ => cases h

theorem holds_signalled (c : Nat) : (p.signalled c).holds = p.holds := by
  cases p with
  | blocked id c' =>
    unfold InstancesThread.signalled
    dsimp only
    split <;> rfl
  | _ => rfl

/-- The broadcast wakes up every thread that waits for the instance: they all wait on its condition. -/
theorem broadcasting_inv (h : s.Inv) {id : UInt32} {c : Nat} (ht : s.threads t = .broadcasting id c)
    (hlock : s.lock = some t) :
    Inv ({ s with threads := fun u ↦ (s.threads u).signalled c }.setThread t (.forgetting id c)) := by
  have hcond : s.Reached (.broadcasting id c) := by
    rw [← ht]
    exact h.reached t hlock
  unfold Reached at hcond
  -- the broadcast by itself: it changes no map, and a thread it wakes up asks for the mutex again
  have hsignal : Inv { s with threads := fun u ↦ (s.threads u).signalled c } := by
    constructor
    case owner =>
      intro u
      dsimp only
      rw [holds_signalled]
      exact h.owner u
    case blocked => exact fun u id' c' hu ↦ h.blocked u id' c' (signalled_eq_blocked hu).1
    case keys =>
      intro id' hkey
      rcases h.keys id' hkey with hknown | ⟨u, hu, hforgets⟩
      · exact .inl hknown
      · refine .inr ⟨u, hu, ?_⟩
        rw [hlock, Option.some.injEq] at hu
        rw [← hu, ht] at hforgets
        dsimp only
        rw [← hu, ht]
        exact hforgets
    case distinct => exact h.distinct
    case allocated => exact h.allocated
    case reached =>
      intro u hu
      rw [← Option.some.inj (hlock.symm.trans hu)]
      dsimp only
      rw [ht]
      exact hcond
  apply hsignal.goOn hlock rfl
  · intro id' _ hforgets
    dsimp only at hforgets
    rw [ht] at hforgets
    exact hforgets
  · -- who is still blocked would wait for the instance on another condition, and there is no other
    refine ⟨hcond, ?_⟩
    intro u c' hblocked
    have hwas := signalled_eq_blocked hblocked
    have hsame := h.blocked u id c' hwas.1
    rw [hcond, Option.some.injEq] at hsame
    exact hwas.2 hsame.symm
  · exact nofun

/-- `wi_wait.erase`: nobody is blocked on the condition any more. -/
theorem forgetting_inv (h : s.Inv) {id : UInt32} {c : Nat} (ht : s.threads t = .forgetting id c)
    (hlock : s.lock = some t) :
    Inv { s.setThread t (.destroying c) with wiWait := Function.update s.wiWait id none } := by
  obtain ⟨hcond, hnobody⟩ : s.Reached (.forgetting id c) := by
    rw [← ht]
    exact h.reached t hlock
  have hother {id' : UInt32} {c' : Nat} (hkey : Function.update s.wiWait id none id' = some c') :
      id' ≠ id ∧ s.wiWait id' = some c' := by
    by_cases hid : id' = id
    · rw [hid, Function.update_self] at hkey
      cases hkey
    · rw [Function.update_of_ne hid] at hkey
      exact ⟨hid, hkey⟩
  refine h.proceed hlock rfl hlock rfl ?_ ?_ ?_ ?_ ?_
  · intro u id' c' hu
    have hid : id' ≠ id := by
      intro hid
      rw [hid] at hu
      exact hnobody u c' hu
    exact (Function.update_of_ne hid _ _).trans (h.blocked u id' c' hu)
  · intro id' hkey
    left
    rcases Option.ne_none_iff_exists'.mp hkey with ⟨c', hkey'⟩
    have hwas := hother hkey'
    apply h.known_of hlock
    · rw [ht]
      exact fun hforgets ↦ hwas.1 hforgets.symm
    · rw [hwas.2]
      exact nofun
  · exact fun id' id'' c' hkey hkey' ↦ h.distinct id' id'' c' (hother hkey).2 (hother hkey').2
  · exact fun id' c' hkey ↦ h.allocated id' c' (hother hkey).2
  · intro id' hkey
    have hwas := hother hkey
    exact hwas.1 (h.distinct id' id c hwas.2 hcond)

/-- `pthread_cond_destroy` and `delete`. -/
theorem destroying_inv (h : s.Inv) {c : Nat} (ht : s.threads t = .destroying c)
    (hlock : s.lock = some t) :
    Inv { s.setThread t .unlocking with conds := s.conds.filter fun c' ↦ c' ≠ c } := by
  have hunused : s.Reached (.destroying c) := by
    rw [← ht]
    exact h.reached t hlock
  refine h.proceed hlock rfl hlock rfl h.blocked ?_ h.distinct ?_ trivial
  · exact fun id hkey ↦ .inl (h.known_of hlock (by rw [ht]; exact not_false) hkey)
  · intro id c' hkey
    apply List.mem_filter.mpr
    refine ⟨h.allocated id c' hkey, decide_eq_true ?_⟩
    intro heq
    rw [heq] at hkey
    exact hunused id hkey

/-- `new pthread_cond_t`: the condition is nobody else's. -/
theorem preparing_inv (h : s.Inv) {id : UInt32} {fresh : Nat} (ht : s.threads t = .preparing id)
    (hlock : s.lock = some t) (hnone : s.wiWait id = none) (hfresh : fresh ∉ s.conds) :
    Inv { s.setThread t (.creating id fresh) with conds := fresh :: s.conds } := by
  have hknown : s.Reached (.preparing id) := by
    rw [← ht]
    exact h.reached t hlock
  refine h.proceed hlock rfl hlock rfl h.blocked ?_ h.distinct ?_ ⟨hknown, hnone, ?_, ?_⟩
  · exact fun id' hkey ↦ .inl (h.known_of hlock (by rw [ht]; exact not_false) hkey)
  · exact fun id' c hkey ↦ List.mem_cons_of_mem _ (h.allocated id' c hkey)
  · exact List.mem_cons_self
  · exact fun id' hkey ↦ hfresh (h.allocated id' fresh hkey)

/-- `wi_wait[id] = wait_cond`. -/
theorem creating_inv (h : s.Inv) {id : UInt32} {c : Nat} (ht : s.threads t = .creating id c)
    (hlock : s.lock = some t) :
    Inv { s.setThread t (.entering id c) with wiWait := Function.update s.wiWait id (some c) } := by
  obtain ⟨hknown, hnone, hallocated, hunused⟩ : s.Reached (.creating id c) := by
    rw [← ht]
    exact h.reached t hlock
  have hkeys {id' : UInt32} {c' : Nat} (hkey : Function.update s.wiWait id (some c) id' = some c') :
      id' = id ∧ c' = c ∨ id' ≠ id ∧ s.wiWait id' = some c' := by
    by_cases hid : id' = id
    · rw [hid, Function.update_self, Option.some.injEq] at hkey
      exact .inl ⟨hid, hkey.symm⟩
    · rw [Function.update_of_ne hid] at hkey
      exact .inr ⟨hid, hkey⟩
  refine h.proceed hlock rfl hlock rfl ?_ ?_ ?_ ?_ ⟨hknown, Function.update_self _ _ _⟩
  · -- nobody waited for the instance yet
    intro u id' c' hu
    have hwas := h.blocked u id' c' hu
    have hid : id' ≠ id := by
      intro hid
      rw [hid, hnone] at hwas
      cases hwas
    exact (Function.update_of_ne hid _ _).trans hwas
  · intro id' hkey
    left
    obtain ⟨c', hkey'⟩ := Option.ne_none_iff_exists'.mp hkey
    rcases hkeys hkey' with ⟨hid, -⟩ | ⟨-, hwas⟩
    · rw [hid]
      exact hknown
    · exact h.known_of hlock (by rw [ht]; exact not_false) (by rw [hwas]; exact nofun)
  · intro id' id'' c' hkey hkey'
    rcases hkeys hkey with ⟨hid, hc⟩ | ⟨-, hwas⟩
    · rcases hkeys hkey' with ⟨hid', -⟩ | ⟨-, hwas'⟩
      · rw [hid, hid']
      · rw [hc] at hwas'
        exact absurd hwas' (hunused id'')
    · rcases hkeys hkey' with ⟨-, hc'⟩ | ⟨-, hwas'⟩
      · rw [hc'] at hwas
        exact absurd hwas (hunused id')
      · exact h.distinct id' id'' c' hwas hwas'
  · intro id' c' hkey
    rcases hkeys hkey with ⟨-, hc⟩ | ⟨-, hwas⟩
    · rw [hc]
      exact hallocated
    · exact h.allocated id' c' hwas

/-- `wi_wait.find`, in `Remove`. -/
theorem erased_inv (h : s.Inv) {id : UInt32} (ht : s.threads t = .erased id) (hlock : s.lock = some t) :
    (s.wiWait id = none → (s.setThread t .unlocking).Inv) ∧
      ∀ c, s.wiWait id = some c → (s.setThread t (.broadcasting id c)).Inv := by
  constructor
  · intro hcond
    apply h.goOn (p := .unlocking) hlock rfl _ trivial nofun
    intro id' hkey hforgets
    rw [ht] at hforgets
    rw [← show id = id' from hforgets] at hkey
    exact absurd hcond hkey
  · intro c hcond
    apply h.goOn (p := .broadcasting id c) hlock rfl _ hcond nofun
    intro id' _ hforgets
    rw [ht] at hforgets
    exact hforgets

/-- A statement of `Wait` that leaves the maps as they are. -/
theorem Inv.waitOn (h : s.Inv) (hlock : s.lock = some t) (hno : ∀ id, ¬ (s.threads t).forgets id)
    (hp : p.holds = true) (hreached : s.Reached p) (hnew : ∀ id c, p ≠ .blocked id c) :
    (s.setThread t p).Inv :=
  h.goOn hlock hp (fun id _ hforgets ↦ absurd hforgets (hno id)) hreached hnew

/-- `wi.find`, in `Wait`. -/
theorem checking_inv (h : s.Inv) {id : UInt32} (ht : s.threads t = .checking id) (hlock : s.lock = some t)
    (hstep : s.advance t fresh = some s') : s'.Inv := by
  have hno : ∀ id, ¬ (s.threads t).forgets id := by
    rw [ht]
    exact fun _ ↦ not_false
  unfold advance at hstep
  simp only [ht] at hstep
  cases hwi : s.wi id with
  | none =>
    rw [hwi, Option.some.injEq] at hstep
    rw [← hstep]
    exact h.waitOn hlock hno rfl trivial nofun
  | some workflowInstance =>
    rw [hwi, Option.some.injEq] at hstep
    rw [← hstep]
    apply h.waitOn (p := .preparing id) hlock hno rfl _ nofun
    show s.wi id ≠ none
    rw [hwi]
    exact nofun

/-- `wi_wait.find`, in `Wait`. -/
theorem finding_inv (h : s.Inv) {id : UInt32} (ht : s.threads t = .preparing id) (hlock : s.lock = some t)
    (hstep : s.advance t fresh = some s') : s'.Inv := by
  have hknown := h.reached t hlock
  rw [ht] at hknown
  unfold advance at hstep
  simp only [ht] at hstep
  cases hcond : s.wiWait id with
  | none =>
    rw [hcond] at hstep
    dsimp only at hstep
    split at hstep
    · cases hstep
    · rename_i hfresh
      rw [Option.some.injEq] at hstep
      rw [← hstep]
      exact preparing_inv h ht hlock hcond hfresh
  | some c =>
    rw [hcond, Option.some.injEq] at hstep
    rw [← hstep]
    apply h.waitOn (p := .entering id c) hlock _ rfl ⟨hknown, hcond⟩ nofun
    rw [ht]
    exact fun _ ↦ not_false

/-- `pthread_cond_wait` releases the mutex. -/
theorem entering_inv (h : s.Inv) {id : UInt32} {c : Nat} (ht : s.threads t = .entering id c)
    (hlock : s.lock = some t) : Inv { s.setThread t (.blocked id c) with lock := none } := by
  have hcond := h.reached t hlock
  rw [ht] at hcond
  apply h.release hlock rfl
  · rw [ht]
    exact fun _ ↦ not_false
  · intro id' c' heq
    cases heq
    exact hcond.2

/-- The next statement of a thread. -/
theorem advance_inv (h : s.Inv) (hstep : s.advance t fresh = some s') : s'.Inv := by
  -- in the middle of a call a thread has the mutex
  have hlock (hholds : (s.threads t).holds = true) : s.lock = some t := (h.owner t).mp hholds
  have hstep' := hstep
  unfold advance at hstep
  cases ht : s.threads t with
  | outside => simp [ht] at hstep
  | blocked id c => simp [ht] at hstep
  | checking id => exact checking_inv h ht (hlock (by rw [ht]; rfl)) hstep'
  | preparing id => exact finding_inv h ht (hlock (by rw [ht]; rfl)) hstep'
  | add id workflowInstance =>
    simp only [ht] at hstep
    exact h.acquire (p := .adding id workflowInstance) rfl (fun _ ↦ trivial) hstep
  | remove id =>
    simp only [ht] at hstep
    exact h.acquire (p := .removing id) rfl (fun _ ↦ trivial) hstep
  | wait id =>
    simp only [ht] at hstep
    exact h.acquire (p := .checking id) rfl (fun _ ↦ trivial) hstep
  | woken =>
    simp only [ht] at hstep
    exact h.acquire (p := .unlocking) rfl (fun _ ↦ trivial) hstep
  | adding id workflowInstance =>
    simp only [ht, Option.some.injEq] at hstep
    exact hstep ▸ adding_inv h ht (hlock (by rw [ht]; rfl))
  | removing id =>
    simp only [ht, Option.some.injEq] at hstep
    exact hstep ▸ removing_inv h ht (hlock (by rw [ht]; rfl))
  | erased id =>
    have herased := erased_inv h ht (hlock (by rw [ht]; rfl))
    simp only [ht] at hstep
    cases hcond : s.wiWait id with
    | none =>
      rw [hcond, Option.some.injEq] at hstep
      exact hstep ▸ herased.1 hcond
    | some c =>
      rw [hcond, Option.some.injEq] at hstep
      exact hstep ▸ herased.2 c hcond
  | broadcasting id c =>
    simp only [ht, Option.some.injEq] at hstep
    exact hstep ▸ broadcasting_inv h ht (hlock (by rw [ht]; rfl))
  | forgetting id c =>
    simp only [ht, Option.some.injEq] at hstep
    exact hstep ▸ forgetting_inv h ht (hlock (by rw [ht]; rfl))
  | destroying c =>
    simp only [ht, Option.some.injEq] at hstep
    exact hstep ▸ destroying_inv h ht (hlock (by rw [ht]; rfl))
  | creating id c =>
    simp only [ht, Option.some.injEq] at hstep
    exact hstep ▸ creating_inv h ht (hlock (by rw [ht]; rfl))
  | entering id c =>
    simp only [ht, Option.some.injEq] at hstep
    exact hstep ▸ entering_inv h ht (hlock (by rw [ht]; rfl))
  | unlocking =>
    simp only [ht, Option.some.injEq] at hstep
    rw [← hstep]
    apply h.release (hlock (by rw [ht]; rfl)) rfl
    · rw [ht]
      exact fun _ ↦ not_false
    · exact nofun

theorem call_inv (h : s.Inv) (hp : p.holds = false) (hnew : ∀ id c, p ≠ .blocked id c)
    (hstep : s.call t p = some s') : s'.Inv := by
  unfold call at hstep
  split at hstep
  · rename_i ht
    rw [Option.some.injEq] at hstep
    rw [← hstep]
    exact h.move (by rw [ht]; rfl) hp hnew
  · cases hstep

theorem step_inv (h : s.Inv) {a : InstancesAction Thread WI} (hstep : s.step a = some s') : s'.Inv := by
  cases a with
  | add t id workflowInstance => exact call_inv (p := .add id workflowInstance) h rfl nofun hstep
  | remove t id => exact call_inv (p := .remove id) h rfl nofun hstep
  | wait t id => exact call_inv (p := .wait id) h rfl nofun hstep
  | advance t fresh => exact advance_inv h hstep
  | wakeUp t =>
    unfold step at hstep
    dsimp only at hstep
    split at hstep
    · rename_i ht
      rw [Option.some.injEq] at hstep
      rw [← hstep]
      exact h.move (by rw [ht]; rfl) rfl nofun
    · cases hstep

theorem run_inv {actions : List (InstancesAction Thread WI)}
    (hrun : run step (create Thread WI) actions = some s) : s.Inv := by
  have hok : Meets step (fun _ _ ↦ True) (create Thread WI) actions := Meets.of_forall fun _ _ ↦ trivial
  exact run_invariant (fun _ _ _ h _ hstep ↦ step_inv h hstep) create_inv hok hrun

/-! ## Every waiter is woken -/

/-- The thread that has the mutex is never stuck, so a `Remove` that has begun comes to its broadcast. -/
theorem Inv.owner_advances (h : s.Inv) (hlock : s.lock = some t) :
    ∃ fresh s', s.advance t fresh = some s' := by
  have hholds := (h.owner t).mpr hlock
  unfold advance
  cases ht : s.threads t with
  | preparing id =>
    dsimp only
    cases s.wiWait id with
    | none =>
      obtain ⟨fresh, hfresh⟩ := Infinite.exists_notMem_finset s.conds.toFinset
      rw [List.mem_toFinset] at hfresh
      dsimp only
      exact ⟨fresh, _, if_neg hfresh⟩
    | some c => exact ⟨0, _, rfl⟩
  | erased id =>
    dsimp only
    cases s.wiWait id with
    | none => exact ⟨0, _, rfl⟩
    | some c => exact ⟨0, _, rfl⟩
  | checking id =>
    dsimp only
    cases s.wi id with
    | none => exact ⟨0, _, rfl⟩
    | some workflowInstance => exact ⟨0, _, rfl⟩
  | adding id workflowInstance => exact ⟨0, _, rfl⟩
  | removing id => exact ⟨0, _, rfl⟩
  | broadcasting id c => exact ⟨0, _, rfl⟩
  | forgetting id c => exact ⟨0, _, rfl⟩
  | destroying c => exact ⟨0, _, rfl⟩
  | creating id c => exact ⟨0, _, rfl⟩
  | entering id c => exact ⟨0, _, rfl⟩
  | unlocking => exact ⟨0, _, rfl⟩
  | _ =>
    rw [ht] at hholds
    cases hholds

/-- What the waiters rely on, in any state. -/
structure Attends (s : WorkflowInstances Thread WI) : Prop where
  /-- A blocked thread waits on the condition that is recorded for its instance. -/
  recorded : ∀ t id c, s.threads t = .blocked id c → s.wiWait id = some c
  known : ∀ t id c, s.threads t = .blocked id c → s.Known id ∨ s.Removing id
  keys : ∀ id, s.wiWait id ≠ none → s.Known id ∨ s.Forgetting id
  /-- `Remove` wakes up the threads that wait for its instance, and no others. -/
  broadcast : ∀ t id c, s.threads t = .broadcasting id c →
    ∀ u id' c', s.threads u = .blocked id' c' → (c' = c ↔ id' = id)
  /-- `Remove` leaves the broadcast out when nobody waits. -/
  unwaited : ∀ t id, s.threads t = .erased id → s.wiWait id = none → ∀ u c, s.threads u ≠ .blocked id c
  goesOn : ∀ t, s.lock = some t → ∃ fresh s', s.advance t fresh = some s'

theorem Inv.attends (h : s.Inv) : s.Attends := by
  constructor
  case recorded => exact h.blocked
  case keys => exact h.keys
  case goesOn => exact fun t hlock ↦ h.owner_advances hlock
  case unwaited =>
    intro t id _ hnone u c hu
    have hcond := h.blocked u id c hu
    rw [hnone] at hcond
    cases hcond
  case broadcast =>
    intro t id c ht u id' c' hu
    have hlock := (h.owner t).mp (by rw [ht]; rfl)
    have hcond := h.reached t hlock
    rw [ht] at hcond
    have hcond' := h.blocked u id' c' hu
    constructor
    · intro heq
      rw [heq] at hcond'
      exact h.distinct id' id c hcond' hcond
    · intro heq
      rw [heq, show s.wiWait id = some c from hcond, Option.some.injEq] at hcond'
      exact hcond'.symm
  case known =>
    intro t id c ht
    have hcond := h.blocked t id c ht
    rcases h.keys id (by rw [hcond]; exact nofun) with hknown | ⟨u, hlock, hforgets⟩
    · exact .inl hknown
    · refine .inr ⟨u, hlock, ?_⟩
      cases hu : s.threads u with
      | erased id' =>
        rw [hu] at hforgets
        exact hforgets
      | broadcasting id' c' =>
        rw [hu] at hforgets
        exact hforgets
      | forgetting id' c' =>
        -- behind the broadcast nobody is blocked on the instance
        have hnobody := h.reached u hlock
        rw [hu] at hforgets hnobody
        rw [← show id' = id from hforgets] at ht
        exact absurd ht (hnobody.2 t c)
      | _ =>
        rw [hu] at hforgets
        cases hforgets

/-! ## What `Remove` has done when it returns -/

/-- What a `Remove` of the instance has done where it stands. -/
def Removed (s : WorkflowInstances Thread WI) (id : UInt32) : InstancesThread WI → Prop
  | .remove id' | .removing id' => id' = id
  | .erased id' | .broadcasting id' _ | .forgetting id' _ => id' = id ∧ s.wi id = none
  | .destroying _ | .unlocking | .outside => s.wi id = none ∧ s.wiWait id = none
  | _ => False

variable {id : UInt32}

/-- The statements of `Remove`, one after the other. -/
theorem advance_removed (hremoved : s.Removed id (s.threads t)) (hstep : s.advance t fresh = some s') :
    s'.Removed id (s'.threads t) := by
  have hself (q : InstancesThread WI) : (s.setThread t q).threads t = q := Function.update_self _ _ _
  unfold advance at hstep
  cases ht : s.threads t with
  | remove id' =>
    rw [ht] at hremoved
    simp only [ht, acquire] at hstep
    split at hstep
    · rw [← Option.some.inj hstep]
      dsimp only
      rw [hself]
      exact hremoved
    · cases hstep
  | removing id' =>
    rw [ht] at hremoved
    simp only [ht, Option.some.injEq] at hstep
    rw [← hstep]
    dsimp only
    -- the erase itself is what takes the key out of `wi`
    rw [hself, show id' = id from hremoved]
    exact ⟨rfl, Function.update_self _ _ _⟩
  | erased id' =>
    rw [ht] at hremoved
    obtain ⟨hid, hwi⟩ : id' = id ∧ s.wi id = none := hremoved
    simp only [ht] at hstep
    cases hcond : s.wiWait id' with
    | none =>
      rw [hcond, Option.some.injEq] at hstep
      rw [← hstep, hself]
      rw [hid] at hcond
      exact ⟨hwi, hcond⟩
    -- there is somebody to wake: the condition is still to be taken out of `wi_wait`
    | some c =>
      rw [hcond, Option.some.injEq] at hstep
      rw [← hstep, hself]
      exact ⟨hid, hwi⟩
  | broadcasting id' c =>
    rw [ht] at hremoved
    simp only [ht, Option.some.injEq] at hstep
    rw [← hstep]
    unfold setThread
    dsimp only
    rw [Function.update_self]
    exact hremoved
  | forgetting id' c =>
    rw [ht] at hremoved
    simp only [ht, Option.some.injEq] at hstep
    rw [← hstep]
    dsimp only
    -- behind the broadcast the key leaves `wi_wait`, too
    rw [hself, show id' = id from hremoved.1]
    exact ⟨hremoved.2, Function.update_self _ _ _⟩
  | destroying c =>
    rw [ht] at hremoved
    simp only [ht, Option.some.injEq] at hstep
    rw [← hstep]
    dsimp only
    rw [hself]
    exact hremoved
  | unlocking =>
    rw [ht] at hremoved
    simp only [ht, Option.some.injEq] at hstep
    rw [← hstep]
    dsimp only
    rw [hself]
    exact hremoved
  | outside => simp [ht] at hstep
  | _ =>
    rw [ht] at hremoved
    cases hremoved

/-- While a thread has the mutex, the others are stuck. -/
theorem Inv.stuck (h : s.Inv) (hlock : s.lock = some t) {u : Thread} (hu : u ≠ t) :
    s.advance u fresh = none := by
  have hacquire (q : InstancesThread WI) : s.acquire u q = none := by
    unfold WorkflowInstances.acquire
    rw [hlock]
    rfl
  have hfree := h.others hlock hu
  unfold advance
  cases hthread : s.threads u with
  | outside => rfl
  | blocked id c => rfl
  | add id workflowInstance => exact hacquire _
  | remove id => exact hacquire _
  | wait id => exact hacquire _
  | woken => exact hacquire _
  | _ =>
    rw [hthread] at hfree
    cases hfree

/-- A thread moves another one only if this is blocked. -/
theorem threads_advance {u : Thread} (hu : t ≠ u) (hnot : ∀ id c, s.threads t ≠ .blocked id c)
    (hstep : s.advance u fresh = some s') : s'.threads t = s.threads t := by
  have hother (q : InstancesThread WI) : (s.setThread u q).threads t = s.threads t :=
    Function.update_of_ne hu _ _
  have hacquire {q : InstancesThread WI} (h : s.acquire u q = some s') : s'.threads t = s.threads t := by
    unfold acquire at h
    split at h
    · rw [← Option.some.inj h]
      exact hother q
    · cases h
  unfold advance at hstep
  cases hthread : s.threads u with
  | outside => simp [hthread] at hstep
  | blocked id c => simp [hthread] at hstep
  | add id workflowInstance => exact hacquire (by simpa only [hthread] using hstep)
  | remove id => exact hacquire (by simpa only [hthread] using hstep)
  | wait id => exact hacquire (by simpa only [hthread] using hstep)
  | woken => exact hacquire (by simpa only [hthread] using hstep)
  | broadcasting id c =>
    simp only [hthread, Option.some.injEq] at hstep
    rw [← hstep]
    unfold setThread
    dsimp only
    rw [Function.update_of_ne hu]
    cases ht : s.threads t with
    | blocked id' c' => exact absurd ht (hnot id' c')
    | _ => rfl
  | erased id =>
    simp only [hthread] at hstep
    split at hstep
    · rw [← Option.some.inj hstep, hother]
    · rw [← Option.some.inj hstep, hother]
  | checking id =>
    simp only [hthread] at hstep
    split at hstep
    · rw [← Option.some.inj hstep, hother]
    · rw [← Option.some.inj hstep, hother]
  | preparing id =>
    simp only [hthread] at hstep
    split at hstep
    · split at hstep
      · cases hstep
      · rw [← Option.some.inj hstep]
        exact hother _
    · rw [← Option.some.inj hstep, hother]
  | _ =>
    simp only [hthread, Option.some.injEq] at hstep
    rw [← hstep]
    exact hother _

theorem step_removed (h : s.Inv) (hremoved : s.Removed id (s.threads t)) (hin : s.threads t ≠ .outside)
    {a : InstancesAction Thread WI} (hstep : s.step a = some s') : s'.Removed id (s'.threads t) := by
  have hnot (id' : UInt32) (c : Nat) : s.threads t ≠ .blocked id' c := by
    intro ht
    rw [ht] at hremoved
    cases hremoved
  have hset {u : Thread} (hu : t ≠ u) (q : InstancesThread WI) :
      (s.setThread u q).Removed id ((s.setThread u q).threads t) := by
    rw [show (s.setThread u q).threads t = s.threads t from Function.update_of_ne hu _ _]
    exact hremoved
  have hcall {u : Thread} {q : InstancesThread WI} (hcall : s.call u q = some s') :
      s'.Removed id (s'.threads t) := by
    unfold call at hcall
    split at hcall
    · rename_i hout
      rw [← Option.some.inj hcall]
      exact hset (fun heq ↦ hin (heq ▸ hout)) q
    · cases hcall
  cases a with
  | add u id' workflowInstance => exact hcall hstep
  | remove u id' => exact hcall hstep
  | wait u id' => exact hcall hstep
  | wakeUp u =>
    unfold step at hstep
    dsimp only at hstep
    split at hstep
    · rename_i id' c hblocked
      rw [← Option.some.inj hstep]
      exact hset (fun heq ↦ hnot id' c (heq ▸ hblocked)) .woken
    · cases hstep
  | advance u fresh =>
    have hstep : s.advance u fresh = some s' := hstep
    by_cases hu : t = u
    · rw [← hu] at hstep
      exact advance_removed hremoved hstep
    · by_cases hholds : (s.threads t).holds = true
      · rw [h.stuck ((h.owner t).mp hholds) (Ne.symm hu)] at hstep
        cases hstep
      · -- it still waits for the mutex
        rw [threads_advance hu hnot hstep]
        cases ht : s.threads t with
        | remove id' =>
          rw [ht] at hremoved
          exact hremoved
        | outside => exact absurd ht hin
        | _ =>
          rw [ht] at hremoved hholds
          first
          | exact absurd rfl hholds
          | cases hremoved

/-- When `Remove` returns, the instance is not known any more, and nobody waits for it. -/
theorem remove_returns (h : s.Inv) (ht : s.threads t = .remove id)
    {actions : List (InstancesAction Thread WI)}
    (hin : Meets step (fun s _ ↦ s.threads t ≠ .outside) s actions)
    (hrun : run step s actions = some s') (hout : s'.threads t = .outside) :
    s'.wi id = none ∧ s'.wiWait id = none ∧ ∀ u c, s'.threads u ≠ .blocked id c := by
  have hstart : s.Inv ∧ s.Removed id (s.threads t) := by
    rw [ht]
    exact ⟨h, rfl⟩
  have hstep : ∀ (r : WorkflowInstances Thread WI) a r', (r.Inv ∧ r.Removed id (r.threads t)) →
      r.threads t ≠ .outside → r.step a = some r' → r'.Inv ∧ r'.Removed id (r'.threads t) :=
    fun r a r' hr hin hstep ↦ ⟨step_inv hr.1 hstep, step_removed hr.1 hr.2 hin hstep⟩
  rcases run_invariant hstep hstart hin hrun with ⟨h', hremoved⟩
  rw [hout] at hremoved
  refine ⟨hremoved.1, hremoved.2, fun u c hu ↦ ?_⟩
  have hcond := h'.blocked u id c hu
  rw [hremoved.2] at hcond
  cases hcond

/-- In every state of every run a thread that is blocked in `Wait` waits on the condition recorded for its
instance, and the instance is known, or its `Remove` has the mutex and goes on to broadcast on that
condition.  Whenever the mutex is free, both maps agree.  When a `Remove` that was called returns, its
instance is not known any more, and no thread is blocked on it. -/
theorem waiters_of_run (actions : List (InstancesAction Thread WI)) (s : WorkflowInstances Thread WI)
    (hrun : run step (create Thread WI) actions = some s) :
    (s.lock = none → (∀ t id c, s.threads t = .blocked id c → s.wiWait id = some c ∧ s.Known id) ∧
      ∀ id, s.wiWait id ≠ none → s.Known id) ∧ s.Attends ∧
        ∀ t id rest s', s.threads t = .remove id →
          Meets step (fun s _ ↦ s.threads t ≠ .outside) s rest → run step s rest = some s' →
          s'.threads t = .outside →
          s'.wi id = none ∧ s'.wiWait id = none ∧ ∀ u c, s'.threads u ≠ .blocked id c := by
  have hinv := run_inv hrun
  refine ⟨?_, hinv.attends, fun _ _ _ _ ht hin hrest hout ↦ remove_returns hinv ht hin hrest hout⟩
  intro hfree
  constructor
  · intro t id c ht
    have hcond := hinv.blocked t id c ht
    exact ⟨hcond, hinv.known hfree (by rw [hcond]; exact nofun)⟩
  · exact fun id hkey ↦ hinv.known hfree hkey

/-- Two threads wait for instance 7, and a third one is about to remove it. -/
def twoWaiters : List (InstancesAction Nat Unit) :=
  [.add 0 7 (), .advance 0 0, .advance 0 0, .advance 0 0, .wait 1 7, .advance 1 0, .advance 1 0,
    .advance 1 40, .advance 1 0, .advance 1 0, .wait 2 7, .advance 2 0, .advance 2 0, .advance 2 0,
    .advance 2 0, .remove 0 7]

/-- The statements of its `Remove`. -/
def removal : List (InstancesAction Nat Unit) := List.replicate 7 (.advance 0 0)

theorem waiters_twoWaiters : ∃ s s', run step (create Nat Unit) twoWaiters = some s ∧
    s.threads 1 = .blocked 7 40 ∧ s.threads 2 = .blocked 7 40 ∧ s.Known 7 ∧ s.Attends ∧
      run step s removal = some s' ∧ s'.threads 1 = .woken ∧ s'.threads 2 = .woken ∧ s'.wi 7 = none := by
  obtain ⟨s, s', hrun, hlock, h0, h1, h2, hrest, hout, h1', h2', hin⟩ : ∃ s s',
      run step (create Nat Unit) twoWaiters = some s ∧ s.lock = none ∧ s.threads 0 = .remove 7 ∧
      s.threads 1 = .blocked 7 40 ∧ s.threads 2 = .blocked 7 40 ∧ run step s removal = some s' ∧
      s'.threads 0 = .outside ∧ s'.threads 1 = .woken ∧ s'.threads 2 = .woken ∧
      Meets step (fun s _ ↦ s.threads 0 ≠ .outside) s removal :=
    ⟨_, _, rfl, rfl, rfl, rfl, rfl, rfl, rfl, rfl, rfl, by decide⟩
  have hwaiters := waiters_of_run twoWaiters s hrun
  have hremoved := hwaiters.2.2 0 7 removal s' h0 hin hrest hout
  exact ⟨s, s', hrun, h1, h2, ((hwaiters.1 hlock).1 1 7 40 h1).2, hwaiters.2.1, hrest, h1', h2',
    hremoved.1⟩

end WorkflowInstances

end EvQueue
