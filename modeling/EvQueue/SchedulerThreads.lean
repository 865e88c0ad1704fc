import EvQueue.SchedulerRuns

/-!
# SchedulerThreads — the retry threads of a scheduler

`InsertEvent` creates a thread for the first event of an empty list, and the thread ends when it finds
the list empty.  A step is one critical section of the scheduler's mutex, or what a thread does between
two of them, so that a run is any interleaving of the threads created so far and of the calls from
outside.
-/

namespace EvQueue

open Cells Runs

/-- Where a thread stands in `retry_thread`. -/
inductive RetryThread (α : Type) where
  /-- At the top of its loop. -/
  | started
  /-- In the inner loop, before `shift_event(curr_time)`. -/
  | shifting (currTime : Int)
  /-- In `event_removed`. -/
  | removing (currTime : Int) (event : TimedEvent α)
  /-- Behind the inner loop. -/
  | deciding (currTime : Int)
  /-- In `pthread_cond_timedwait`, with the time its deadline was computed from; `woken`: it was
  signalled. -/
  | waiting (deadline : Int) (woken : Bool)
  /-- It kept the mutex around its loop, and waits for itself. -/
  | locked
  /-- It found the list empty and has released the mutex, but has not called `pthread_detach` yet. -/
  | exiting
  | exited
deriving DecidableEq, Repr

structure ThreadedScheduler (α : Type) where
  scheduler : Scheduler α
  inserted : Nat
  /-- In the order of their creation. -/
  threads : List (RetryThread α)
  retryThreadHandle : Option Nat
  isShuttingDown : Bool
  /-- A thread has returned, or gone around its loop, without a `pthread_mutex_unlock`. -/
  mutexKept : Bool
deriving DecidableEq, Repr

inductive ThreadAction (α : Type) where
  /-- `InsertEvent`, from any thread; `wake` is the thread that a signal wakes up. -/
  | insertEvent (scheduledAt : Int) (content : α) (wake : Nat)
  | flush (filter : Option (TimedEvent α → Bool)) (wake : Nat)
  | shutdown (wake : Nat)
  /-- Thread `k` reads the time and enters the inner loop. -/
  | readTime (k : Nat) (currTime : Int)
  | shiftEvent (k : Nat)
  /-- `event_removed` returns. -/
  | eventRemoved (k : Nat)
  /-- The critical section behind the inner loop, up to the wait. -/
  | decide (k : Nat)
  /-- `pthread_cond_timedwait` returns: signalled, timed out, or spuriously. -/
  | wakeUp (k : Nat)
  | detach (k : Nat)

namespace RetryThread

variable {α : Type}

/-- Blocked in the wait, without a wake-up pending. -/
def blocked : RetryThread α → Bool
  | .waiting _ woken => !woken
  | _ => false

/-- Alive, and not committed to exit. -/
def live : RetryThread α → Bool
  | .exiting | .exited => false
  | _ => true

def isExited : RetryThread α → Bool
  | .exited => true
  | _ => false

theorem isExited_iff {t : RetryThread α} : t.isExited ↔ t = .exited := by
  cases t <;> simp [isExited]

/-- The thread is there for the event: it has not begun to exit, and if it sleeps, it does not sleep beyond the
time of the event.  One that is blocked by the mutex that it holds itself counts, too. -/
def attends (e : TimedEvent α) : RetryThread α → Prop
  | .waiting deadline woken => woken = true ∨ deadline ≤ e.scheduledAt
  | .exiting | .exited => False
  | _ => True

end RetryThread

namespace ThreadedScheduler

variable {α : Type}

def start (α : Type) : ThreadedScheduler α :=
  { scheduler := .create α, inserted := 0, threads := [], retryThreadHandle := none,
    isShuttingDown := false, mutexKept := false }

/-- `pthread_cond_signal`: one of the blocked threads is woken up, if there is one. -/
def signal (threads : List (RetryThread α)) (wake : Nat) : Option (List (RetryThread α)) :=
  match threads[wake]? with
  | some (.waiting deadline false) => some (threads.set wake (.waiting deadline true))
  | _ => if threads.any RetryThread.blocked then none else some threads

def notify (s : ThreadedScheduler α) (notice : Notice) (wake : Nat) : Option (ThreadedScheduler α) :=
  match notice with
  | .createThread =>
      some { s with
        threads := s.threads ++ [.started]
        retryThreadHandle := some s.threads.length }
  | .wakeUp => (signal s.threads wake).map fun threads ↦ { s with threads }
  | .nothing => some s

def setThread (s : ThreadedScheduler α) (k : Nat) (t : RetryThread α) : ThreadedScheduler α :=
  { s with threads := s.threads.set k t }

/-- The critical section of a thread behind its inner loop.  `none` is undefined behaviour: there is no
first event. -/
def sleep (s : ThreadedScheduler α) (k : Nat) (currTime : Int) : Option (ThreadedScheduler α) :=
  if s.scheduler.numberOfEvents = 0 then some (s.setThread k .exiting)
  else
    (s.scheduler.firstEvent.bind s.scheduler.heap.read).map fun firstCell ↦
      let timeToSleep := firstCell.val.scheduledAt - currTime
      if timeToSleep > 0 then
        -- the early return does not release the mutex
        if s.isShuttingDown then { s.setThread k .exited with mutexKept := true }
        else s.setThread k (.waiting firstCell.val.scheduledAt false)
      else { s.setThread k .locked with mutexKept := true }

def step (A : Allocator (TimedEvent α)) (s : ThreadedScheduler α) :
    ThreadAction α → Option (ThreadedScheduler α)
  | .insertEvent scheduledAt content wake =>
      if s.mutexKept then none
      else
        (s.scheduler.insertEvent A ⟨scheduledAt, content, s.inserted⟩).bind fun (scheduler, notice) ↦
          { s with scheduler, inserted := s.inserted + 1 }.notify notice wake
  | .flush filter wake =>
      if s.mutexKept then none
      else
        (s.scheduler.flush filter).bind fun ((_, wakeUp), scheduler) ↦
          { s with scheduler }.notify (if wakeUp then .wakeUp else .nothing) wake
  | .shutdown wake =>
      if s.mutexKept then none
      else
        { s with isShuttingDown := true }.notify
          (if s.scheduler.numberOfEvents > 0 then .wakeUp else .nothing) wake
  | .readTime k currTime =>
      match s.threads[k]? with
      | some .started => some (s.setThread k (.shifting currTime))
      | _ => none
  | .shiftEvent k =>
      match s.threads[k]? with
      | some (.shifting currTime) =>
          if s.mutexKept then none
          else
            (s.scheduler.shiftEvent currTime).map fun (found, scheduler) ↦
              match found with
              | some event => { s.setThread k (.removing currTime event) with scheduler }
              | none => { s.setThread k (.deciding currTime) with scheduler }
      | _ => none
  | .eventRemoved k =>
      match s.threads[k]? with
      | some (.removing currTime _) => some (s.setThread k (.shifting currTime))
      | _ => none
  | .decide k =>
      match s.threads[k]? with
      | some (.deciding currTime) => if s.mutexKept then none else s.sleep k currTime
      | _ => none
  | .wakeUp k =>
      match s.threads[k]? with
      | some (.waiting _ _) =>
          if s.mutexKept then none
          else if s.isShuttingDown then some { s.setThread k .exited with mutexKept := true }
          else some (s.setThread k .started)
      | _ => none
  | .detach k =>
      match s.threads[k]? with
      | some .exiting => some (s.setThread k .exited)
      | _ => none

variable {A : Allocator (TimedEvent α)} {s s' : ThreadedScheduler α} {k wake : Nat}
variable {t : RetryThread α}

/-- The ways a call from outside or a thread can go on.  Whatever needs the mutex finds it free. -/
inductive Steps (A : Allocator (TimedEvent α)) (s : ThreadedScheduler α) :
    ThreadAction α → ThreadedScheduler α → Prop where
  | insertEvent {scheduledAt : Int} {content : α} {wake : Nat} {scheduler : Scheduler α} {notice : Notice}
      {s' : ThreadedScheduler α} (hfree : s.mutexKept = false)
      (hcall : s.scheduler.insertEvent A ⟨scheduledAt, content, s.inserted⟩ = some (scheduler, notice))
      (hnotify : { s with scheduler, inserted := s.inserted + 1 }.notify notice wake = some s') :
      Steps A s (.insertEvent scheduledAt content wake) s'
  | flush {filter : Option (TimedEvent α → Bool)} {wake : Nat} {removed : List (TimedEvent α)}
      {wakeUp : Bool} {scheduler : Scheduler α} {s' : ThreadedScheduler α} (hfree : s.mutexKept = false)
      (hcall : s.scheduler.flush filter = some ((removed, wakeUp), scheduler))
      (hnotify : { s with scheduler }.notify (if wakeUp then .wakeUp else .nothing) wake = some s') :
      Steps A s (.flush filter wake) s'
  | shutdown {wake : Nat} {s' : ThreadedScheduler α} (hfree : s.mutexKept = false)
      (hnotify : { s with isShuttingDown := true }.notify
        (if s.scheduler.numberOfEvents > 0 then .wakeUp else .nothing) wake = some s') :
      Steps A s (.shutdown wake) s'
  | readTime {k : Nat} {currTime : Int} (hget : s.threads[k]? = some .started) :
      Steps A s (.readTime k currTime) (s.setThread k (.shifting currTime))
  | shiftSome {k : Nat} {currTime : Int} {event : TimedEvent α} {scheduler : Scheduler α}
      (hfree : s.mutexKept = false) (hget : s.threads[k]? = some (.shifting currTime))
      (hcall : s.scheduler.shiftEvent currTime = some (some event, scheduler)) :
      Steps A s (.shiftEvent k) { s.setThread k (.removing currTime event) with scheduler }
  | shiftNone {k : Nat} {currTime : Int} {scheduler : Scheduler α}
      (hfree : s.mutexKept = false) (hget : s.threads[k]? = some (.shifting currTime))
      (hcall : s.scheduler.shiftEvent currTime = some (none, scheduler)) :
      Steps A s (.shiftEvent k) { s.setThread k (.deciding currTime) with scheduler }
  | eventRemoved {k : Nat} {currTime : Int} {event : TimedEvent α}
      (hget : s.threads[k]? = some (.removing currTime event)) :
      Steps A s (.eventRemoved k) (s.setThread k (.shifting currTime))
  | decide {k : Nat} {currTime : Int} {s' : ThreadedScheduler α} (hfree : s.mutexKept = false)
      (hget : s.threads[k]? = some (.deciding currTime)) (hsleep : s.sleep k currTime = some s') :
      Steps A s (.decide k) s'
  | leave {k : Nat} {deadline : Int} {woken : Bool} (hfree : s.mutexKept = false)
      (hget : s.threads[k]? = some (.waiting deadline woken)) (hdown : s.isShuttingDown = true) :
      Steps A s (.wakeUp k) { s.setThread k .exited with mutexKept := true }
  | wakeUp {k : Nat} {deadline : Int} {woken : Bool} (hfree : s.mutexKept = false)
      (hget : s.threads[k]? = some (.waiting deadline woken)) (hdown : s.isShuttingDown = false) :
      Steps A s (.wakeUp k) (s.setThread k .started)
  | detach {k : Nat} (hget : s.threads[k]? = some .exiting) :
      Steps A s (.detach k) (s.setThread k .exited)

/-- What becomes of a thread behind its inner loop. -/
inductive Sleeps (s : ThreadedScheduler α) (k : Nat) (currTime : Int) : ThreadedScheduler α → Prop where
  | exiting (hzero : s.scheduler.numberOfEvents = 0) : Sleeps s k currTime (s.setThread k .exiting)
  | leave {firstCell : Cell (TimedEvent α)} (hevents : s.scheduler.numberOfEvents ≠ 0)
      (hfirst : s.scheduler.firstEvent.bind s.scheduler.heap.read = some firstCell)
      (htime : firstCell.val.scheduledAt - currTime > 0) (hdown : s.isShuttingDown = true) :
      Sleeps s k currTime { s.setThread k .exited with mutexKept := true }
  | wait {firstCell : Cell (TimedEvent α)} (hevents : s.scheduler.numberOfEvents ≠ 0)
      (hfirst : s.scheduler.firstEvent.bind s.scheduler.heap.read = some firstCell)
      (htime : firstCell.val.scheduledAt - currTime > 0) (hdown : s.isShuttingDown = false) :
      Sleeps s k currTime (s.setThread k (.waiting firstCell.val.scheduledAt false))
  | lock {firstCell : Cell (TimedEvent α)} (hevents : s.scheduler.numberOfEvents ≠ 0)
      (hfirst : s.scheduler.firstEvent.bind s.scheduler.heap.read = some firstCell)
      (htime : ¬firstCell.val.scheduledAt - currTime > 0) :
      Sleeps s k currTime { s.setThread k .locked with mutexKept := true }

theorem sleeps_of_sleep {currTime : Int} (h : s.sleep k currTime = some s') : s.Sleeps k currTime s' := by
  unfold sleep at h
  split at h
  case isTrue hzero =>
    cases h
    exact .exiting hzero
  case isFalse hevents =>
    obtain ⟨firstCell, hfirst, heq⟩ := Option.map_eq_some_iff.mp h
    rw [← heq]
    dsimp only
    split
    case isTrue htime =>
      split
      case isTrue hdown => exact .leave hevents hfirst htime hdown
      case isFalse hdown => exact .wait hevents hfirst htime (Bool.eq_false_of_not_eq_true hdown)
    case isFalse htime => exact .lock hevents hfirst htime

theorem steps_of_step {a : ThreadAction α} (h : s.step A a = some s') : s.Steps A a s' := by
  unfold step at h
  cases a with
  | insertEvent scheduledAt content wake =>
    dsimp only at h
    split at h
    case isTrue => cases h
    case isFalse hkept =>
      obtain ⟨⟨scheduler, notice⟩, hcall, hnotify⟩ := Option.bind_eq_some_iff.mp h
      exact .insertEvent (Bool.eq_false_of_not_eq_true hkept) hcall hnotify
  | flush filter wake =>
    dsimp only at h
    split at h
    case isTrue => cases h
    case isFalse hkept =>
      obtain ⟨⟨⟨removed, wakeUp⟩, scheduler⟩, hcall, hnotify⟩ := Option.bind_eq_some_iff.mp h
      exact .flush (Bool.eq_false_of_not_eq_true hkept) hcall hnotify
  | shutdown wake =>
    dsimp only at h
    split at h
    case isTrue => cases h
    case isFalse hkept => exact .shutdown (Bool.eq_false_of_not_eq_true hkept) h
  | readTime k currTime =>
    dsimp only at h
    split at h
    case h_1 hget =>
      cases h
      exact .readTime hget
    case h_2 => cases h
  | shiftEvent k =>
    dsimp only at h
    split at h
    case h_1 currTime hget =>
      split at h
      case isTrue => cases h
      case isFalse hkept =>
        obtain ⟨⟨found, scheduler⟩, hcall, heq⟩ := Option.map_eq_some_iff.mp h
        rw [← heq]
        cases found with
        | some event => exact .shiftSome (Bool.eq_false_of_not_eq_true hkept) hget hcall
        | none => exact .shiftNone (Bool.eq_false_of_not_eq_true hkept) hget hcall
    case h_2 => cases h
  | eventRemoved k =>
    dsimp only at h
    split at h
    case h_1 currTime event hget =>
      cases h
      exact .eventRemoved hget
    case h_2 => cases h
  | decide k =>
    dsimp only at h
    split at h
    case h_1 currTime hget =>
      split at h
      case isTrue => cases h
      case isFalse hkept => exact .decide (Bool.eq_false_of_not_eq_true hkept) hget h
    case h_2 => cases h
  | wakeUp k =>
    dsimp only at h
    split at h
    case h_1 deadline woken hget =>
      split at h
      case isTrue => cases h
      case isFalse hkept =>
        split at h
        -- a thread that wakes up behind `Shutdown` leaves
        case isTrue hdown =>
          cases h
          exact .leave (Bool.eq_false_of_not_eq_true hkept) hget hdown
        case isFalse hdown =>
          cases h
          exact .wakeUp (Bool.eq_false_of_not_eq_true hkept) hget (Bool.eq_false_of_not_eq_true hdown)
    case h_2 => cases h
  | detach k =>
    dsimp only at h
    split at h
    case h_1 hget =>
      cases h
      exact .detach hget
    case h_2 => cases h

/-! ## One thread at a time -/

/-- Thread `k` was created and has not left `retry_thread`. -/
def InLoop (s : ThreadedScheduler α) (k : Nat) : Prop :=
  ∃ t, s.threads[k]? = some t ∧ t ≠ .exited

/-- Only the thread that the handle denotes has not left its loop. -/
def OneThread (s : ThreadedScheduler α) : Prop :=
  ∀ k, s.InLoop k → s.retryThreadHandle = some k

/-- An insertion finds the list empty only when every thread created so far has left its loop. -/
def Alone (s : ThreadedScheduler α) : ThreadAction α → Prop
  | .insertEvent _ _ _ => s.scheduler.firstEvent = none → ∀ t ∈ s.threads, t = .exited
  | _ => True

theorem OneThread.setThread (h : s.OneThread) {old : RetryThread α} (hget : s.threads[k]? = some old)
    (hold : old ≠ .exited) (new : RetryThread α) : (s.setThread k new).OneThread := by
  intro j hloop
  rcases hloop with ⟨t, ht, hne⟩
  unfold ThreadedScheduler.setThread at ht
  dsimp only at ht
  by_cases hj : k = j
  · subst hj
    exact h k ⟨old, hget, hold⟩
  · rw [List.getElem?_set_ne hj] at ht
    exact h j ⟨t, ht, hne⟩

theorem OneThread.signal (h : s.OneThread) {threads : List (RetryThread α)}
    (hsignal : ThreadedScheduler.signal s.threads wake = some threads) :
    OneThread { s with threads } := by
  unfold ThreadedScheduler.signal at hsignal
  split at hsignal
  · rename_i deadline hget
    rw [Option.some.injEq] at hsignal
    rw [← hsignal]
    exact h.setThread hget (by simp) _
  · split at hsignal
    · cases hsignal
    · rw [Option.some.injEq] at hsignal
      rw [← hsignal]
      exact h

theorem OneThread.notify (h : s.OneThread) {notice : Notice}
    (hcreate : notice = .createThread → ∀ t ∈ s.threads, t = .exited)
    (hstep : s.notify notice wake = some s') : s'.OneThread := by
  unfold ThreadedScheduler.notify at hstep
  cases notice with
  | createThread =>
    rw [Option.some.injEq] at hstep
    rw [← hstep]
    intro k hloop
    rcases hloop with ⟨t, ht, hne⟩
    show some s.threads.length = some k
    rw [List.getElem?_append] at ht
    split at ht
    · exact absurd (hcreate rfl t (List.mem_of_getElem? ht)) hne
    · rename_i hlt
      have hk := (List.getElem?_eq_some_iff.mp ht).1
      rw [List.length_singleton] at hk
      rw [Option.some.injEq]
      omega
  | wakeUp =>
    rcases Option.map_eq_some_iff.mp hstep with ⟨threads, hsignal, heq⟩
    rw [← heq]
    exact h.signal hsignal
  | nothing =>
    rw [Option.some.injEq] at hstep
    rw [← hstep]
    exact h

/-- A thread is created for an empty list only. -/
theorem insertEvent_createThread {scheduler scheduler' : Scheduler α} {e : TimedEvent α}
    (h : scheduler.insertEvent A e = some (scheduler', .createThread)) :
    scheduler.firstEvent = none := by
  unfold Scheduler.insertEvent at h
  cases hfirst : scheduler.firstEvent with
  | none => rfl
  | some firstEvent =>
    simp only [hfirst] at h
    rcases Option.bind_eq_some_iff.mp h with ⟨firstCell, -, h⟩
    split at h
    · simp at h
    · rcases Option.bind_eq_some_iff.mp h with ⟨currEvent, -, h⟩
      rcases Option.bind_eq_some_iff.mp h with ⟨cell, -, h⟩
      rcases Option.map_eq_some_iff.mp h with ⟨heap, -, h⟩
      simp at h

theorem sleep_oneThread {currTime : Int} (h : s.OneThread) (hget : s.threads[k]? = some t)
    (ht : t ≠ .exited) (hstep : s.sleep k currTime = some s') : s'.OneThread := by
  have hset (new : RetryThread α) : (s.setThread k new).OneThread := h.setThread hget ht new
  cases sleeps_of_sleep hstep with
  | exiting => exact hset _
  | leave => exact hset .exited
  | wait => exact hset _
  | lock => exact hset .locked

theorem step_oneThread (h : s.OneThread) {a : ThreadAction α} (hok : s.Alone a)
    (hstep : s.step A a = some s') : s'.OneThread := by
  cases steps_of_step hstep with
  | @insertEvent _ _ _ scheduler _ _ _ hcall hnotify =>
    have hone : OneThread { s with scheduler, inserted := s.inserted + 1 } := h
    apply hone.notify _ hnotify
    intro hcreate
    rw [hcreate] at hcall
    exact hok (insertEvent_createThread hcall)
  | @flush _ _ _ _ scheduler _ _ _ hnotify =>
    have hone : OneThread { s with scheduler } := h
    apply hone.notify _ hnotify
    split <;> exact nofun
  | shutdown _ hnotify =>
    have hone : OneThread { s with isShuttingDown := true } := h
    apply hone.notify _ hnotify
    split <;> exact nofun
  | readTime hget => exact h.setThread hget nofun _
  | shiftSome _ hget _ => exact h.setThread hget nofun (.removing _ _)
  | shiftNone _ hget _ => exact h.setThread hget nofun (.deciding _)
  | eventRemoved hget => exact h.setThread hget nofun _
  | decide _ hget hsleep => exact sleep_oneThread h hget nofun hsleep
  | leave _ hget _ => exact h.setThread hget nofun .exited
  | wakeUp _ hget _ => exact h.setThread hget nofun _
  | detach hget => exact h.setThread hget nofun _

theorem start_oneThread (α : Type) : (start α).OneThread := by
  intro k hloop
  rcases hloop with ⟨t, ht, -⟩
  simp [start] at ht

instance (s : ThreadedScheduler α) : (a : ThreadAction α) → Decidable (s.Alone a)
  | .insertEvent _ _ _ =>
      decidable_of_iff (s.scheduler.firstEvent.isNone → ∀ t ∈ s.threads, t.isExited) (by
        simp only [Alone, Option.isNone_iff_eq_none, RetryThread.isExited_iff])
  | .flush _ _ | .shutdown _ | .readTime _ _ | .shiftEvent _ | .eventRemoved _ | .decide _
  | .wakeUp _ | .detach _ => .isTrue trivial

/-- In every run in which an insertion finds the list empty only when every retry thread has left its
loop, at most one thread is in its loop, and the handle denotes it. -/
theorem oneThread_of_run (A : Allocator (TimedEvent α)) (actions : List (ThreadAction α))
    (s : ThreadedScheduler α) (hmeets : Meets (step A) Alone (start α) actions)
    (hrun : run (step A) (start α) actions = some s) :
    (∀ j k, s.InLoop j → s.InLoop k → j = k) ∧ ∀ k, s.InLoop k → s.retryThreadHandle = some k := by
  have hone : s.OneThread :=
    run_invariant (fun _ _ _ h hok hstep ↦ step_oneThread h hok hstep) (start_oneThread α) hmeets hrun
  refine ⟨?_, hone⟩
  intro j k hj hk
  have hhandle := hone j hj
  rw [hone k hk, Option.some.injEq] at hhandle
  exact hhandle.symm

/-- The next event is inserted when the thread of the first one has detached itself. -/
def insertedApart : List (ThreadAction Unit) :=
  [.insertEvent 10 () 0, .readTime 0 10, .shiftEvent 0, .eventRemoved 0, .shiftEvent 0, .decide 0,
    .detach 0, .insertEvent 20 () 0]

theorem oneThread_insertedApart : ∃ s,
    run (step (.bump (TimedEvent Unit))) (start Unit) insertedApart = some s ∧
      s.threads = [.exited, .started] ∧ ∀ j k, s.InLoop j → s.InLoop k → j = k :=
  ⟨_, rfl, rfl, (oneThread_of_run (.bump (TimedEvent Unit)) insertedApart _ (by decide) rfl).1⟩

/-- An event is inserted while `event_removed` has the only one that was there: a scheduled workflow ends
and is scheduled again.  Both threads are in their loops. -/
theorem twoThreads_insertedByEvent : ∃ s,
    run (step (.bump (TimedEvent Unit))) (start Unit)
      [.insertEvent 10 () 0, .readTime 0 10, .shiftEvent 0, .insertEvent 20 () 0] = some s ∧
      s.InLoop 0 ∧ s.InLoop 1 ∧ s.retryThreadHandle = some 1 :=
  ⟨_, rfl, ⟨_, rfl, by decide⟩, ⟨_, rfl, by decide⟩, rfl⟩

end ThreadedScheduler

end EvQueue
