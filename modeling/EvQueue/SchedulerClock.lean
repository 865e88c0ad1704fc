import EvQueue.SchedulerThreads

/-!
# SchedulerClock — how long a retry thread sleeps

The thread reads the time once, lets all due events be removed, and then waits for as long as the next
event was away at the time read.  A deadline is computed from the clock as it is after the removals.  Time
passes between any two steps; the clock counts nanoseconds.
-/

namespace EvQueue

open Cells Runs

/-- A call of `pthread_cond_timedwait`: its absolute deadline, and the first event at that time. -/
structure TimedWait (α : Type) where
  deadline : Int
  firstEvent : TimedEvent α
deriving DecidableEq, Repr

/-- The deadline is not later than the event. -/
def TimedWait.InTime {α : Type} (w : TimedWait α) : Prop :=
  w.deadline ≤ w.firstEvent.scheduledAt * 10 ^ 9

instance {α : Type} (w : TimedWait α) : Decidable w.InTime := inferInstanceAs (Decidable (_ ≤ _))

/-- The scheduler under a clock, with the waits so far. -/
structure ClockedScheduler (α : Type) where
  scheduler : ThreadedScheduler α
  clock : Int
  waits : List (TimedWait α)
deriving DecidableEq, Repr

inductive ClockedAction (α : Type) where
  /-- Time passes, in `event_removed` or elsewhere. -/
  | pass (nanoseconds : Nat)
  | act (action : ThreadAction α)

namespace RetryThread

variable {α : Type}

/-- `curr_time`, while it is in use. -/
def currTime? : RetryThread α → Option Int
  | .shifting currTime | .removing currTime _ | .deciding currTime => some currTime
  | _ => none

end RetryThread

namespace ThreadedScheduler

variable {α : Type} {A : Allocator (TimedEvent α)} {s s' : ThreadedScheduler α} {k wake : Nat}
variable {currTime : Int}

/-- `first_event`. -/
def first (s : ThreadedScheduler α) : Option (TimedEvent α) :=
  (s.scheduler.firstEvent.bind s.scheduler.heap.read).map fun cell ↦ cell.val

/-! ## Where a thread has its time from -/

/-- A thread that has a time has it from `s`. -/
def TimesFrom (s : ThreadedScheduler α) (threads : List (RetryThread α)) : Prop :=
  ∀ t ∈ threads, ∀ currTime, t.currTime? = some currTime →
    ∃ t' ∈ s.threads, t'.currTime? = some currTime

theorem timesFrom_set {old : RetryThread α} (new : RetryThread α) (hget : s.threads[k]? = some old)
    (hnew : new.currTime? = none ∨ new.currTime? = old.currTime?) :
    s.TimesFrom (s.threads.set k new) := by
  intro t ht currTime htime
  rcases List.mem_or_eq_of_mem_set ht with hmem | rfl
  · exact ⟨t, hmem, htime⟩
  · rcases hnew with hnone | hsame
    · rw [hnone] at htime
      cases htime
    · exact ⟨old, List.mem_of_getElem? hget, hsame ▸ htime⟩

theorem timesFrom_signal {threads : List (RetryThread α)} (h : signal s.threads wake = some threads) :
    s.TimesFrom threads := by
  unfold signal at h
  split at h
  · rename_i deadline hget
    rw [Option.some.injEq] at h
    rw [← h]
    exact timesFrom_set _ hget (.inl rfl)
  · split at h
    · cases h
    · rw [Option.some.injEq] at h
      rw [← h]
      exact fun t ht currTime htime ↦ ⟨t, ht, htime⟩

theorem timesFrom_notify {notice : Notice} (h : s.notify notice wake = some s') :
    s.TimesFrom s'.threads := by
  unfold notify at h
  cases notice with
  | createThread =>
    rw [Option.some.injEq] at h
    rw [← h]
    intro t ht currTime htime
    rcases List.mem_append.mp ht with hmem | hnew
    · exact ⟨t, hmem, htime⟩
    · rw [List.mem_singleton.mp hnew] at htime
      cases htime
  | wakeUp =>
    obtain ⟨threads, hsignal, heq⟩ := Option.map_eq_some_iff.mp h
    rw [← heq]
    exact timesFrom_signal hsignal
  | nothing =>
    rw [Option.some.injEq] at h
    rw [← h]
    exact fun t ht currTime htime ↦ ⟨t, ht, htime⟩

/-- A thread that goes to wait, or leaves its loop, has no more use for the time. -/
theorem timesFrom_sleep (hget : s.threads[k]? = some (.deciding currTime))
    (h : s.sleep k currTime = some s') : s.TimesFrom s'.threads := by
  cases sleeps_of_sleep h with
  | exiting => exact timesFrom_set .exiting hget (.inl rfl)
  | leave => exact timesFrom_set .exited hget (.inl rfl)
  | wait => exact timesFrom_set (.waiting _ false) hget (.inl rfl)
  | lock => exact timesFrom_set .locked hget (.inl rfl)

/-- A thread has its time from a step before, or it has just read it. -/
theorem timesFrom_step {a : ThreadAction α} (h : s.step A a = some s') :
    ∀ t ∈ s'.threads, ∀ currTime, t.currTime? = some currTime →
      (∃ t' ∈ s.threads, t'.currTime? = some currTime) ∨ ∃ k, a = .readTime k currTime := by
  intro t ht currTime htime
  cases steps_of_step h with
  | insertEvent _ _ hnotify => exact .inl (timesFrom_notify hnotify t ht currTime htime)
  | flush _ _ hnotify => exact .inl (timesFrom_notify hnotify t ht currTime htime)
  | shutdown _ hnotify => exact .inl (timesFrom_notify hnotify t ht currTime htime)
  | @readTime k _ hget =>
    rcases List.mem_or_eq_of_mem_set ht with hmem | rfl
    · exact .inl ⟨t, hmem, htime⟩
    · cases htime
      exact .inr ⟨k, rfl⟩
  | shiftSome _ hget _ => exact .inl (timesFrom_set (.removing _ _) hget (.inr rfl) t ht currTime htime)
  | shiftNone _ hget _ => exact .inl (timesFrom_set (.deciding _) hget (.inr rfl) t ht currTime htime)
  | eventRemoved hget => exact .inl (timesFrom_set (.shifting _) hget (.inr rfl) t ht currTime htime)
  | decide _ hget hsleep => exact .inl (timesFrom_sleep hget hsleep t ht currTime htime)
  | leave _ hget _ => exact .inl (timesFrom_set _ hget (.inl rfl) t ht currTime htime)
  | wakeUp _ hget _ => exact .inl (timesFrom_set _ hget (.inl rfl) t ht currTime htime)
  | detach hget => exact .inl (timesFrom_set _ hget (.inl rfl) t ht currTime htime)

end ThreadedScheduler

namespace ClockedScheduler

variable {α : Type} {A : Allocator (TimedEvent α)} {s s' : ClockedScheduler α} {k : Nat}
variable {currTime : Int} {e : TimedEvent α}

def start (α : Type) (clock : Int) : ClockedScheduler α :=
  { scheduler := .start α, clock, waits := [] }

/-- A thread that has read `currTime` goes to wait for the first event. -/
def GoesToWait (s : ClockedScheduler α) (k : Nat) (currTime : Int) (e : TimedEvent α) : Prop :=
  s.scheduler.threads[k]? = some (.deciding currTime) ∧ s.scheduler.scheduler.numberOfEvents ≠ 0 ∧
    s.scheduler.first = some e ∧ e.scheduledAt - currTime > 0 ∧ s.scheduler.isShuttingDown = false

/-- The wait that thread `k` starts: `clock_gettime` is called for its deadline, and the time to sleep is
added to it. -/
def timedWait (s : ClockedScheduler α) (k : Nat) : Option (TimedWait α) :=
  match s.scheduler.threads[k]?, s.scheduler.first with
  | some (.deciding currTime), some firstEvent =>
      let timeToSleep := firstEvent.scheduledAt - currTime
      if s.scheduler.scheduler.numberOfEvents ≠ 0 ∧ timeToSleep > 0 ∧ s.scheduler.isShuttingDown = false then
        some ⟨s.clock + timeToSleep * 10 ^ 9, firstEvent⟩
      else none
  | _, _ => none

def step (A : Allocator (TimedEvent α)) (s : ClockedScheduler α) :
    ClockedAction α → Option (ClockedScheduler α)
  | .pass nanoseconds => some { s with clock := s.clock + nanoseconds }
  | .act (.readTime k currTime) =>
      -- `time(0)` is in seconds
      if currTime = s.clock / 10 ^ 9 then
        (s.scheduler.step A (.readTime k currTime)).map fun scheduler ↦ { s with scheduler }
      else none
  | .act (.decide k) =>
      (s.scheduler.step A (.decide k)).map fun scheduler ↦
        { s with scheduler, waits := s.waits ++ (s.timedWait k).toList }
  | .act action => (s.scheduler.step A action).map fun scheduler ↦ { s with scheduler }

/-- When the thread goes to wait, the clock is still at the second that it has read. -/
def OnTime (s : ClockedScheduler α) : ClockedAction α → Prop
  | .act (.decide k) => ∀ currTime e, s.GoesToWait k currTime e → s.clock = currTime * 10 ^ 9
  | _ => True

theorem timedWait_eq_some {w : TimedWait α} : s.timedWait k = some w ↔ ∃ currTime e,
    s.GoesToWait k currTime e ∧ w = ⟨s.clock + (e.scheduledAt - currTime) * 10 ^ 9, e⟩ := by
  unfold timedWait GoesToWait
  constructor
  · intro h
    split at h
    · rename_i currTime e hthread hfirst
      dsimp only at h
      split at h
      · rename_i hwaits
        rw [Option.some.injEq] at h
        exact ⟨currTime, e, ⟨hthread, hwaits.1, hfirst, hwaits.2.1, hwaits.2.2⟩, h.symm⟩
      · cases h
    · cases h
  · rintro ⟨currTime, e, ⟨hthread, hevents, hfirst, hsleep, hdown⟩, rfl⟩
    rw [hthread, hfirst]
    exact if_pos ⟨hevents, hsleep, hdown⟩

/-- The waits recorded are those of the threads. -/
theorem waiting_iff (h : s.step A (.act (.decide k)) = some s') :
    (∃ deadline woken, s'.scheduler.threads[k]? = some (.waiting deadline woken)) ↔
      (s.timedWait k).isSome = true := by
  obtain ⟨scheduler, hstep, rfl⟩ := Option.map_eq_some_iff.mp h
  cases ThreadedScheduler.steps_of_step hstep with
  | @decide _ currTime _ _ hget hsleep =>
    have hset (new : RetryThread α) : (s.scheduler.setThread k new).threads[k]? = some new :=
      List.getElem?_set_self (List.getElem?_eq_some_iff.mp hget).1
    unfold timedWait ThreadedScheduler.first
    rw [hget]
    cases ThreadedScheduler.sleeps_of_sleep hsleep with
    | exiting hzero =>
      rw [hset]
      dsimp only
      split <;> simp [hzero]
    | leave _ hfirst _ hdown =>
      rw [hfirst]
      simp [hset, hdown]
    | wait hevents hfirst htime hdown =>
      have hlate := Int.sub_pos.mp htime
      rw [hfirst, hset]
      simp [hevents, hlate, hdown]
    | lock _ hfirst htime =>
      have hdue := mt Int.sub_pos.mpr htime
      rw [hfirst]
      simp [hset, hdue]

/-! ## The deadlines of a run -/

/-- No thread has a time from the future. -/
def Past (s : ClockedScheduler α) : Prop :=
  ∀ t ∈ s.scheduler.threads, ∀ currTime, t.currTime? = some currTime → currTime * 10 ^ 9 ≤ s.clock

/-- A deadline is late by what the clock has gone since the time was read. -/
theorem timedWait_late {w : TimedWait α} (hpast : s.Past) (h : s.timedWait k = some w) :
    ∃ currTime, s.GoesToWait k currTime w.firstEvent ∧ currTime * 10 ^ 9 ≤ s.clock ∧
      w.deadline - w.firstEvent.scheduledAt * 10 ^ 9 = s.clock - currTime * 10 ^ 9 := by
  obtain ⟨currTime, e, hgoes, rfl⟩ := timedWait_eq_some.mp h
  refine ⟨currTime, hgoes, hpast _ (List.mem_of_getElem? hgoes.1) currTime rfl, ?_⟩
  dsimp only
  omega

theorem onTime_decide_iff (hpast : s.Past) :
    s.OnTime (.act (.decide k)) ↔ ∀ w ∈ s.timedWait k, w.InTime := by
  constructor
  · intro hon w hw
    obtain ⟨currTime, hgoes, -, hlate⟩ := timedWait_late hpast hw
    have hclock := hon currTime w.firstEvent hgoes
    unfold TimedWait.InTime
    omega
  · intro htime currTime e hgoes
    have hw := timedWait_eq_some.mpr ⟨currTime, e, hgoes, rfl⟩
    have hle := hpast _ (List.mem_of_getElem? hgoes.1) currTime rfl
    have hin := htime _ hw
    unfold TimedWait.InTime at hin
    dsimp only at hin
    omega

/-- What a step records, and that no time is from the future. -/
theorem step_waits {a : ClockedAction α} (hpast : s.Past) (h : s.step A a = some s') :
    s'.Past ∧ ((∀ w ∈ s'.waits, w.InTime) ↔ (∀ w ∈ s.waits, w.InTime) ∧ s.OnTime a) := by
  have hact : ∀ {action : ThreadAction α} {scheduler : ThreadedScheduler α} (waits : List (TimedWait α)),
      s.scheduler.step A action = some scheduler →
      (∀ k currTime, action = .readTime k currTime → currTime = s.clock / 10 ^ 9) →
      Past { s with scheduler, waits } := by
    intro action scheduler waits hstep hread t ht currTime htime
    rcases ThreadedScheduler.timesFrom_step hstep t ht currTime htime with ⟨t', ht', htime'⟩ | ⟨k, hk⟩
    · exact hpast t' ht' currTime htime'
    · have hnow := hread k currTime hk
      dsimp only
      omega
  cases a with
  | pass nanoseconds =>
    cases h
    refine ⟨?_, by simp [OnTime]⟩
    intro t ht currTime htime
    have hle := hpast t ht currTime htime
    dsimp only
    omega
  | act action =>
    cases action with
    | readTime k currTime =>
      unfold step at h
      dsimp only at h
      split at h
      · rename_i hnow
        obtain ⟨scheduler, hstep, rfl⟩ := Option.map_eq_some_iff.mp h
        refine ⟨hact s.waits hstep ?_, by simp [OnTime]⟩
        rintro k' currTime' heq
        cases heq
        exact hnow
      · cases h
    | decide k =>
      obtain ⟨scheduler, hstep, rfl⟩ := Option.map_eq_some_iff.mp h
      refine ⟨hact _ hstep nofun, ?_⟩
      rw [onTime_decide_iff hpast]
      simp only [List.mem_append, Option.mem_toList, Option.mem_def, or_imp, forall_and]
    -- no other step reads the clock or goes to wait
    | insertEvent _ _ _ | flush _ _ | shutdown _ | shiftEvent _ | eventRemoved _ | wakeUp _ | detach _ =>
      obtain ⟨scheduler, hstep, rfl⟩ := Option.map_eq_some_iff.mp h
      exact ⟨hact s.waits hstep nofun, by simp [OnTime]⟩

theorem run_waits {actions : List (ClockedAction α)} (hpast : s.Past)
    (hrun : run (step A) s actions = some s') :
    (∀ w ∈ s'.waits, w.InTime) ↔ (∀ w ∈ s.waits, w.InTime) ∧ Meets (step A) OnTime s actions := by
  induction actions generalizing s with
  | nil =>
    obtain rfl : s = s' := by simpa using hrun
    exact ⟨fun h ↦ ⟨h, trivial⟩, And.left⟩
  | cons a actions ih =>
    obtain ⟨next, hstep, hrest⟩ := run_cons_eq_some hrun
    obtain ⟨hpast', hwaits⟩ := step_waits hpast hstep
    rw [ih hpast' hrest, hwaits, and_assoc]
    have hmeets : Meets (step A) OnTime s (a :: actions) ↔ s.OnTime a ∧ Meets (step A) OnTime next actions :=
      ⟨fun h ↦ ⟨h.1, h.2 next hstep⟩, fun h ↦ Meets.cons h.1 hstep h.2⟩
    rw [hmeets]

/-- In every run, no wait lasts past the event it waits for exactly when, wherever a thread goes to wait, the
clock has not moved on from the second that the thread has read before the removals. -/
theorem inTime_of_run (A : Allocator (TimedEvent α)) (clock : Int) (actions : List (ClockedAction α))
    (s : ClockedScheduler α) (hrun : run (step A) (start α clock) actions = some s) :
    (∀ w ∈ s.waits, w.InTime) ↔ Meets (step A) OnTime (start α clock) actions := by
  have hpast : (start α clock).Past := by
    intro t ht
    cases ht
  have hnone : ∀ w ∈ (start α clock).waits, w.InTime := by
    intro w hw
    cases hw
  rw [run_waits hpast hrun]
  exact and_iff_right hnone

/-- An event at second 10 is removed, and one at second 20 is waited for, all within one nanosecond. -/
def removedAtOnce : List (ClockedAction Unit) :=
  [.act (.insertEvent 10 () 0), .act (.insertEvent 20 () 0), .act (.readTime 0 10), .act (.shiftEvent 0),
    .act (.eventRemoved 0), .act (.shiftEvent 0), .act (.decide 0)]

theorem inTime_removedAtOnce : ∃ s, run (step (.bump (TimedEvent Unit))) (start Unit (10 * 10 ^ 9))
    removedAtOnce = some s ∧ s.waits = [⟨20 * 10 ^ 9, ⟨20, (), 1⟩⟩] ∧
      ((∀ w ∈ s.waits, w.InTime) ↔
        Meets (step (.bump (TimedEvent Unit))) OnTime (start Unit (10 * 10 ^ 9)) removedAtOnce) :=
  ⟨_, rfl, rfl, inTime_of_run (.bump (TimedEvent Unit)) (10 * 10 ^ 9) removedAtOnce _ rfl⟩

/-- The removal of the first event takes five seconds: the thread sleeps until second 25. -/
theorem late_slowRemoval : ∃ s, run (step (.bump (TimedEvent Unit))) (start Unit (10 * 10 ^ 9))
    [.act (.insertEvent 10 () 0), .act (.insertEvent 20 () 0), .act (.readTime 0 10), .act (.shiftEvent 0),
      .pass (5 * 10 ^ 9), .act (.eventRemoved 0), .act (.shiftEvent 0), .act (.decide 0)] = some s ∧
    s.waits = [⟨25 * 10 ^ 9, ⟨20, (), 1⟩⟩] ∧ ¬∀ w ∈ s.waits, w.InTime :=
  ⟨_, rfl, rfl, by decide⟩

end ClockedScheduler

end EvQueue
