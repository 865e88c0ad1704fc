import EvQueue.SchedulerThreads

/-!
# SchedulerAttended — a thread for the first event

A thread that sleeps until the first event is due has to be woken up for an event that is inserted before
it, and none is there for the list once a thread has found it empty.  The invariant is that some thread
attends the first event: it has not begun to exit, and does not sleep beyond the time of the event.
-/

namespace EvQueue

open Cells Runs

namespace ThreadedScheduler

variable {α : Type} {A : Allocator (TimedEvent α)} {s s' : ThreadedScheduler α} {k wake : Nat}
variable {e x : TimedEvent α} {events : List (TimedEvent α)} {threads : List (RetryThread α)}

/-! ## Threads that attend an event -/

def Attended (threads : List (RetryThread α)) (e : TimedEvent α) : Prop :=
  ∃ t ∈ threads, t.attends e

/-- A thread goes on, and attends what it attended before. -/
theorem Attended.set (h : Attended threads e) {old new : RetryThread α} (hget : threads[k]? = some old)
    (hkeeps : old.attends e → new.attends e) : Attended (threads.set k new) e := by
  rcases h with ⟨t, ht, hattends⟩
  rcases List.getElem?_of_mem ht with ⟨j, hj⟩
  by_cases hjk : k = j
  · subst hjk
    rw [hget, Option.some.injEq] at hj
    rw [← hj] at hattends
    exact ⟨new, List.mem_set (List.getElem?_eq_some_iff.mp hget).1 new, hkeeps hattends⟩
  · refine ⟨t, List.mem_of_getElem? (i := j) ?_, hattends⟩
    rw [List.getElem?_set_ne hjk]
    exact hj

theorem attended_set {old new : RetryThread α} (hget : threads[k]? = some old) (hnew : new.attends e) :
    Attended (threads.set k new) e :=
  ⟨new, List.mem_set (List.getElem?_eq_some_iff.mp hget).1 new, hnew⟩

/-- A thread that is not blocked attends every event. -/
theorem attends_of_not_blocked {t : RetryThread α} (h : t.attends e) (hblocked : t.blocked = false) :
    t.attends x := by
  cases t with
  | waiting deadline woken =>
    cases woken with
    | true => exact .inl rfl
    | false => cases hblocked
  | exiting => exact h
  | exited => exact h
  | _ => trivial

/-- Behind a signal some thread attends every event, also one that is due before the old first one. -/
theorem Attended.signal (h : Attended threads e) {threads' : List (RetryThread α)}
    (hsignal : ThreadedScheduler.signal threads wake = some threads') : Attended threads' x := by
  unfold ThreadedScheduler.signal at hsignal
  split at hsignal
  · rename_i deadline hget
    rw [Option.some.injEq] at hsignal
    rw [← hsignal]
    exact attended_set hget (.inl rfl)
  · split at hsignal
    · cases hsignal
    · rename_i hany
      rw [Option.some.injEq] at hsignal
      rw [← hsignal]
      -- no thread is blocked: the one that attended the old event is on its way to the list
      rcases h with ⟨t, ht, hattends⟩
      have hblocked : t.blocked = false := by
        by_contra hne
        exact hany (List.any_eq_true.mpr ⟨t, ht, by simpa using hne⟩)
      exact ⟨t, ht, attends_of_not_blocked hattends hblocked⟩

/-! ## The invariant -/

/-- The events are in their order, they are fewer than 2^32, and some thread attends the first one unless
a shutdown was requested. -/
structure Served (s : ThreadedScheduler α) (events : List (TimedEvent α)) : Prop where
  ordered : ∃ handed, Scheduling.Inv ⟨s.scheduler, s.inserted, handed⟩ events
  few : events.length < 2 ^ 32
  attended : s.isShuttingDown = false → ∀ e ∈ events.head?, Attended s.threads e

/-- The counter does not wrap. -/
def Countable (s : ThreadedScheduler α) : ThreadAction α → Prop
  | .insertEvent _ _ _ => s.scheduler.numberOfEvents ≠ 2 ^ 32 - 1
  | _ => True

theorem Served.count (h : s.Served events) : s.scheduler.numberOfEvents.toNat = events.length := by
  rcases h.ordered with ⟨handed, hinv⟩
  have hcount : s.scheduler.numberOfEvents = UInt32.ofNat events.length := hinv.count
  rw [hcount, UInt32.toNat_ofNat']
  exact Nat.mod_eq_of_lt h.few

theorem Served.zero_iff (h : s.Served events) : s.scheduler.numberOfEvents = 0 ↔ events = [] := by
  rw [← UInt32.toNat_inj, h.count]
  exact List.length_eq_zero_iff

/-- A thread goes on. -/
theorem Served.setThread (h : s.Served events) {old new : RetryThread α}
    (hget : s.threads[k]? = some old)
    (hkeeps : s.isShuttingDown = false → ∀ e ∈ events.head?, old.attends e → new.attends e) :
    (s.setThread k new).Served events where
  ordered := h.ordered
  few := h.few
  attended hdown e he := (h.attended hdown e he).set hget (hkeeps hdown e he)

/-- The thread is created, woken up, or left where it attends the first event already. -/
theorem notify_served (hordered : ∃ handed, Scheduling.Inv ⟨s.scheduler, s.inserted, handed⟩ events)
    (hfew : events.length < 2 ^ 32) {notice : Notice}
    (hnotice : notice ≠ .createThread → s.isShuttingDown = false → ∀ e ∈ events.head?,
      ∃ x, Attended s.threads x ∧ (notice = .nothing → x = e))
    (hstep : s.notify notice wake = some s') : s'.Served events := by
  unfold notify at hstep
  cases notice with
  | createThread =>
    rw [Option.some.injEq] at hstep
    rw [← hstep]
    refine ⟨hordered, hfew, ?_⟩
    intro _ e _
    exact ⟨.started, by simp, trivial⟩
  | wakeUp =>
    rcases Option.map_eq_some_iff.mp hstep with ⟨threads, hsignal, heq⟩
    rw [← heq]
    refine ⟨hordered, hfew, ?_⟩
    intro hdown e he
    rcases hnotice nofun hdown e he with ⟨x, hx, -⟩
    exact hx.signal hsignal
  | nothing =>
    rw [Option.some.injEq] at hstep
    rw [← hstep]
    refine ⟨hordered, hfew, ?_⟩
    intro hdown e he
    rcases hnotice nofun hdown e he with ⟨x, hx, heq⟩
    rw [← heq rfl]
    exact hx

/-- An event that does not become the first leaves the first one where it is. -/
theorem head_insert (hnotice : Scheduler.noticeOf x events = .nothing) :
    (events.orderedInsert Scheduler.earlier x).head? = events.head? := by
  cases events with
  | nil => simp [Scheduler.noticeOf] at hnotice
  | cons y events =>
    unfold Scheduler.noticeOf at hnotice
    dsimp only at hnotice
    by_cases hlt : x.scheduledAt < y.scheduledAt
    · rw [if_pos hlt] at hnotice
      cases hnotice
    · rw [List.orderedInsert_cons, if_neg hlt]
      rfl

theorem insertEvent_served (h : s.Served events) {scheduledAt : Int} {content : α}
    (hok : s.Countable (.insertEvent scheduledAt content wake))
    (hstep : s.step A (.insertEvent scheduledAt content wake) = some s') :
    ∃ events', s'.Served events' := by
  cases steps_of_step hstep with
  | @insertEvent _ _ _ scheduler notice _ _ hcall hnotify =>
    rcases h.ordered with ⟨handed, hinv⟩
    rcases Scheduling.insertEvent_inv A hinv scheduledAt content with ⟨t, ht, hordered⟩
    simp only [Scheduling.step, hcall, Option.map_some, Option.some.injEq] at ht
    rw [← ht] at hordered
    rcases Scheduler.Holds.insertEvent A hinv.holds ⟨scheduledAt, content, s.inserted⟩ with
      ⟨scheduler', notice', hcall', -, -, hnotice⟩
    rw [hcall, Option.some.injEq, Prod.mk.injEq] at hcall'
    rw [← hcall'.2] at hnotice
    have hfew : (events.orderedInsert Scheduler.earlier ⟨scheduledAt, content, s.inserted⟩).length
        < 2 ^ 32 := by
      have hne : s.scheduler.numberOfEvents.toNat ≠ 2 ^ 32 - 1 :=
        fun heq ↦ hok (UInt32.toNat_inj.mp heq)
      have hlt := h.few
      rw [h.count] at hne
      rw [List.orderedInsert_length]
      omega
    refine ⟨_, notify_served ⟨handed, hordered⟩ hfew ?_ hnotify⟩
    intro hcreate hdown e he
    rw [hnotice] at hcreate
    cases events with
    | nil => exact absurd rfl hcreate
    | cons y events =>
      refine ⟨y, h.attended hdown y rfl, ?_⟩
      intro hnothing
      rw [hnotice] at hnothing
      rw [head_insert hnothing] at he
      exact Option.some.inj he

/-- The first event stays the first one unless it is flushed. -/
theorem head_flush {p : TimedEvent α → Bool} (hfirst : events.head?.any p = false) :
    (events.filter fun e ↦ !p e).head? = events.head? := by
  cases events with
  | nil => rfl
  | cons y events =>
    rw [List.head?_cons, Option.any_some] at hfirst
    rw [List.filter_cons_of_pos (by simp [hfirst])]
    rfl

theorem flush_served (h : s.Served events) {filter : Option (TimedEvent α → Bool)}
    (hstep : s.step A (.flush filter wake) = some s') : ∃ events', s'.Served events' := by
  cases steps_of_step hstep with
  | @flush _ _ removed wakeUp scheduler _ _ hcall hnotify =>
    rcases h.ordered with ⟨handed, hinv⟩
    rcases Scheduling.flush_inv A hinv filter with ⟨t, -, kept, ht, hordered, -⟩
    simp only [Scheduling.step, hcall, Option.map_some, Option.some.injEq] at ht
    rw [← ht] at hordered
    have hspec := Scheduler.Holds.flush hinv.holds filter
    split at hspec
    · rw [hcall] at hspec
      simp only [Option.some.injEq, Prod.mk.injEq] at hspec
      rw [hspec.1.2, hspec.2] at hnotify
      refine ⟨events, notify_served ⟨handed, hinv⟩ h.few ?_ hnotify⟩
      exact fun _ hdown e he ↦ ⟨e, h.attended hdown e he, fun _ ↦ rfl⟩
    · rcases hspec with ⟨scheduler', hcall', hholds, -⟩
      rw [hcall] at hcall'
      simp only [Option.some.injEq, Prod.mk.injEq] at hcall'
      rw [← hcall'.2] at hholds
      have hkept : kept = events.filter fun e ↦ !Scheduler.passes filter e :=
        hordered.holds.unique hholds
      have hfew : kept.length < 2 ^ 32 := by
        rw [hkept]
        exact Nat.lt_of_le_of_lt (List.length_filter_le _ _) h.few
      refine ⟨kept, notify_served ⟨_, hordered⟩ hfew ?_ hnotify⟩
      intro _ hdown e he
      rw [hkept] at he
      cases wakeUp with
      | true =>
        cases events with
        | nil => cases he
        | cons y events => exact ⟨y, h.attended hdown y rfl, by simp⟩
      | false =>
        rw [head_flush hcall'.1.2.symm] at he
        exact ⟨e, h.attended hdown e he, fun _ ↦ rfl⟩

/-- A thread that will lock the mutex again attends every event. -/
theorem served_of_awake (hordered : ∃ handed, Scheduling.Inv ⟨s.scheduler, s.inserted, handed⟩ events)
    (hfew : events.length < 2 ^ 32) {t : RetryThread α} (hget : s.threads[k]? = some t)
    (ht : ∀ e, t.attends e) : s.Served events :=
  ⟨hordered, hfew, fun _ e _ ↦ ⟨t, List.mem_of_getElem? hget, ht e⟩⟩

/-- Whatever `shift_event` hands out, the thread comes back to the list. -/
theorem shiftEvent_served (A : Allocator (TimedEvent α)) (h : s.Served events) {old : RetryThread α}
    (new : RetryThread α) (hget : s.threads[k]? = some old) (hnew : ∀ e, new.attends e) {currTime : Int}
    {found : Option (TimedEvent α)} {scheduler : Scheduler α}
    (hcall : s.scheduler.shiftEvent currTime = some (found, scheduler)) :
    ∃ events', Served { s.setThread k new with scheduler } events' := by
  have hset : (s.threads.set k new)[k]? = some new :=
    List.getElem?_set_self (List.getElem?_eq_some_iff.mp hget).1
  rcases h.ordered with ⟨handed, hinv⟩
  rcases Scheduling.shiftEvent_inv A hinv currTime with
    ⟨t, found', rest, ht, hordered, -, hevents⟩
  simp only [Scheduling.step, hcall, Option.map_some, Option.some.injEq] at ht
  rw [← ht] at hordered
  have hfew : rest.length < 2 ^ 32 := by
    have hlt := h.few
    rw [hevents, List.length_append] at hlt
    omega
  exact ⟨rest, served_of_awake ⟨_, hordered⟩ hfew hset hnew⟩

/-- A thread leaves its loop for an empty list only, and sleeps until the first event is due. -/
theorem sleep_served (h : s.Served events) {t : RetryThread α} (hget : s.threads[k]? = some t)
    {currTime : Int} (hstep : s.sleep k currTime = some s') : s'.Served events := by
  cases sleeps_of_sleep hstep with
  | exiting hzero =>
    apply h.setThread hget
    intro _ e he
    rw [h.zero_iff.mp hzero] at he
    cases he
  | leave _ _ _ hdown =>
    refine ⟨h.ordered, h.few, ?_⟩
    intro hnot
    have hnot' : s.isShuttingDown = false := hnot
    rw [hdown] at hnot'
    cases hnot'
  | wait _ hfirst =>
    apply h.setThread hget
    intro _ e he _
    rcases h.ordered with ⟨handed, hinv⟩
    rw [hinv.holds.head hfirst, Option.mem_some] at he
    rw [he]
    exact .inr (Int.le_refl _)
  | lock =>
    refine ⟨h.ordered, h.few, ?_⟩
    intro _ e _
    exact attended_set hget trivial

/-- In every reachable state the first event is attended, whoever acts next. -/
theorem step_served (h : s.Served events) {a : ThreadAction α} (hok : s.Countable a)
    (hstep : s.step A a = some s') : ∃ events', s'.Served events' := by
  cases steps_of_step hstep with
  | insertEvent => exact insertEvent_served h hok hstep
  | flush => exact flush_served h hstep
  | shutdown _ hnotify =>
    have hordered : ∃ handed, Scheduling.Inv
        ⟨{ s with isShuttingDown := true }.scheduler, s.inserted, handed⟩ events := h.ordered
    exact ⟨events, notify_served hordered h.few (fun _ hdown ↦ nomatch hdown) hnotify⟩
  | readTime hget => exact ⟨events, h.setThread hget fun _ _ _ _ ↦ trivial⟩
  | shiftSome _ hget hcall =>
    exact shiftEvent_served A h (.removing _ _) hget (fun _ ↦ trivial) hcall
  | shiftNone _ hget hcall =>
    exact shiftEvent_served A h (.deciding _) hget (fun _ ↦ trivial) hcall
  | eventRemoved hget => exact ⟨events, h.setThread hget fun _ _ _ _ ↦ trivial⟩
  | decide _ hget hsleep => exact ⟨events, sleep_served h hget hsleep⟩
  | leave _ _ hdown =>
    refine ⟨events, h.ordered, h.few, ?_⟩
    intro hnot
    have hnot' : s.isShuttingDown = false := hnot
    rw [hdown] at hnot'
    cases hnot'
  | wakeUp _ hget _ => exact ⟨events, h.setThread hget fun _ _ _ _ ↦ trivial⟩
  | detach hget => exact ⟨events, h.setThread hget fun _ _ _ hattends ↦ hattends⟩

def IsServed (s : ThreadedScheduler α) : Prop := ∃ events, s.Served events

theorem start_isServed (α : Type) : (start α).IsServed :=
  ⟨[], ⟨[], Scheduling.start_inv⟩, Nat.two_pow_pos 32, fun _ _ he ↦ nomatch he⟩

theorem run_isServed {actions : List (ThreadAction α)}
    (hmeets : Meets (step A) Countable (start α) actions)
    (hrun : run (step A) (start α) actions = some s) : s.IsServed := by
  have hstep (s : ThreadedScheduler α) (a : ThreadAction α) (s' : ThreadedScheduler α)
      (h : s.IsServed) (hok : s.Countable a) (hs : s.step A a = some s') : s'.IsServed := by
    rcases h with ⟨events, h⟩
    exact step_served h hok hs
  exact run_invariant hstep (start_isServed α) hmeets hrun

/-- A thread that attends an event has not committed to exit. -/
theorem live_of_attends {t : RetryThread α} (h : t.attends e) : t.live = true := by
  cases t with
  | exiting => exact h.elim
  | exited => exact h.elim
  | _ => rfl

/-- In every run in which no event is inserted when the counter is at its greatest: where events are
counted and no shutdown was requested, some thread has not committed to exit; and if all those threads are
blocked in their waits, one of them waits for a time that is not behind the first event's. -/
theorem attended_of_run (A : Allocator (TimedEvent α)) (actions : List (ThreadAction α))
    (s : ThreadedScheduler α) (hmeets : Meets (step A) Countable (start α) actions)
    (hrun : run (step A) (start α) actions = some s) (hdown : s.isShuttingDown = false)
    (hnumber : s.scheduler.numberOfEvents > 0) :
    (∃ t ∈ s.threads, t.live) ∧
      ((∀ t ∈ s.threads, t.live → t.blocked) → ∃ first events deadline,
        s.scheduler.Holds (first :: events) ∧ .waiting deadline false ∈ s.threads ∧
          deadline ≤ first.scheduledAt) := by
  rcases run_isServed hmeets hrun with ⟨events, h⟩
  have hne : s.scheduler.numberOfEvents ≠ 0 := UInt32.pos_iff_ne_zero.mp hnumber
  cases events with
  | nil => exact absurd (h.zero_iff.mpr rfl) hne
  | cons first events =>
    rcases h.attended hdown first rfl with ⟨t, ht, hattends⟩
    have hlive := live_of_attends hattends
    refine ⟨⟨t, ht, hlive⟩, ?_⟩
    intro hall
    have hblocked := hall t ht hlive
    rcases h.ordered with ⟨handed, hinv⟩
    cases t with
    | waiting deadline woken =>
      cases woken with
      | true => cases hblocked
      | false =>
        rcases hattends with hfalse | hle
        · cases hfalse
        · exact ⟨first, events, deadline, hinv.holds, ht, hle⟩
    | _ => cases hblocked

instance (s : ThreadedScheduler α) : (a : ThreadAction α) → Decidable (s.Countable a)
  | .insertEvent _ _ _ => inferInstanceAs (Decidable (s.scheduler.numberOfEvents ≠ 2 ^ 32 - 1))
  | .flush _ _ | .shutdown _ | .readTime _ _ | .shiftEvent _ | .eventRemoved _ | .decide _
  | .wakeUp _ | .detach _ => .isTrue trivial

/-- The thread sleeps until the only event is due. -/
theorem attended_oneEvent : ∃ s, run (step (.bump (TimedEvent Unit))) (start Unit)
      [.insertEvent 10 () 0, .readTime 0 0, .shiftEvent 0, .decide 0] = some s ∧
    ∃ first events deadline, s.scheduler.Holds (first :: events) ∧
      .waiting deadline false ∈ s.threads ∧ deadline ≤ first.scheduledAt :=
  ⟨_, rfl, (attended_of_run (.bump (TimedEvent Unit))
    [.insertEvent 10 () 0, .readTime 0 0, .shiftEvent 0, .decide 0] _ (by decide) rfl rfl
    (by decide)).2 (by decide)⟩

/-! ## 2^32 events -/

/-- As many events as were inserted, all of them due at time 1, and nothing else. -/
structure SameTime (s : ThreadedScheduler α) (events : List (TimedEvent α)) : Prop where
  ordered : Scheduling.Inv ⟨s.scheduler, s.inserted, []⟩ events
  time : ∀ e ∈ events, e.scheduledAt = 1
  some_event : events ≠ []
  isRunning : s.isShuttingDown = false
  unlocked : s.mutexKept = false

theorem SameTime.length (h : s.SameTime events) : events.length = s.inserted := by
  have hlength := h.ordered.numbers.length_eq
  rw [List.append_nil, List.length_map, List.length_range] at hlength
  exact hlength

/-- One more event goes behind the others, and no thread is told. -/
theorem SameTime.insertEvent (A : Allocator (TimedEvent α)) (h : s.SameTime events) (content : α)
    (wake : Nat) : ∃ s' events', s.step A (.insertEvent 1 content wake) = some s' ∧
      s'.SameTime events' ∧ s'.threads = s.threads ∧ s'.inserted = s.inserted + 1 := by
  rcases h.ordered.holds.insertEvent A ⟨1, content, s.inserted⟩ with
    ⟨scheduler, notice, hcall, -, -, hnotice⟩
  rcases Scheduling.insertEvent_inv A h.ordered 1 content with ⟨t, ht, hordered⟩
  dsimp only at hcall
  simp only [Scheduling.step, hcall, Option.map_some, Option.some.injEq] at ht
  rw [← ht] at hordered
  have hnothing : notice = .nothing := by
    rw [hnotice]
    cases events with
    | nil => exact absurd rfl h.some_event
    | cons e events =>
      rw [Scheduler.noticeOf, if_neg]
      have htime := h.time e List.mem_cons_self
      dsimp only
      omega
  refine ⟨{ s with scheduler, inserted := s.inserted + 1 }, _, ?_, ⟨hordered, ?_, ?_, h.isRunning,
    h.unlocked⟩, rfl, rfl⟩
  · unfold step
    simp only [h.unlocked, hcall, hnothing]
    rfl
  · intro e he
    rcases List.mem_cons.mp ((List.perm_orderedInsert _ _ events).mem_iff.mp he) with heq | he
    · rw [heq]
    · exact h.time e he
  · intro hnil
    have hlength := congrArg List.length hnil
    rw [List.orderedInsert_length] at hlength
    cases hlength

theorem run_insertEvents (A : Allocator (TimedEvent Unit)) (n : Nat) :
    ∃ s events, run (step A) (start Unit) (List.replicate (n + 1) (.insertEvent 1 () 0)) = some s ∧
      s.SameTime events ∧ s.threads = [.started] ∧ s.inserted = n + 1 := by
  induction n with
  | zero =>
    have hstart : Scheduling.Inv (Scheduling.start Unit) [] := Scheduling.start_inv
    rcases Scheduling.insertEvent_inv A hstart 1 () with ⟨t, ht, hordered⟩
    rw [← Option.some.inj ht] at hordered
    exact ⟨_, [⟨1, (), 0⟩], rfl, ⟨hordered, by simp, by simp, rfl, rfl⟩, rfl, rfl⟩
  | succ n ih =>
    rcases ih with ⟨s, events, hrun, h, hthreads, hinserted⟩
    rcases h.insertEvent A () 0 with ⟨s', events', hstep, h', hthreads', hinserted'⟩
    rw [List.replicate_succ', run_concat hrun]
    refine ⟨s', events', hstep, h', ?_, ?_⟩
    · rw [hthreads', hthreads]
    · rw [hinserted', hinserted]

theorem SameTime.setThread (h : s.SameTime events) (k : Nat) (t : RetryThread α) :
    (s.setThread k t).SameTime events :=
  ⟨h.ordered, h.time, h.some_event, h.isRunning, h.unlocked⟩

/-- A thread that reads the time 0 finds no event that is due. -/
theorem SameTime.shiftEvent (A : Allocator (TimedEvent α)) (h : s.SameTime events)
    (hget : s.threads[k]? = some (.shifting 0)) :
    s.step A (.shiftEvent k) = some (s.setThread k (.deciding 0)) := by
  have hshift : s.scheduler.shiftEvent 0 = some (none, s.scheduler) := by
    have hspec := h.ordered.holds.shiftEvent 0
    have hnone : ¬ (events.head?.any fun e ↦ e.scheduledAt ≤ 0) := by
      cases events with
      | nil => simp
      | cons e events =>
        have htime := h.time e List.mem_cons_self
        simp [htime]
    rw [if_neg hnone] at hspec
    exact hspec
  unfold step
  simp only [hget, h.unlocked, hshift, Option.map_some]
  rfl

/-- The thread takes the list of 2^32 events for an empty one, and none is created for the next event. -/
theorem unattended_wrapped : ∃ s, run (step (.bump (TimedEvent Unit))) (start Unit)
      (List.replicate (2 ^ 32) (.insertEvent 1 () 0) ++
        [.readTime 0 0, .shiftEvent 0, .decide 0, .insertEvent 1 () 0]) = some s ∧
    s.isShuttingDown = false ∧ s.scheduler.numberOfEvents > 0 ∧ s.threads = [.exiting] := by
  rcases run_insertEvents (.bump (TimedEvent Unit)) (2 ^ 32 - 1) with
    ⟨s, events, hrun, h, hthreads, hinserted⟩
  have hlength : events.length = 2 ^ 32 := h.length.trans hinserted
  have hzero : s.scheduler.numberOfEvents = 0 := by
    have hcount : s.scheduler.numberOfEvents = UInt32.ofNat events.length := h.ordered.count
    rw [hcount, hlength]
    rfl
  have hread : s.step (.bump _) (.readTime 0 0) = some (s.setThread 0 (.shifting 0)) := by
    unfold step
    simp only [hthreads]
    rfl
  have hset (t : RetryThread Unit) : (s.setThread 0 t).threads = [t] := by
    unfold setThread
    rw [hthreads]
    rfl
  have hshift := (h.setThread 0 (.shifting 0)).shiftEvent (.bump _) (k := 0) (by rw [hset]; rfl)
  have hset' : (s.setThread 0 (.shifting 0)).setThread 0 (.deciding 0) = s.setThread 0 (.deciding 0) := by
    unfold setThread
    rw [List.set_set]
  rw [hset'] at hshift
  have hdecide : (s.setThread 0 (.deciding 0)).step (.bump _) (.decide 0) =
      some ((s.setThread 0 (.deciding 0)).setThread 0 .exiting) := by
    have hunlocked : (s.setThread 0 (.deciding 0)).mutexKept = false := h.unlocked
    have hnone : (s.setThread 0 (.deciding 0)).scheduler.numberOfEvents = 0 := hzero
    unfold step
    simp only [hset, hunlocked]
    unfold sleep
    simp only [hnone]
    rfl
  rcases ((h.setThread 0 (.deciding 0)).setThread 0 .exiting).insertEvent (.bump _) () 0 with
    ⟨s', events', hinsert, h', hthreads', hinserted'⟩
  refine ⟨s', ?_, h'.isRunning, ?_, ?_⟩
  · rw [run_append, show 2 ^ 32 = 2 ^ 32 - 1 + 1 from rfl, hrun, Option.bind_some, run_cons, hread,
      Option.bind_some, run_cons, hshift, Option.bind_some, run_cons, hdecide, Option.bind_some, run_cons,
      hinsert]
    rfl
  · have hcount : s'.scheduler.numberOfEvents = UInt32.ofNat events'.length := h'.ordered.count
    rw [hcount, h'.length, hinserted']
    show UInt32.ofNat (s.inserted + 1) > 0
    rw [hinserted]
    decide
  · rw [hthreads']
    unfold setThread
    rw [hthreads]
    rfl

end ThreadedScheduler

end EvQueue
