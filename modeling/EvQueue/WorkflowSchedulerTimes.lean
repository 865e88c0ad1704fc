import EvQueue.EngineStart
import EvQueue.ScheduleTime

/-!
# WorkflowSchedulerTimes — when scheduled workflows begin

The interleavings of `WorkflowSchedulerTokens` under a clock: every time that a schedule is given comes from
`GetNextTime`, called then, and a retry thread takes no event before its time.
-/

namespace EvQueue.WorkflowScheduler

open Runs EngineStart

/-- The schedule that the constructor of each `WorkflowSchedule` makes. -/
structure Timetable where
  utcOffset : Int
  schedule : UInt32 → { s : Schedule // ∃ description, Schedule.create description = .ok s }
  /-- The calls of `get_next_time` that a search may take. -/
  fuel : Nat

namespace Timetable

/-- `workflow_schedule->GetNextTime()`. -/
def nextTime (c : Timetable) (id : UInt32) (now : Int) : Option Int :=
  (c.schedule id).val.getNextTime c.utcOffset c.fuel now

/-- The schedule allows this time. -/
def Allows (c : Timetable) (id : UInt32) (t : Int) : Prop :=
  (c.schedule id).val.matchesAll c.utcOffset t = true

theorem nextTime_spec {c : Timetable} {id : UInt32} {now t : Int} (h : c.nextTime id now = some t) :
    now < t ∧ c.Allows id t := by
  rcases (c.schedule id).property with ⟨description, hcreate⟩
  have hsound := Schedule.get_next_time_sound description _ hcreate c.utcOffset
  unfold nextTime at h
  rw [(hsound now).2.2 c.fuel] at h
  have hnext := (hsound (now + 1)).2.1 c.fuel t h
  exact ⟨by omega, hnext.2⟩

end Timetable

/-! ## The events of a step -/

namespace State

variable {db : Database} {s s' : State} {id wi : UInt32} {e : ScheduledWorkflow} {a : Action}

/-- The events in the list, and those that were taken from it. -/
def scheduled (s : State) : List ScheduledWorkflow := s.scheduler.events ++ s.alarms

/-- The step may make this event. -/
def Makes (s : State) (e : ScheduledWorkflow) : Action → Prop
  | .instanceStop workflowInstanceId _ nextTime =>
      (workflowInstanceId, e.workflowSchedule.id) ∈ s.instances ∧ e.scheduledAt = nextTime
  | .reloadRow _ nextTime =>
      (∃ backup rows, s.reload = some ⟨backup, e.workflowSchedule.id :: rows⟩) ∧ e.scheduledAt = nextTime
  | _ => False

theorem shiftEvent_spec {currTime : Int} (hstep : s.shiftEvent currTime = some s') :
    ∃ event events, s.scheduler.events = event :: events ∧ event.scheduledAt ≤ currTime ∧
      s' = { s with
        scheduler := { s.scheduler with events }
        alarms := event :: s.alarms } := by
  unfold shiftEvent WorkflowScheduler.shiftEvent at hstep
  cases hevents : s.scheduler.events with
  | nil =>
    rw [hevents] at hstep
    cases hstep
  | cons event events =>
    rw [hevents] at hstep
    by_cases hdue : event.scheduledAt ≤ currTime
    · simp only [if_pos hdue, Option.some.injEq] at hstep
      exact ⟨event, events, rfl, hdue, hstep.symm⟩
    · simp only [if_neg hdue] at hstep
      cases hstep

theorem eventRemoved_spec {n : Nat} (hstep : s.eventRemoved db n wi = some s') :
    (∃ e, s.alarms[n]? = some e) ∧ s'.alarms = s.alarms.eraseIdx n ∧
      s'.scheduler.events = s.scheduler.events := by
  unfold eventRemoved at hstep
  split at hstep
  · cases hstep
  · rename_i e he
    refine ⟨⟨e, he⟩, ?_⟩
    split at hstep
    · split at hstep
      · rw [← Option.some.inj hstep]
        exact ⟨rfl, setSlot_events⟩
      · cases hstep
    · rw [← Option.some.inj hstep]
      exact ⟨rfl, rfl⟩

theorem reloadBegin_spec {active rows : List UInt32} (hstep : s.reloadBegin active rows = some s') :
    s' = { s with
      scheduler := s.scheduler.flush.init active
      reload := some { backup := s.scheduler, rows }
      suspended := [] } := by
  unfold reloadBegin at hstep
  split at hstep
  · exact (Option.some.inj hstep).symm
  · cases hstep

theorem reloadRow_spec {onFailure : OnFailureBehavior} {t : Int}
    (hstep : s.reloadRow db onFailure t = some s') :
    ∃ backup id rows, s.reload = some ⟨backup, id :: rows⟩ ∧
      s' = { s with
        scheduler := if db.loads id then s.scheduler.reloadRow backup ⟨id, onFailure⟩ t else s.scheduler
        reload := some { backup, rows } } := by
  unfold reloadRow at hstep
  split at hstep
  · rename_i backup id rows hreload
    exact ⟨backup, id, rows, hreload, (Option.some.inj hstep).symm⟩
  · cases hstep

theorem reloadEnd_spec (hstep : s.reloadEnd = some s') : s' = { s with reload := none } := by
  unfold reloadEnd at hstep
  split at hstep
  · exact (Option.some.inj hstep).symm
  · cases hstep

/-- An event is made at the end of an instance or by a row of `Reload`, and nowhere else. -/
theorem scheduled_of_step (h : s.Sound) (hbackup : ∀ r, s.reload = some r → Arrays r.backup)
    (hstep : s.step db a = some s') (he : e ∈ s'.scheduled) : e ∈ s.scheduled ∨ s.Makes e a := by
  unfold scheduled at he ⊢
  rw [List.mem_append] at he ⊢
  cases a with
  | shiftEvent currTime =>
    rcases shiftEvent_spec hstep with ⟨event, events, hevents, -, rfl⟩
    rw [hevents]
    rcases he with hlist | halarm
    · exact .inl (.inl (List.mem_cons_of_mem event hlist))
    · rcases List.mem_cons.mp halarm with rfl | halarm
      · exact .inl (.inl List.mem_cons_self)
      · exact .inl (.inr halarm)
  | eventRemoved n wi =>
    rcases eventRemoved_spec hstep with ⟨-, halarms, hevents⟩
    rw [halarms, hevents] at he
    exact .inl (he.imp_right List.mem_of_mem_eraseIdx)
  | instanceStop wi success t =>
    rcases instanceStop_cases hstep with ⟨id, scheduler, removed, hmem, -, hstop, rfl⟩
    rcases he with hlist | halarm
    · rcases stop_cases hstop with ⟨-, rfl, -⟩ | ⟨w, ws, hslot, ⟨rfl, -⟩ | ⟨rfl, -⟩⟩
      · exact .inl (.inl hlist)
      · rw [setSlot_events] at hlist
        exact .inl (.inl hlist)
      · rcases List.mem_cons.mp ((insertEvent_perm _ _).mem_iff.mp hlist) with rfl | hlist
        · -- the schedule is the one that the arrays hold
          rw [← (h.arrays.filled id w ws hslot).1] at hmem
          exact .inr ⟨hmem, rfl⟩
        · rw [setSlot_events] at hlist
          exact .inl (.inl hlist)
    · exact .inl (.inr halarm)
  | reloadBegin active rows =>
    -- `Flush` empties the list; an event that was shifted stays with its thread
    rw [reloadBegin_spec hstep] at he
    rcases he with hlist | halarm
    · cases hlist
    · exact .inl (.inr halarm)
  | reloadRow onFailure t =>
    rcases reloadRow_spec hstep with ⟨backup, id, rows, hreload, rfl⟩
    rcases he with hlist | halarm
    · dsimp only at hlist
      split at hlist
      · rcases reloadRow_cases ⟨id, onFailure⟩ t (hbackup _ hreload) with ⟨hrow, -⟩ | ⟨wi, hrow, -⟩
        · rw [hrow] at hlist
          rcases List.mem_cons.mp ((insertEvent_perm _ _).mem_iff.mp hlist) with rfl | hlist
          · exact .inr ⟨⟨backup, rows, hreload⟩, rfl⟩
          · exact .inl (.inl hlist)
        · rw [hrow, setSlot_events] at hlist
          exact .inl (.inl hlist)
      · exact .inl (.inl hlist)
    · exact .inl (.inr halarm)
  | reloadEnd =>
    rw [reloadEnd_spec hstep] at he
    exact .inl he

/-- A thread takes an event that is due. -/
theorem alarms_of_step (hstep : s.step db a = some s') (he : e ∈ s'.alarms) :
    e ∈ s.alarms ∨ ∃ currTime, a = .shiftEvent currTime ∧ e.scheduledAt ≤ currTime := by
  cases a with
  | shiftEvent currTime =>
    rcases shiftEvent_spec hstep with ⟨event, events, -, hdue, rfl⟩
    rcases List.mem_cons.mp he with rfl | halarm
    · exact .inr ⟨currTime, rfl, hdue⟩
    · exact .inl halarm
  | eventRemoved n wi =>
    rw [(eventRemoved_spec hstep).2.1] at he
    exact .inl (List.mem_of_mem_eraseIdx he)
  | instanceStop wi success t =>
    rcases instanceStop_cases hstep with ⟨id, scheduler, removed, -, -, -, rfl⟩
    exact .inl he
  | reloadBegin active rows =>
    rw [reloadBegin_spec hstep] at he
    exact .inl he
  | reloadRow onFailure t =>
    rcases reloadRow_spec hstep with ⟨backup, id, rows, -, rfl⟩
    exact .inl he
  | reloadEnd =>
    rw [reloadEnd_spec hstep] at he
    exact .inl he

/-! ## At most one token -/

/-- Pending once, or running once, or neither: also while a schedule is not active. -/
def AtMostOne (s : State) (id : UInt32) : Prop := s.pending id + (s.live id).length ≤ 1

theorem atMostOne_step (h : Inv db s) (hinst : Instantiable db id) (hone : s.AtMostOne id)
    (hstep : s.step db a = some s') : s'.AtMostOne id := by
  unfold AtMostOne at hone ⊢
  cases a with
  | shiftEvent currTime =>
    have hmoves := shiftEvent_moves h.sound hstep
    have hlive : s'.live id = s.live id := by
      unfold live
      rw [hmoves.1.instances]
    rw [hmoves.2 id, hlive]
    exact hone
  | eventRemoved n wi =>
    rcases eventRemoved_cases h.sound hstep with ⟨id', ⟨-, hmoves, hp⟩ | ⟨-, hbegins⟩⟩
    · have hlive : s'.live id = s.live id := by
        unfold live
        rw [hmoves.instances]
      have hless := hp id
      rw [hlive]
      omega
    · by_cases heq : id = id'
      · rw [heq] at hone ⊢
        have hp := hbegins.pending
        -- the event that was pending has become the instance
        rw [hbegins.live, List.length_cons]
        omega
      · rw [hbegins.touches.pending id heq, hbegins.touches.live id heq]
        exact hone
  | instanceStop wi success t =>
    rcases instanceStop_ends h.sound hstep with ⟨id', hends⟩
    by_cases heq : id = id'
    · rw [heq] at hone ⊢
      -- the instance was the token
      have hpos := List.length_pos_of_mem hends.wasLive
      have hlive : s.live id' = [wi] := by
        rcases List.length_eq_one_iff.mp (show (s.live id').length = 1 by omega) with ⟨x, hx⟩
        have hwas := hends.wasLive
        rw [hx, List.mem_singleton] at hwas
        rw [hx, hwas]
      have hgone : (s'.live id').length = 0 := by
        rw [hends.live, hlive]
        simp
      -- its event is pending again, or there is none
      rcases hends.next with ⟨hp, -⟩ | ⟨hp, -⟩ | ⟨hp, -⟩ <;> omega
    · rw [hends.touches.pending id heq, hends.touches.live id heq]
      exact hone
  | reloadBegin active rows =>
    rw [reloadBegin_spec hstep]
    -- the events of the list are flushed
    have hless : eventsOf id [] + eventsOf id s.alarms ≤ s.pending id :=
      Nat.add_le_add_right (Nat.zero_le _) _
    exact Nat.le_trans (Nat.add_le_add_right hless _) hone
  | reloadRow onFailure t =>
    rcases reloadRow_spec hstep with ⟨backup, id', rows, hreload, rfl⟩
    have hre := h.reloading _ hreload
    by_cases hloads : db.loads id' = true
    · rw [if_pos hloads]
      rcases reloadRow_cases ⟨id', onFailure⟩ t hre.backup with ⟨hrow, hnot⟩ | ⟨wi, hrow, -⟩
      · rw [hrow]
        have hpending : eventsOf id (insertEvent ⟨t, ⟨id', onFailure⟩⟩ s.scheduler.events) +
            eventsOf id s.alarms = s.pending id + if id' = id then 1 else 0 := by
          rw [eventsOf_insertEvent]
          unfold pending
          dsimp only
          omega
        refine Nat.le_trans (Nat.le_of_eq (congrArg (· + (s.live id).length) hpending)) ?_
        by_cases heq : id' = id
        · -- nothing of a row that waits is pending, and the backup holds no instance of it
          subst heq
          have hw := hre.waiting id' (by simp) hinst
          have hnil : s.live id' = [] :=
            List.eq_nil_iff_forall_not_mem.mpr fun wi hwi ↦ hnot wi ((hw.2 wi).mp hwi)
          rw [if_pos rfl, hw.1, hnil]
          exact Nat.le_refl 1
        · rw [if_neg heq]
          exact hone
      · rw [hrow]
        unfold pending
        dsimp only
        rw [setSlot_events]
        exact hone
    · rw [if_neg hloads]
      exact hone
  | reloadEnd =>
    rw [reloadEnd_spec hstep]
    exact hone

end State

/-! ## The interleavings under a clock -/

/-- An instance of a schedule has begun. -/
structure Beginning where
  workflowScheduleId : UInt32
  /-- The time of the event. -/
  scheduledAt : Int
  time : Int
deriving DecidableEq, Repr

structure TimedState where
  clock : Int
  state : State
  /-- For the statements only. -/
  begun : List Beginning

inductive TimedAction where
  | tick (seconds : Nat)
  /-- `currTime` was read before. -/
  | shiftEvent (currTime : Int)
  | eventRemoved (n : Nat) (workflowInstanceId : UInt32)
  | instanceStop (workflowInstanceId : UInt32) (success : Bool)
  | reloadBegin (active rows : List UInt32)
  | reloadRow (onFailure : OnFailureBehavior)
  | reloadEnd

namespace TimedState

variable (db : Database) (c : Timetable)

/-- The instance that begins with a step. -/
def beginnings (s : TimedState) : Action → List Beginning
  | .eventRemoved n _ =>
      match s.state.alarms[n]? with
      | none => []
      | some e =>
          if db.instantiates e.workflowSchedule.id then
            [⟨e.workflowSchedule.id, e.scheduledAt, s.clock⟩]
          else []
  | _ => []

def act (s : TimedState) (a : Action) : Option TimedState :=
  (s.state.step db a).map fun state ↦
    { s with
      state
      begun := s.begun ++ s.beginnings db a }

def step (s : TimedState) : TimedAction → Option TimedState
  | .tick seconds => some { s with clock := s.clock + seconds }
  | .shiftEvent currTime => if currTime ≤ s.clock then s.act db (.shiftEvent currTime) else none
  | .eventRemoved n workflowInstanceId => s.act db (.eventRemoved n workflowInstanceId)
  | .instanceStop workflowInstanceId success =>
      match s.state.instances.find? fun x ↦ x.1 = workflowInstanceId with
      | none => none
      | some (_, id) =>
          (c.nextTime id s.clock).bind fun t ↦ s.act db (.instanceStop workflowInstanceId success t)
  | .reloadBegin active rows => s.act db (.reloadBegin active rows)
  | .reloadRow onFailure =>
      match s.state.reload with
      | some { rows := id :: _, .. } =>
          (c.nextTime id s.clock).bind fun t ↦ s.act db (.reloadRow onFailure t)
      | _ => none
  | .reloadEnd => s.act db .reloadEnd

/-- The engine when `main` has loaded the rows. -/
def start (clock : Int) (b : Boot) (rows : List Row) : TimedState where
  clock
  state := State.start db b.scheduler rows b.instances
  begun := []

/-- `Reload` begins as in `State.ReloadsBetween`. -/
def ReloadsBetween (s : TimedState) : TimedAction → Prop
  | .reloadBegin active rows => s.state.ReloadsBetween db (.reloadBegin active rows)
  | _ => True

/-- The instances of this schedule that have begun, in their order. -/
def begunOf (s : TimedState) (id : UInt32) : List Beginning :=
  s.begun.filter fun b ↦ b.workflowScheduleId = id

variable {db c} {s s' : TimedState} {id : UInt32} {action : TimedAction} {a : Action}

/-- The clock goes on, or the step is one of `State` whose times the clock bears out. -/
theorem step_cases (hsound : s.state.Sound) (hok : s.ReloadsBetween db action)
    (hstep : s.step db c action = some s') :
    (∃ seconds : Nat, s' = { s with clock := s.clock + seconds }) ∨
      ∃ a, s.act db a = some s' ∧ s.state.ReloadsBetween db a ∧
        (∀ currTime, a = .shiftEvent currTime → currTime ≤ s.clock) ∧
        ∀ e, s.state.Makes e a → c.nextTime e.workflowSchedule.id s.clock = some e.scheduledAt := by
  cases action with
  | tick seconds => exact .inl ⟨seconds, (Option.some.inj hstep).symm⟩
  | shiftEvent currTime =>
    unfold step at hstep
    dsimp only at hstep
    split at hstep
    · rename_i hle
      refine .inr ⟨_, hstep, trivial, ?_, nofun⟩
      intro t ht
      rw [Action.shiftEvent.injEq] at ht
      rw [← ht]
      exact hle
    · cases hstep
  | eventRemoved n wi => exact .inr ⟨_, hstep, trivial, nofun, nofun⟩
  | instanceStop wi success =>
    unfold step at hstep
    dsimp only at hstep
    split at hstep
    · cases hstep
    · rename_i wi' id hfind
      have hmem := List.mem_of_find?_eq_some hfind
      have hkey := List.find?_some hfind
      rw [decide_eq_true_eq] at hkey
      rw [show wi' = wi from hkey] at hmem
      rcases Option.bind_eq_some_iff.mp hstep with ⟨t, ht, hact⟩
      refine .inr ⟨_, hact, trivial, nofun, ?_⟩
      rintro e ⟨hin, hat⟩
      rw [hat, State.instance_unique hsound.keys hin hmem]
      exact ht
  | reloadBegin active rows => exact .inr ⟨_, hstep, hok, nofun, nofun⟩
  | reloadRow onFailure =>
    unfold step at hstep
    dsimp only at hstep
    split at hstep
    · rename_i backup id rows hreload
      rcases Option.bind_eq_some_iff.mp hstep with ⟨t, ht, hact⟩
      refine .inr ⟨_, hact, trivial, nofun, ?_⟩
      rintro e ⟨⟨backup', rows', hreload'⟩, hat⟩
      rw [hreload, Option.some.injEq, Reload.mk.injEq, List.cons.injEq] at hreload'
      rw [hat, ← hreload'.2.1]
      exact ht
    · cases hstep
  | reloadEnd => exact .inr ⟨_, hstep, trivial, nofun, nofun⟩

theorem mem_beginnings {b : Beginning} (h : b ∈ s.beginnings db a) : ∃ n wi e, a = .eventRemoved n wi ∧
    s.state.alarms[n]? = some e ∧ b = ⟨e.workflowSchedule.id, e.scheduledAt, s.clock⟩ := by
  cases a with
  | eventRemoved n wi =>
    unfold beginnings at h
    dsimp only at h
    split at h
    · cases h
    · rename_i e he
      split at h
      · exact ⟨n, wi, e, rfl, he, List.mem_singleton.mp h⟩
      · cases h
  | _ => cases h

/-- What the times of one schedule keep. -/
structure OnTime (db : Database) (c : Timetable) (id : UInt32) (s : TimedState) : Prop where
  inv : State.Inv db s.state
  atMostOne : s.state.AtMostOne id
  scheduled : ∀ e ∈ s.state.scheduled, e.workflowSchedule.id = id →
    c.Allows id e.scheduledAt ∧ ∀ b ∈ s.begunOf id, b.time < e.scheduledAt
  alarms : ∀ e ∈ s.state.alarms, e.scheduledAt ≤ s.clock
  begun : ∀ b ∈ s.begunOf id, c.Allows id b.scheduledAt ∧ b.scheduledAt ≤ b.time ∧ b.time ≤ s.clock
  increasing : (s.begunOf id).Pairwise fun b b' ↦ b.time < b'.scheduledAt

theorem OnTime.tick (h : OnTime db c id s) (seconds : Nat) :
    OnTime db c id { s with clock := s.clock + seconds } := by
  refine ⟨h.inv, h.atMostOne, h.scheduled, ?_, ?_, h.increasing⟩
  · intro e he
    have hle := h.alarms e he
    show e.scheduledAt ≤ s.clock + seconds
    omega
  · intro b hb
    have hbegun := h.begun b hb
    refine ⟨hbegun.1, hbegun.2.1, ?_⟩
    show b.time ≤ s.clock + seconds
    omega

/-- The one event of a schedule becomes an instance. -/
theorem no_event_left {state : State} {n : Nat} {wi : UInt32} {e : ScheduledWorkflow}
    (hone : s.state.AtMostOne id) (hstep : s.state.eventRemoved db n wi = some state)
    (he : s.state.alarms[n]? = some e) (hid : e.workflowSchedule.id = id) :
    ∀ e' ∈ state.scheduled, e'.workflowSchedule.id ≠ id := by
  rcases State.eventRemoved_spec hstep with ⟨-, halarms, hevents⟩
  have hcount : State.eventsOf id s.state.alarms = _ := State.eventsOf_eraseIdx he
  rw [if_pos hid] at hcount
  have hzero : State.eventsOf id state.scheduled = 0 := by
    unfold State.AtMostOne State.pending at hone
    unfold State.scheduled
    rw [halarms, hevents, State.eventsOf, List.countP_append]
    unfold State.eventsOf at hone hcount
    omega
  intro e' he'
  have hnot := List.countP_eq_zero.mp hzero e' he'
  rwa [decide_eq_true_eq] at hnot

theorem OnTime.act (h : OnTime db c id s) (hinst : State.Instantiable db id)
    (hok : s.state.ReloadsBetween db a) (hshift : ∀ currTime, a = .shiftEvent currTime → currTime ≤ s.clock)
    (hmakes : ∀ e, s.state.Makes e a → c.nextTime e.workflowSchedule.id s.clock = some e.scheduledAt)
    (hact : s.act db a = some s') : OnTime db c id s' := by
  rcases Option.map_eq_some_iff.mp hact with ⟨state, hstep, rfl⟩
  have hbackup := fun r hr ↦ (h.inv.reloading r hr).backup
  -- an instance begins with the event that a thread has taken
  have hnew : ∀ b ∈ (s.beginnings db a).filter fun b ↦ b.workflowScheduleId = id, b.time = s.clock ∧
      (∃ e ∈ s.state.alarms, e.workflowSchedule.id = id ∧ b.scheduledAt = e.scheduledAt) ∧
      ∀ e ∈ state.scheduled, e.workflowSchedule.id ≠ id := by
    intro b hb
    rw [List.mem_filter, decide_eq_true_eq] at hb
    rcases mem_beginnings hb.1 with ⟨n, wi, e, rfl, he, rfl⟩
    exact ⟨rfl, ⟨e, List.mem_of_getElem? he, hb.2, rfl⟩, no_event_left h.atMostOne hstep he hb.2⟩
  have hbegunOf : begunOf
      { s with
        state
        begun := s.begun ++ s.beginnings db a } id =
      s.begunOf id ++ (s.beginnings db a).filter fun b ↦ b.workflowScheduleId = id :=
    List.filter_append _ _
  constructor
  case inv => exact State.step_inv h.inv hok hstep
  case atMostOne => exact State.atMostOne_step h.inv hinst h.atMostOne hstep
  case scheduled =>
    intro e he hid
    rw [hbegunOf]
    rcases State.scheduled_of_step h.inv.sound hbackup hstep he with hold | hmade
    · have hscheduled := h.scheduled e hold hid
      refine ⟨hscheduled.1, ?_⟩
      intro b hb
      rcases List.mem_append.mp hb with hb | hb
      · exact hscheduled.2 b hb
      · exact absurd hid ((hnew b hb).2.2 e he)
    · -- the time is computed now, and what has begun has begun before
      have hnext := Timetable.nextTime_spec (hmakes e hmade)
      rw [hid] at hnext
      refine ⟨hnext.2, ?_⟩
      intro b hb
      rcases List.mem_append.mp hb with hb | hb
      · have hle := (h.begun b hb).2.2
        omega
      · exact absurd hid ((hnew b hb).2.2 e he)
  case alarms =>
    intro e he
    rcases State.alarms_of_step hstep he with hold | ⟨currTime, ha, hdue⟩
    · exact h.alarms e hold
    · exact Int.le_trans hdue (hshift currTime ha)
  case begun =>
    intro b hb
    rw [hbegunOf] at hb
    rcases List.mem_append.mp hb with hb | hb
    · exact h.begun b hb
    · rcases hnew b hb with ⟨htime, ⟨e, he, hid, hat⟩, -⟩
      rw [htime, hat]
      exact ⟨(h.scheduled e (List.mem_append_right _ he) hid).1, h.alarms e he, Int.le_refl _⟩
  case increasing =>
    rw [hbegunOf, List.pairwise_append]
    refine ⟨h.increasing, ?_, ?_⟩
    · unfold beginnings
      split
      · split
        · exact .nil
        · split
          · exact (List.pairwise_singleton _ _).filter _
          · exact .nil
      · exact .nil
    · intro b hb b' hb'
      rcases (hnew b' hb').2.1 with ⟨e, he, hid, hat⟩
      rw [hat]
      exact (h.scheduled e (List.mem_append_right _ he) hid).2 b hb

theorem step_onTime (hinst : State.Instantiable db id) (h : OnTime db c id s)
    (hok : s.ReloadsBetween db action) (hstep : s.step db c action = some s') : OnTime db c id s' := by
  rcases step_cases h.inv.sound hok hstep with ⟨seconds, rfl⟩ | ⟨a, hact, hbetween, hshift, hmakes⟩
  · exact h.tick seconds
  · exact h.act hinst hbetween hshift hmakes hact

section Start

variable {savepointLevel : Nat} {active : List UInt32} {saved : List SavedInstance} {rows : List Row}

/-- No two of the saved instances of a schedule run on. -/
def OneRunsOn (saved : List SavedInstance) (id : UInt32) : Prop :=
  ∀ x ∈ saved, ∀ y ∈ saved, x.resumed = .running → y.resumed = .running →
    x.workflowScheduleId = id → y.workflowScheduleId = id → x.workflowInstanceId = y.workflowInstanceId

/-- Also of a schedule that is not active. -/
theorem atMostOne_start (hkeys : Keys active saved) (h : Restored db savepointLevel active saved)
    (hone : OneRunsOn saved id) (hrows : IsResult rows (leftJoin active
      (purge savepointLevel ((saved.filter (stays savepointLevel)).map SavedInstance.row)))) :
    (State.start db (create active) rows ((saved.filter runsOn).map SavedInstance.row)).AtMostOne id := by
  unfold State.AtMostOne
  by_cases hin : id ∈ active
  · have honce := start_once hkeys h.toResumable hrows
    apply (honce.once id _).1
    have hids : (load db.loads (create active) rows).wfsIds = active := State.load_wfsIds
    exact hids.symm ▸ hin
  · have hpending : rows.countP (State.rowPends db.loads id) = 0 := by
      rw [countP_rowPends hkeys hrows, if_neg]
      exact fun h ↦ hin (mem_leftJoin.mp h.2).1
    rw [State.pending_start, hpending, Nat.zero_add]
    by_cases hrunning : ∃ x ∈ saved, x.resumed = .running ∧ x.workflowScheduleId = id
    · rcases hrunning with ⟨x, hx, hrun, hxid⟩
      have hall : ∀ wi ∈ State.live (State.start db (create active) rows
          ((saved.filter runsOn).map SavedInstance.row)) id, wi = x.workflowInstanceId := by
        intro wi hwi
        rcases mem_live_start.mp hwi with ⟨y, hy, hyrun, -, heq⟩
        rw [← show y.workflowInstanceId = wi from congrArg Prod.fst heq]
        exact hone y hy x hx hyrun hrun (congrArg Prod.snd heq) hxid
      by_cases hmem : x.workflowInstanceId ∈ State.live (State.start db (create active) rows
          ((saved.filter runsOn).map SavedInstance.row)) id
      · rw [(start_sound db rows hkeys).live_eq hall hmem]
        exact Nat.le_refl 1
      · rw [List.eq_nil_iff_forall_not_mem.mpr fun wi hwi ↦ hmem (hall wi hwi ▸ hwi)]
        exact Nat.zero_le 1
    · rw [live_start_eq_nil hrunning]
      exact Nat.zero_le 1

/-- The events that `main` makes. -/
theorem mem_load {loads : UInt32 → Bool} {scheduler : WorkflowScheduler} {rows : List Row}
    {e : ScheduledWorkflow} (he : e ∈ (load loads scheduler rows).events) : e ∈ scheduler.events ∨
      ∃ row ∈ rows, e.workflowSchedule.id = row.workflowScheduleId ∧ e.scheduledAt = row.nextTime := by
  induction rows generalizing scheduler with
  | nil => exact .inl he
  | cons row rows ih =>
    unfold load at he
    rcases ih he with hfirst | ⟨row', hrow, hat⟩
    · split at hfirst
      · by_cases hzero : row.workflowInstanceId = 0
        · rw [hzero, scheduleWorkflow_zero] at hfirst
          rcases List.mem_cons.mp ((insertEvent_perm _ _).mem_iff.mp hfirst) with rfl | hold
          · exact .inr ⟨row, List.mem_cons_self, rfl, rfl⟩
          · exact .inl hold
        · rw [scheduleWorkflow_of_ne hzero, setSlot_events] at hfirst
          exact .inl hfirst
      · exact .inl hfirst
    · exact .inr ⟨row', List.mem_cons_of_mem row hrow, hat⟩

theorem start_onTime {clock : Int} (hkeys : Keys active saved) (h : Restored db savepointLevel active saved)
    (hone : OneRunsOn saved id) (hrows : IsResult rows (leftJoin active
      (purge savepointLevel ((saved.filter (stays savepointLevel)).map SavedInstance.row))))
    (htimes : ∀ row ∈ rows, ∃ now, c.nextTime row.workflowScheduleId now = some row.nextTime) :
    OnTime db c id (start db clock
      ⟨create active, (saved.filter (stays savepointLevel)).map SavedInstance.row,
        (saved.filter runsOn).map SavedInstance.row⟩ rows) := by
  refine ⟨start_inv hkeys h hrows, atMostOne_start hkeys h hone hrows, ?_, nofun, nofun, .nil⟩
  intro e he hid
  refine ⟨?_, nofun⟩
  have hlist : e ∈ (load db.loads (create active) rows).events := by
    rcases List.mem_append.mp he with hlist | halarm
    · exact hlist
    · cases halarm
  rcases mem_load hlist with hnone | ⟨row, hrow, hsame, hat⟩
  · cases hnone
  · rcases htimes row hrow with ⟨now, hnext⟩
    rw [← hsame, hid] at hnext
    rw [hat]
    exact (Timetable.nextTime_spec hnext).2

end Start

/-- **Scheduled workflows begin one at a time, each time later than before, and when they may.**  From a start
that restores the instances of the active schedules, under a fixed offset and fixed schedules, in every
interleaving in which `Reload` begins only in between, the instances of a schedule begin for allowed times
only and not before them, the time of each lies behind the beginning of the one before, and no two of them are
alive. -/
theorem begun_of_run (db : Database) (c : Timetable) (clock : Int) (savepointLevel : Nat)
    (active : List UInt32) (saved : List SavedInstance) (b : Boot) (rows : List Row)
    (actions : List TimedAction) (s : TimedState) (id : UInt32) (hkeys : Keys active saved)
    (hstart : Restored db savepointLevel active saved)
    (hloop : resumeLoop savepointLevel (boot active) saved = some b)
    (hrows : IsResult rows (leftJoin active (purge savepointLevel b.executing)))
    (htimes : ∀ row ∈ rows, ∃ now, c.nextTime row.workflowScheduleId now = some row.nextTime)
    (hinst : State.Instantiable db id) (hone : OneRunsOn saved id)
    (hok : Meets (step db c) (ReloadsBetween db) (start db clock b rows) actions)
    (hrun : run (step db c) (start db clock b rows) actions = some s) :
    (s.begunOf id).Pairwise (fun b b' ↦ b.time < b'.scheduledAt) ∧
      (∀ b ∈ s.begunOf id, c.Allows id b.scheduledAt ∧ b.scheduledAt ≤ b.time) ∧
      (s.state.live id).length ≤ 1 := by
  have hboot := resumeLoop_eq (b := boot active) savepointLevel hkeys.sorted rfl hkeys.activeNonzero
    hstart.noneEnds
  rw [hloop, Option.some.injEq] at hboot
  subst hboot
  have hend := run_invariant (fun _ _ _ ↦ step_onTime hinst) (start_onTime hkeys hstart hone hrows htimes)
    hok hrun
  refine ⟨hend.increasing, ?_, ?_⟩
  · intro b hb
    exact ⟨(hend.begun b hb).1, (hend.begun b hb).2.1⟩
  · have hone := hend.atMostOne
    unfold State.AtMostOne at hone
    omega

instance (s : WorkflowScheduler) (id workflowInstanceId : UInt32) :
    Decidable (State.Recorded s id workflowInstanceId) :=
  match h : s.slot id with
  | some (wi, some ws) =>
      decidable_of_iff (wi = workflowInstanceId)
        ⟨fun heq ↦ ⟨ws, by rw [h, heq]⟩, fun ⟨_, hslot⟩ ↦ by
          rw [h, Option.some.injEq, Prod.mk.injEq] at hslot
          exact hslot.1⟩
  | some (_, none) => .isFalse fun ⟨_, hslot⟩ ↦ by simp [h] at hslot
  | none => .isFalse fun ⟨_, hslot⟩ ↦ by simp [h] at hslot

instance (s : TimedState) : (action : TimedAction) → Decidable (s.ReloadsBetween State.sane action)
  | .reloadBegin active _ =>
      -- over the lists, not over all identifiers
      letI (id : UInt32) : Decidable (∀ wi ∈ s.state.live id, State.Recorded s.state.scheduler id wi) :=
        List.decidableBAll _ _
      List.decidableBAll (fun id ↦ (true = true ∧ true = true) →
        (∀ e ∈ s.state.alarms, e.workflowSchedule.id ≠ id) ∧
          ∀ wi ∈ s.state.live id, State.Recorded s.state.scheduler id wi) active
  | .tick _ | .shiftEvent _ | .eventRemoved .. | .instanceStop .. | .reloadRow _ | .reloadEnd =>
      .isTrue trivial

/-- Every minute. -/
def everyMinute : Timetable where
  utcOffset := 0
  schedule _ := ⟨_, "0", rfl⟩
  fuel := 2

/-- An instance was resumed, and ends within the minute; then a `Reload` while the next is running. -/
def twoMinutes : List TimedAction :=
  [.tick 5, .instanceStop 7 true, .tick 55, .shiftEvent 70, .eventRemoved 0 1, .reloadBegin [5] [5],
    .reloadRow .continue, .reloadEnd, .tick 5, .instanceStop 1 true, .tick 45, .shiftEvent 120,
    .eventRemoved 0 2]

theorem begun_twoMinutes : ∃ s : TimedState, s.begunOf 5 = [⟨5, 60, 70⟩, ⟨5, 120, 120⟩] ∧
    (s.begunOf 5).Pairwise (fun b b' ↦ b.time < b'.scheduledAt) ∧
      (∀ b ∈ s.begunOf 5, everyMinute.Allows 5 b.scheduledAt ∧ b.scheduledAt ≤ b.time) ∧
      (s.state.live 5).length ≤ 1 := by
  have hbegun : (run (step State.sane everyMinute)
      (start State.sane 10 ⟨create [5], [(7, 5)], [(7, 5)]⟩ [⟨5, 7, .continue, 60⟩])
      twoMinutes).map (fun s ↦ s.begunOf 5) = some [⟨5, 60, 70⟩, ⟨5, 120, 120⟩] := by
    decide +kernel
  rcases Option.map_eq_some_iff.mp hbegun with ⟨s, hrun, hs⟩
  have hkeys : Keys [5] [⟨7, 5, .running⟩] := ⟨by decide, by decide, by decide, by decide⟩
  have hstart : Restored State.sane 2 [5] [⟨7, 5, .running⟩] := by
    constructor
    · constructor
      case noneEnds => simp [Resumed.deleted]
      case kept => simp [State.sane]
      case single => simp
    · simp
  have htimes : ∀ row ∈ [(⟨5, 7, .continue, 60⟩ : Row)],
      ∃ now, everyMinute.nextTime row.workflowScheduleId now = some row.nextTime := by
    intro row hrow
    rw [List.mem_singleton.mp hrow]
    exact ⟨10, by decide +kernel⟩
  have hone : OneRunsOn [⟨7, 5, .running⟩] 5 := by
    simp [OneRunsOn]
  have hok : Meets (step State.sane everyMinute) (ReloadsBetween State.sane)
      (start State.sane 10 ⟨create [5], [(7, 5)], [(7, 5)]⟩ [⟨5, 7, .continue, 60⟩]) twoMinutes := by
    decide +kernel
  exact ⟨s, hs, begun_of_run State.sane everyMinute 10 2 [5] [⟨7, 5, .running⟩]
    ⟨create [5], [(7, 5)], [(7, 5)]⟩ [⟨5, 7, .continue, 60⟩] twoMinutes s 5 hkeys hstart rfl (by decide)
    htimes ⟨rfl, rfl⟩ hone hok hrun⟩

end TimedState

end EvQueue.WorkflowScheduler
