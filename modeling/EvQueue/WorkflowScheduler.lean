import Mathlib.Data.List.Perm.Basic
import Mathlib.Data.UInt
import Mathlib.Order.Basic
import EvQueue.Base.SortedLookup

/-!
# WorkflowScheduler — pending and running scheduled workflows

The scheduler keeps a list of events in the order of their times, and for each active schedule, in three
parallel arrays, its id and the running instance with its schedule.  Every function below is one critical
section of `WorkflowScheduler.cpp` or `Scheduler.cpp`; `Reload` is split where it releases the mutex of
the event list.
-/

namespace EvQueue

/-- `onfailure_behavior`. -/
inductive OnFailureBehavior where
  | continue
  | suspend
deriving DecidableEq, Repr

/-- What the scheduler reads of a `WorkflowSchedule` object. -/
structure WorkflowSchedule where
  id : UInt32
  onFailure : OnFailureBehavior
deriving DecidableEq, Repr

/-- An event of the list. -/
structure ScheduledWorkflow where
  scheduledAt : Int
  workflowSchedule : WorkflowSchedule
deriving DecidableEq, Repr

structure WorkflowScheduler where
  /-- The list behind `first_event`; `number_of_events` is its length. -/
  events : List ScheduledWorkflow
  wfsIds : List UInt32
  wfsWiIds : List UInt32
  /-- `none` is the null pointer. -/
  wfsExecutingInstances : List (Option WorkflowSchedule)
deriving DecidableEq, Repr

namespace WorkflowScheduler

/-! ## The event list -/

/-- `InsertEvent`: behind the events that are due at the same time. -/
def insertEvent (newEvent : ScheduledWorkflow) : List ScheduledWorkflow → List ScheduledWorkflow
  | [] => [newEvent]
  | event :: events =>
      if newEvent.scheduledAt < event.scheduledAt then newEvent :: event :: events
      else event :: insertEvent newEvent events

/-- The event that is due, if there is one. -/
def shiftEvent (s : WorkflowScheduler) (currTime : Int) :
    Option (ScheduledWorkflow × WorkflowScheduler) :=
  match s.events with
  | [] => none
  | event :: events =>
      if event.scheduledAt ≤ currTime then some (event, { s with events }) else none

/-- `Flush` without a filter: `event_removed` deletes each schedule. -/
def flush (s : WorkflowScheduler) : WorkflowScheduler := { s with events := [] }

/-! ## The arrays -/

/-- `init`: the ids of the active schedules, in the order of the query. -/
def init (s : WorkflowScheduler) (active : List UInt32) : WorkflowScheduler :=
  { s with
    wfsIds := active
    wfsWiIds := List.replicate active.length 0
    wfsExecutingInstances := List.replicate active.length none }

/-- The constructor. -/
def create (active : List UInt32) : WorkflowScheduler :=
  init { events := [], wfsIds := [], wfsWiIds := [], wfsExecutingInstances := [] } active

/-- The two comparisons that `lookup` makes. -/
def compareId (x id : UInt32) : Ordering :=
  if x = id then .eq else if x < id then .lt else .gt

def lookup (ids : List UInt32) (id : UInt32) : Option Nat :=
  SortedLookup.lookup (fun middle ↦ compareId (ids[middle]?.getD 0) id) ids.length

def lookupWfs (s : WorkflowScheduler) (id : UInt32) : Option Nat := lookup s.wfsIds id

/-- The two assignments at the index of a schedule, when it has one. -/
def setSlot (s : WorkflowScheduler) (id : UInt32) (workflowInstanceId : UInt32)
    (workflowSchedule : Option WorkflowSchedule) : WorkflowScheduler :=
  match s.lookupWfs id with
  | none => s
  | some i =>
      { s with
        wfsWiIds := s.wfsWiIds.set i workflowInstanceId
        wfsExecutingInstances := s.wfsExecutingInstances.set i workflowSchedule }

/-- `nextTime` is what `workflow_schedule->GetNextTime()` gives. -/
def scheduleWorkflow (s : WorkflowScheduler) (workflowSchedule : WorkflowSchedule)
    (workflowInstanceId : UInt32) (nextTime : Int) : WorkflowScheduler :=
  if workflowInstanceId = 0 then
    { s with events := insertEvent ⟨nextTime, workflowSchedule⟩ s.events }
  else s.setSlot workflowSchedule.id workflowInstanceId (some workflowSchedule)

/-- The scheduler after it, and whether the schedule was made inactive in the database.  `none` is
undefined behaviour: the schedule that is used is null. -/
def scheduledWorkflowInstanceStop (s : WorkflowScheduler) (workflowScheduleId : UInt32)
    (success : Bool) (nextTime : Int) : Option (WorkflowScheduler × Bool) :=
  match s.lookupWfs workflowScheduleId with
  | none => some (s, false)
  | some i =>
      match s.wfsExecutingInstances[i]?.join with
      | none => none
      | some workflowSchedule =>
          let s := s.setSlot workflowScheduleId 0 none
          if success || workflowSchedule.onFailure == .continue then
            some (s.scheduleWorkflow workflowSchedule 0 nextTime, false)
          else some (s, true)

/-- The critical section of `event_removed` for reason `ALARM`, once the instance is made. -/
def eventRemoved (s : WorkflowScheduler) (e : ScheduledWorkflow) (workflowInstanceId : UInt32) :
    WorkflowScheduler :=
  s.setSlot e.workflowSchedule.id workflowInstanceId (some e.workflowSchedule)

/-- One row of the loop of `Reload`. -/
def reloadRow (s backup : WorkflowScheduler) (workflowSchedule : WorkflowSchedule) (nextTime : Int) :
    WorkflowScheduler :=
  match backup.lookupWfs workflowSchedule.id with
  | none => s.scheduleWorkflow workflowSchedule 0 nextTime
  | some i =>
      if backup.wfsExecutingInstances[i]?.join = none then
        s.scheduleWorkflow workflowSchedule 0 nextTime
      else s.scheduleWorkflow workflowSchedule (backup.wfsWiIds[i]?.getD 0) nextTime

/-- A row of the query by which `main` loads the schedules: the schedule, the executing instance or 0,
and what the constructor of the schedule reads. -/
structure Row where
  workflowScheduleId : UInt32
  workflowInstanceId : UInt32
  onFailure : OnFailureBehavior
  nextTime : Int
deriving DecidableEq, Repr

/-- The loop of `main` over the rows, where `loads` tells whether the constructor of the schedule
returns. -/
def load (loads : UInt32 → Bool) (s : WorkflowScheduler) : List Row → WorkflowScheduler
  | [] => s
  | row :: rows =>
      load loads
        (if loads row.workflowScheduleId then
          s.scheduleWorkflow ⟨row.workflowScheduleId, row.onFailure⟩ row.workflowInstanceId row.nextTime
        else s)
        rows

/-! ## What the operations do to the list and to the slots -/

section Operations

variable {s s' : WorkflowScheduler} {id id' : UInt32} {i : Nat}

theorem insertEvent_perm (e : ScheduledWorkflow) (events : List ScheduledWorkflow) :
    (insertEvent e events).Perm (e :: events) := by
  induction events with
  | nil => exact List.Perm.refl _
  | cons x events ih =>
    unfold insertEvent
    split
    · exact List.Perm.refl _
    · exact (ih.cons x).trans (List.Perm.swap e x events)

/-- The ids are sorted, and the arrays have their length. -/
structure WellFormed (s : WorkflowScheduler) : Prop where
  sorted : s.wfsIds.Pairwise (· < ·)
  wiIds : s.wfsWiIds.length = s.wfsIds.length
  executing : s.wfsExecutingInstances.length = s.wfsIds.length

theorem compareId_eq_iff {x : UInt32} : compareId x id = .eq ↔ x = id := by
  unfold compareId
  split
  · simp [*]
  · split <;> simp [*]

theorem compareId_of_lt {x : UInt32} (h : x < id) : compareId x id = .lt := by
  unfold compareId
  rw [if_neg (by rintro rfl; exact UInt32.lt_irrefl x h), if_pos h]

theorem compareId_of_gt {x : UInt32} (h : id < x) : compareId x id = .gt := by
  unfold compareId
  rw [if_neg (by rintro rfl; exact UInt32.lt_irrefl x h), if_neg (UInt32.lt_asymm h)]

theorem lookup_iff {ids : List UInt32} (hs : ids.Pairwise (· < ·)) :
    lookup ids id = some i ↔ ids[i]? = some id := by
  constructor
  · intro h
    have hspec := SortedLookup.lookup_eq_some h
    have hget := List.getElem?_eq_getElem hspec.2
    have heq := compareId_eq_iff.mp hspec.1
    rw [hget, Option.getD_some] at heq
    rw [hget, heq]
  · intro h
    have hlt := (List.getElem?_eq_some_iff.mp h).1
    have hid := (List.getElem?_eq_some_iff.mp h).2
    apply SortedLookup.lookup_of_splits _ hlt
    -- the ids before `i` are smaller and those behind it are greater
    refine ⟨?_, ?_, ?_⟩
    · rw [h]
      exact compareId_eq_iff.mpr rfl
    · intro j hji
      have hj : j < ids.length := by omega
      rw [List.getElem?_eq_getElem hj]
      have hlt' := List.pairwise_iff_getElem.mp hs j i hj hlt hji
      rw [hid] at hlt'
      exact compareId_of_lt hlt'
    · intro j hij hj
      rw [List.getElem?_eq_getElem hj]
      have hlt' := List.pairwise_iff_getElem.mp hs i j hlt hj hij
      rw [hid] at hlt'
      exact compareId_of_gt hlt'

/-- What the arrays hold for an active schedule. -/
def slot (s : WorkflowScheduler) (id : UInt32) : Option (UInt32 × Option WorkflowSchedule) :=
  (s.lookupWfs id).map fun i ↦ (s.wfsWiIds[i]?.getD 0, s.wfsExecutingInstances[i]?.join)

theorem slot_isSome (hw : s.WellFormed) : (s.slot id).isSome ↔ id ∈ s.wfsIds := by
  unfold slot
  rw [Option.isSome_map, Option.isSome_iff_exists, List.mem_iff_getElem?]
  constructor
  · rintro ⟨i, hi⟩
    exact ⟨i, (lookup_iff hw.sorted).mp hi⟩
  · rintro ⟨i, hi⟩
    exact ⟨i, (lookup_iff hw.sorted).mpr hi⟩

theorem setSlot_wfsIds {wi : UInt32} {ws : Option WorkflowSchedule} :
    (s.setSlot id wi ws).wfsIds = s.wfsIds := by
  unfold setSlot
  split <;> rfl

theorem setSlot_events {wi : UInt32} {ws : Option WorkflowSchedule} :
    (s.setSlot id wi ws).events = s.events := by
  unfold setSlot
  split <;> rfl

theorem WellFormed.setSlot {wi : UInt32} {ws : Option WorkflowSchedule} (hw : s.WellFormed) :
    (s.setSlot id wi ws).WellFormed := by
  unfold WorkflowScheduler.setSlot
  split
  · exact hw
  · exact ⟨hw.sorted, by simpa using hw.wiIds, by simpa using hw.executing⟩

theorem setSlot_of_slot_none {wi : UInt32} {ws : Option WorkflowSchedule}
    (h : s.slot id = none) : s.setSlot id wi ws = s := by
  unfold slot at h
  rw [Option.map_eq_none_iff] at h
  unfold setSlot
  rw [h]

theorem slot_setSlot {wi : UInt32} {ws : Option WorkflowSchedule} (hw : s.WellFormed) :
    (s.setSlot id wi ws).slot id' =
      if id' = id then (s.slot id).map fun _ ↦ (wi, ws) else s.slot id' := by
  cases hlook : s.lookupWfs id with
  | none =>
    have hslot : s.slot id = none := by
      unfold slot
      rw [hlook]
      rfl
    rw [setSlot_of_slot_none hslot, hslot]
    by_cases heq : id' = id
    · rw [if_pos heq, heq, hslot]
      rfl
    · rw [if_neg heq]
  | some i =>
    have hset : s.setSlot id wi ws = { s with
        wfsWiIds := s.wfsWiIds.set i wi
        wfsExecutingInstances := s.wfsExecutingInstances.set i ws } := by
      unfold WorkflowScheduler.setSlot
      rw [hlook]
    have hget := (lookup_iff hw.sorted).mp hlook
    have hlt := (List.getElem?_eq_some_iff.mp hget).1
    have hsame : ∀ x, (s.setSlot id wi ws).lookupWfs x = s.lookupWfs x := by
      intro x
      rw [hset]
      rfl
    unfold slot
    rw [hsame, hset]
    by_cases heq : id' = id
    · subst heq
      have hwi : i < s.wfsWiIds.length := by rw [hw.wiIds]; exact hlt
      have hex : i < s.wfsExecutingInstances.length := by rw [hw.executing]; exact hlt
      simp [hlook, hwi, hex]
    · rw [if_neg heq]
      cases hlook' : s.lookupWfs id' with
      | none => rfl
      | some j =>
        have hget' := (lookup_iff hw.sorted).mp hlook'
        have hij : i ≠ j := by
          intro hij
          subst hij
          exact heq (Option.some.inj (hget'.symm.trans hget))
        simp [List.getElem?_set_ne hij]

theorem scheduleWorkflow_zero (ws : WorkflowSchedule) (t : Int) :
    s.scheduleWorkflow ws 0 t = { s with events := insertEvent ⟨t, ws⟩ s.events } := by
  simp [scheduleWorkflow]

theorem scheduleWorkflow_of_ne {wi : UInt32} (hwi : wi ≠ 0) (ws : WorkflowSchedule) (t : Int) :
    s.scheduleWorkflow ws wi t = s.setSlot ws.id wi (some ws) := by
  simp [scheduleWorkflow, hwi]

theorem scheduleWorkflow_wfsIds (wi : UInt32) (ws : WorkflowSchedule) (t : Int) :
    (s.scheduleWorkflow ws wi t).wfsIds = s.wfsIds := by
  by_cases hwi : wi = 0
  · rw [hwi, scheduleWorkflow_zero]
  · rw [scheduleWorkflow_of_ne hwi, setSlot_wfsIds]

theorem WellFormed.of_events (hw : s.WellFormed) (events : List ScheduledWorkflow) :
    ({ s with events } : WorkflowScheduler).WellFormed :=
  ⟨hw.sorted, hw.wiIds, hw.executing⟩

theorem WellFormed.scheduleWorkflow (hw : s.WellFormed) (ws : WorkflowSchedule) (wi : UInt32)
    (t : Int) : (s.scheduleWorkflow ws wi t).WellFormed := by
  by_cases hwi : wi = 0
  · rw [hwi, scheduleWorkflow_zero]
    exact hw.of_events _
  · rw [scheduleWorkflow_of_ne hwi]
    exact hw.setSlot

theorem WellFormed.init {active : List UInt32} (hs : active.Pairwise (· < ·)) :
    (s.init active).WellFormed :=
  ⟨hs, by simp [WorkflowScheduler.init], by simp [WorkflowScheduler.init]⟩

theorem slot_init {active : List UInt32} (hs : active.Pairwise (· < ·)) :
    (s.init active).slot id = if id ∈ active then some (0, none) else none := by
  have hsome : ((s.init active).slot id).isSome ↔ id ∈ (s.init active).wfsIds :=
    slot_isSome (WellFormed.init hs)
  have hids : (s.init active).wfsIds = active := rfl
  rw [hids] at hsome
  split
  · rename_i hin
    unfold slot
    rcases Option.isSome_iff_exists.mp (hsome.mpr hin) with ⟨x, hx⟩
    rcases Option.map_eq_some_iff.mp hx with ⟨i, hi, -⟩
    rw [hi, Option.map_some]
    have hget := (lookup_iff hs).mp hi
    have hlt := (List.getElem?_eq_some_iff.mp hget).1
    simp [WorkflowScheduler.init, hlt]
  · rename_i hout
    rw [← Option.not_isSome_iff_eq_none]
    exact fun h ↦ hout (hsome.mp h)

theorem slot_init_ne_some {active : List UInt32} {wi : UInt32} {ws : WorkflowSchedule}
    (hs : active.Pairwise (· < ·)) : (s.init active).slot id ≠ some (wi, some ws) := by
  rw [slot_init hs]
  by_cases hin : id ∈ active
  · rw [if_pos hin]
    simp
  · rw [if_neg hin]
    simp

/-- The end of an instance, in terms of its slot. -/
theorem stop_eq (success : Bool) (t : Int) : s.scheduledWorkflowInstanceStop id success t =
    match s.slot id with
    | none => some (s, false)
    | some (_, none) => none
    | some (_, some ws) =>
        if success || ws.onFailure == .continue then
          some ((s.setSlot id 0 none).scheduleWorkflow ws 0 t, false)
        else some (s.setSlot id 0 none, true) := by
  unfold scheduledWorkflowInstanceStop slot
  cases s.lookupWfs id with
  | none => rfl
  | some i =>
    cases hex : s.wfsExecutingInstances[i]?.join with
    | none => simp [hex]
    | some ws => simp [hex]

/-- The three ways an instance ends: its schedule is unknown, it is made inactive, or it is
scheduled again. -/
theorem stop_cases {success removed : Bool} {t : Int}
    (h : s.scheduledWorkflowInstanceStop id success t = some (s', removed)) :
    (s.slot id = none ∧ s' = s ∧ removed = false) ∨
      ∃ wi ws, s.slot id = some (wi, some ws) ∧
        ((s' = s.setSlot id 0 none ∧ removed = true) ∨
          (s' = { s.setSlot id 0 none with
            events := insertEvent ⟨t, ws⟩ (s.setSlot id 0 none).events } ∧ removed = false)) := by
  rw [stop_eq] at h
  cases hslot : s.slot id with
  | none =>
    simp only [hslot, Option.some.injEq, Prod.mk.injEq] at h
    exact .inl ⟨rfl, h.1.symm, h.2.symm⟩
  | some x =>
    rcases x with ⟨wi, _ | ws⟩
    · simp only [hslot] at h
      cases h
    · simp only [hslot] at h
      refine .inr ⟨wi, ws, rfl, ?_⟩
      by_cases hagain : success || ws.onFailure == .continue
      · rw [if_pos hagain, scheduleWorkflow_zero, Option.some.injEq, Prod.mk.injEq] at h
        exact .inr ⟨h.1.symm, h.2.symm⟩
      · rw [if_neg hagain, Option.some.injEq, Prod.mk.injEq] at h
        exact .inl ⟨h.1.symm, h.2.symm⟩

theorem reloadRow_eq (backup : WorkflowScheduler) (ws : WorkflowSchedule) (t : Int) :
    s.reloadRow backup ws t =
      match backup.slot ws.id with
      | none => s.scheduleWorkflow ws 0 t
      | some (_, none) => s.scheduleWorkflow ws 0 t
      | some (wi, some _) => s.scheduleWorkflow ws wi t := by
  unfold reloadRow slot
  cases backup.lookupWfs ws.id with
  | none => rfl
  | some i =>
    cases hex : backup.wfsExecutingInstances[i]?.join with
    | none => simp [hex]
    | some x => simp [hex]

end Operations

end WorkflowScheduler

end EvQueue
