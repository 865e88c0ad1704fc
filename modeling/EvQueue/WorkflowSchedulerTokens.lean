import EvQueue.Base.Runs
import EvQueue.WorkflowScheduler

/-!
# WorkflowSchedulerTokens — each schedule is pending once or runs once

The state holds the scheduler, the events that retry threads have taken from the list, and the live
instances with the schedule each was made for.  A step is one critical section, so `Reload` is several:
`shift_event` takes the mutex of the event list only, and may run between any two of them.
-/

namespace EvQueue.WorkflowScheduler

open Runs

/-! ## The interleavings -/

/-- A `Reload` that holds `wfs_mutex`: the arrays it backed up and the rows that it has not read yet. -/
structure Reload where
  backup : WorkflowScheduler
  rows : List UInt32

structure State where
  scheduler : WorkflowScheduler
  /-- The events between `shift_event` and `event_removed`. -/
  alarms : List ScheduledWorkflow
  /-- The live instances of schedules: the id of the instance and that of the schedule. -/
  instances : List (UInt32 × UInt32)
  reload : Option Reload
  /-- The schedules made inactive by a failure since the arrays were built. -/
  suspended : List UInt32

/-- The times are what `GetNextTime` gives, the lists of ids what the two queries of `Reload` give. -/
inductive Action where
  | shiftEvent (currTime : Int)
  | eventRemoved (n : Nat) (workflowInstanceId : UInt32)
  | instanceStop (workflowInstanceId : UInt32) (success : Bool) (nextTime : Int)
  | reloadBegin (active rows : List UInt32)
  | reloadRow (onFailure : OnFailureBehavior) (nextTime : Int)
  | reloadEnd

/-- `loads id`: the constructor of `WorkflowSchedule` returns; `instantiates id`: that of the
`WorkflowInstance` of an event returns. -/
structure Database where
  loads : UInt32 → Bool
  instantiates : UInt32 → Bool

namespace State

variable (db : Database)

def shiftEvent (s : State) (currTime : Int) : Option State :=
  match s.scheduler.shiftEvent currTime with
  | none => none
  | some (event, scheduler) => some { s with scheduler, alarms := event :: s.alarms }

def eventRemoved (s : State) (n : Nat) (workflowInstanceId : UInt32) : Option State :=
  match s.alarms[n]? with
  | none => none
  | some e =>
      if db.instantiates e.workflowSchedule.id then
        -- the section needs `wfs_mutex`, and the database gives every instance an id of its own
        if s.reload.isNone ∧ workflowInstanceId ≠ 0 ∧
            workflowInstanceId ∉ s.instances.map Prod.fst then
          some { s with
            scheduler := s.scheduler.eventRemoved e workflowInstanceId
            alarms := s.alarms.eraseIdx n
            instances := (workflowInstanceId, e.workflowSchedule.id) :: s.instances }
        else none
      else some { s with alarms := s.alarms.eraseIdx n }

/-- The instance is deleted. -/
def instanceStop (s : State) (workflowInstanceId : UInt32) (success : Bool) (nextTime : Int) :
    Option State :=
  match s.instances.find? fun x ↦ x.1 = workflowInstanceId with
  | none => none
  | some (_, id) =>
      if s.reload.isNone then
        match s.scheduler.scheduledWorkflowInstanceStop id success nextTime with
        | none => none
        | some (scheduler, removed) =>
            some { s with
              scheduler
              instances := s.instances.filter fun x ↦ x.1 ≠ workflowInstanceId
              suspended := if removed then id :: s.suspended else s.suspended }
      else none

/-- Up to the end of `init` and the second query, which gives the same rows in any order. -/
def reloadBegin (s : State) (active rows : List UInt32) : Option State :=
  if s.reload.isNone ∧ active.Pairwise (· < ·) ∧ rows.isPerm active then
    some { s with
      scheduler := s.scheduler.flush.init active
      reload := some { backup := s.scheduler, rows }
      suspended := [] }
  else none

def reloadRow (s : State) (onFailure : OnFailureBehavior) (nextTime : Int) : Option State :=
  match s.reload with
  | some { backup, rows := id :: rows } =>
      some { s with
        scheduler :=
          if db.loads id then s.scheduler.reloadRow backup ⟨id, onFailure⟩ nextTime
          else s.scheduler
        reload := some { backup, rows } }
  | _ => none

def reloadEnd (s : State) : Option State :=
  match s.reload with
  | some { rows := [], .. } => some { s with reload := none }
  | _ => none

def step (s : State) : Action → Option State
  | .shiftEvent currTime => s.shiftEvent currTime
  | .eventRemoved n workflowInstanceId => s.eventRemoved db n workflowInstanceId
  | .instanceStop workflowInstanceId success nextTime =>
      s.instanceStop workflowInstanceId success nextTime
  | .reloadBegin active rows => s.reloadBegin active rows
  | .reloadRow onFailure nextTime => s.reloadRow db onFailure nextTime
  | .reloadEnd => s.reloadEnd

/-- The engine when `main` has loaded the rows. -/
def start (scheduler : WorkflowScheduler) (rows : List Row) (instances : List (UInt32 × UInt32)) :
    State :=
  { scheduler := load db.loads scheduler rows
    alarms := []
    instances
    reload := none
    suspended := [] }

/-! ## Tokens -/

/-- The number of events of a schedule. -/
def eventsOf (id : UInt32) (events : List ScheduledWorkflow) : Nat :=
  events.countP fun e ↦ e.workflowSchedule.id = id

def pending (s : State) (id : UInt32) : Nat := eventsOf id s.scheduler.events + eventsOf id s.alarms

/-- The live instances of a schedule. -/
def live (s : State) (id : UInt32) : List UInt32 :=
  (s.instances.filter fun x ↦ x.2 = id).map Prod.fst

/-- The arrays hold this instance with a schedule. -/
def Recorded (s : WorkflowScheduler) (id workflowInstanceId : UInt32) : Prop :=
  ∃ workflowSchedule, s.slot id = some (workflowInstanceId, some workflowSchedule)

/-- Pending once and not running, or running once and not pending. -/
def OneToken (s : State) (id : UInt32) : Prop :=
  (s.pending id = 1 ∧ s.live id = []) ∨
    (s.pending id = 0 ∧ ∃ wi, s.live id = [wi] ∧ Recorded s.scheduler id wi)

def Instantiable (id : UInt32) : Prop := db.loads id ∧ db.instantiates id

/-- Every active schedule that can be instantiated has one token, unless a failure has made it
inactive. -/
def Tokens (s : State) : Prop :=
  s.reload = none → ∀ id ∈ s.scheduler.wfsIds, Instantiable db id → id ∉ s.suspended → s.OneToken id

/-- `Reload` begins while no active schedule has an event in the hands of a retry thread, or an
instance that the arrays do not hold. -/
def ReloadsBetween (s : State) : Action → Prop
  | .reloadBegin active _ => ∀ id ∈ active, Instantiable db id →
      (∀ e ∈ s.alarms, e.workflowSchedule.id ≠ id) ∧ ∀ wi ∈ s.live id, Recorded s.scheduler id wi
  | _ => True

/-! ## Counting -/

variable {db} {s s' : State} {id id' wi : UInt32}

theorem mem_live : wi ∈ s.live id ↔ (wi, id) ∈ s.instances := by
  unfold live
  rw [List.mem_map]
  constructor
  · intro h
    rcases h with ⟨⟨a, b⟩, hx, ha⟩
    rw [List.mem_filter, decide_eq_true_eq] at hx
    have hb : b = id := hx.2
    rw [← hb, ← ha]
    exact hx.1
  · intro h
    exact ⟨(wi, id), List.mem_filter.mpr ⟨h, by simp⟩, rfl⟩

theorem eventsOf_cons (e : ScheduledWorkflow) (events : List ScheduledWorkflow) :
    eventsOf id (e :: events) = eventsOf id events + if e.workflowSchedule.id = id then 1 else 0 := by
  unfold eventsOf
  rw [List.countP_cons]
  simp only [decide_eq_true_eq]

theorem eventsOf_perm {l l' : List ScheduledWorkflow} (h : l.Perm l') :
    eventsOf id l = eventsOf id l' :=
  h.countP_eq _

theorem eventsOf_insertEvent (e : ScheduledWorkflow) (events : List ScheduledWorkflow) :
    eventsOf id (insertEvent e events) =
      eventsOf id events + if e.workflowSchedule.id = id then 1 else 0 := by
  rw [eventsOf_perm (insertEvent_perm e events), eventsOf_cons]

theorem eventsOf_eraseIdx {l : List ScheduledWorkflow} {n : Nat} {e : ScheduledWorkflow}
    (he : l[n]? = some e) :
    eventsOf id l = eventsOf id (l.eraseIdx n) + if e.workflowSchedule.id = id then 1 else 0 := by
  have hn := (List.getElem?_eq_some_iff.mp he).1
  have hget := (List.getElem?_eq_some_iff.mp he).2
  rw [← eventsOf_perm (List.getElem_cons_eraseIdx_perm hn), eventsOf_cons, hget]

theorem live_cons (wi id' : UInt32) :
    State.live { s with instances := (wi, id') :: s.instances } id =
      if id' = id then wi :: s.live id else s.live id := by
  unfold live
  by_cases heq : id' = id <;> simp [heq]

theorem live_filter (s : State) (wi id : UInt32) :
    State.live { s with instances := s.instances.filter fun x ↦ x.1 ≠ wi } id =
      (s.live id).filter fun x ↦ x ≠ wi := by
  unfold live
  rw [List.filter_map, List.filter_filter, List.filter_filter]
  congr 1
  apply List.filter_congr
  intro x _
  simp [Bool.and_comm]

/-! ## The arrays and the live instances -/

/-- A schedule in the arrays is the one of its slot, and an instance is with it. -/
structure Arrays (scheduler : WorkflowScheduler) : Prop where
  wellFormed : scheduler.WellFormed
  filled : ∀ id wi workflowSchedule, scheduler.slot id = some (wi, some workflowSchedule) →
    workflowSchedule.id = id ∧ wi ≠ 0

section Arrays

variable {scheduler : WorkflowScheduler} {instances : List (UInt32 × UInt32)}
variable {workflowSchedule : WorkflowSchedule}

theorem Arrays.of_events (h : Arrays scheduler) (events : List ScheduledWorkflow) :
    Arrays { scheduler with events } :=
  ⟨h.wellFormed.of_events events, h.filled⟩

/-- Whether the slot is filled or emptied. -/
theorem Arrays.setSlot {ws : Option WorkflowSchedule} (h : Arrays scheduler)
    (hnew : ∀ workflowSchedule, ws = some workflowSchedule → workflowSchedule.id = id ∧ wi ≠ 0) :
    Arrays (scheduler.setSlot id wi ws) := by
  refine ⟨h.wellFormed.setSlot, ?_⟩
  intro id' wi' ws' hslot
  rw [slot_setSlot h.wellFormed] at hslot
  by_cases heq : id' = id
  · rw [if_pos heq] at hslot
    rcases Option.map_eq_some_iff.mp hslot with ⟨x, -, hx⟩
    have hwi : wi = wi' := congrArg Prod.fst hx
    have hws : ws = some ws' := congrArg Prod.snd hx
    rw [heq, ← hwi]
    exact hnew ws' hws
  · rw [if_neg heq] at hslot
    exact h.filled id' wi' ws' hslot

theorem instance_unique (hkeys : (instances.map Prod.fst).Nodup) (h : (wi, id) ∈ instances)
    (h' : (wi, id') ∈ instances) : id = id' :=
  congrArg Prod.snd (List.inj_on_of_nodup_map hkeys h h' rfl)

theorem recorded_setSlot (h : scheduler.WellFormed) (hid : id ∈ scheduler.wfsIds) :
    Recorded (scheduler.setSlot id wi (some workflowSchedule)) id wi := by
  unfold Recorded
  rw [slot_setSlot h, if_pos rfl]
  rcases Option.isSome_iff_exists.mp ((slot_isSome h).mpr hid) with ⟨x, hx⟩
  exact ⟨workflowSchedule, by rw [hx]; rfl⟩

/-- A slot that was filled holds this instance, and one that was emptied none. -/
theorem of_recorded_setSlot {wi' : UInt32} {ws : Option WorkflowSchedule} (h : scheduler.WellFormed)
    (hrec : Recorded (scheduler.setSlot id wi ws) id wi') : wi' = wi ∧ ws ≠ none := by
  rcases hrec with ⟨ws', hslot⟩
  rw [slot_setSlot h, if_pos rfl] at hslot
  rcases Option.map_eq_some_iff.mp hslot with ⟨x, -, hx⟩
  refine ⟨(congrArg Prod.fst hx).symm, ?_⟩
  rw [show ws = some ws' from congrArg Prod.snd hx]
  exact Option.some_ne_none ws'

end Arrays

/-- What every state keeps: the arrays are in order, and the live instances have distinct ids. -/
structure Sound (s : State) : Prop where
  arrays : Arrays s.scheduler
  keys : (s.instances.map Prod.fst).Nodup

/-! ## What a step does -/

/-- The step touches no other schedule than this one. -/
structure Touches (s s' : State) (id : UInt32) : Prop where
  wfsIds : s'.scheduler.wfsIds = s.scheduler.wfsIds
  pending : ∀ id', id' ≠ id → s'.pending id' = s.pending id'
  live : ∀ id', id' ≠ id → s'.live id' = s.live id'
  slot : ∀ id', id' ≠ id → s'.scheduler.slot id' = s.scheduler.slot id'

/-- Events may move or vanish, and nothing else changes. -/
structure Moves (s s' : State) : Prop where
  sound : s'.Sound
  wfsIds : s'.scheduler.wfsIds = s.scheduler.wfsIds
  slot : ∀ id, s'.scheduler.slot id = s.scheduler.slot id
  instances : s'.instances = s.instances
  reload : s'.reload = s.reload
  suspended : s'.suspended = s.suspended

/-- An event becomes an instance. -/
structure Begins (s s' : State) (id wi : UInt32) : Prop where
  sound : s'.Sound
  touches : Touches s s' id
  reload : s.reload = none
  reload' : s'.reload = none
  suspended : s'.suspended = s.suspended
  pending : s.pending id = s'.pending id + 1
  live : s'.live id = wi :: s.live id
  recorded : id ∈ s.scheduler.wfsIds → Recorded s'.scheduler id wi
  only : ∀ wi', Recorded s'.scheduler id wi' → wi' = wi

/-- An instance ends, and becomes an event unless its schedule is unknown or made inactive. -/
structure Ends (s s' : State) (id wi : UInt32) : Prop where
  sound : s'.Sound
  touches : Touches s s' id
  reload : s.reload = none
  reload' : s'.reload = none
  wasLive : wi ∈ s.live id
  live : s'.live id = (s.live id).filter fun x ↦ x ≠ wi
  emptied : ∀ wi', ¬ Recorded s'.scheduler id wi'
  next : (s'.pending id = s.pending id + 1 ∧ s'.suspended = s.suspended) ∨
    (s'.pending id = s.pending id ∧ id ∉ s.scheduler.wfsIds ∧ s'.suspended = s.suspended) ∨
    (s'.pending id = s.pending id ∧ s'.suspended = id :: s.suspended)

theorem shiftEvent_moves {currTime : Int} (h : s.Sound)
    (hstep : s.shiftEvent currTime = some s') :
    Moves s s' ∧ ∀ id, s'.pending id = s.pending id := by
  unfold shiftEvent WorkflowScheduler.shiftEvent at hstep
  cases hevents : s.scheduler.events with
  | nil =>
    rw [hevents] at hstep
    cases hstep
  | cons event events =>
    rw [hevents] at hstep
    by_cases hdue : event.scheduledAt ≤ currTime
    · simp only [if_pos hdue, Option.some.injEq] at hstep
      subst hstep
      refine ⟨⟨⟨h.arrays.of_events events, h.keys⟩, rfl, fun _ ↦ rfl, rfl, rfl, rfl⟩, ?_⟩
      -- the event only moves from the list into the hands of a thread
      intro id
      show eventsOf id events + eventsOf id (event :: s.alarms) = s.pending id
      unfold pending
      rw [hevents, eventsOf_cons, eventsOf_cons]
      omega
    · simp only [if_neg hdue] at hstep
      cases hstep

/-- The event is dropped when its workflow cannot be instantiated, and otherwise becomes an instance. -/
theorem eventRemoved_cases {n : Nat} (h : s.Sound) (hstep : s.eventRemoved db n wi = some s') :
    ∃ id, (db.instantiates id = false ∧ Moves s s' ∧
        ∀ id', s.pending id' = s'.pending id' + if id = id' then 1 else 0) ∨
      (db.instantiates id = true ∧ Begins s s' id wi) := by
  unfold eventRemoved at hstep
  cases he : s.alarms[n]? with
  | none =>
    rw [he] at hstep
    cases hstep
  | some e =>
    rw [he] at hstep
    refine ⟨e.workflowSchedule.id, ?_⟩
    -- the event leaves the alarms
    have hcount : ∀ id, eventsOf id s.alarms = eventsOf id (s.alarms.eraseIdx n) +
        if e.workflowSchedule.id = id then 1 else 0 := fun _ ↦ eventsOf_eraseIdx he
    -- the constructor raises, or there is an instance with a new id
    by_cases hgood : db.instantiates e.workflowSchedule.id = true
    · simp only [if_pos hgood] at hstep
      by_cases hnew : s.reload.isNone ∧ wi ≠ 0 ∧ wi ∉ s.instances.map Prod.fst
      · simp only [if_pos hnew, Option.some.injEq] at hstep
        subst hstep
        have hreload : s.reload = none := Option.isNone_iff_eq_none.mp hnew.1
        have hpending : ∀ id, State.pending { s with
            scheduler := s.scheduler.eventRemoved e wi
            alarms := s.alarms.eraseIdx n
            instances := (wi, e.workflowSchedule.id) :: s.instances } id =
            eventsOf id s.scheduler.events + eventsOf id (s.alarms.eraseIdx n) := by
          intro id
          show eventsOf id (s.scheduler.setSlot _ _ _).events + _ = _
          rw [setSlot_events]
        refine .inr ⟨hgood, ?_⟩
        constructor
        case sound =>
          refine ⟨?_, List.nodup_cons.mpr ⟨hnew.2.2, h.keys⟩⟩
          apply h.arrays.setSlot
          intro ws hws
          cases hws
          exact ⟨rfl, hnew.2.1⟩
        case touches =>
          constructor
          case wfsIds => exact setSlot_wfsIds
          case pending =>
            intro id hne
            have hone := hcount id
            rw [if_neg (Ne.symm hne)] at hone
            rw [hpending id]
            unfold pending
            omega
          case live =>
            intro id hne
            apply (live_cons wi e.workflowSchedule.id).trans
            rw [if_neg (Ne.symm hne)]
          case slot =>
            intro id hne
            show (s.scheduler.setSlot _ _ _).slot id = _
            rw [slot_setSlot h.arrays.wellFormed, if_neg hne]
        case reload => exact hreload
        case reload' => exact hreload
        case suspended => rfl
        case pending =>
          have hone := hcount e.workflowSchedule.id
          rw [if_pos rfl] at hone
          rw [hpending]
          unfold pending
          omega
        case live =>
          apply (live_cons wi e.workflowSchedule.id).trans
          rw [if_pos rfl]
        case recorded =>
          intro hid
          exact recorded_setSlot h.arrays.wellFormed hid
        case only =>
          intro wi' hrec
          exact (of_recorded_setSlot h.arrays.wellFormed hrec).1
      · simp only [if_neg hnew] at hstep
        cases hstep
    · simp only [if_neg hgood, Option.some.injEq] at hstep
      subst hstep
      rw [Bool.not_eq_true] at hgood
      refine .inl ⟨hgood, ⟨⟨h.arrays, h.keys⟩, rfl, fun _ ↦ rfl, rfl, rfl, rfl⟩, ?_⟩
      intro id
      show eventsOf id s.scheduler.events + eventsOf id s.alarms =
        eventsOf id s.scheduler.events + eventsOf id (s.alarms.eraseIdx n) + _
      rw [hcount id]
      omega

/-- Where the instance and its schedule are found. -/
theorem instanceStop_cases {success : Bool} {t : Int}
    (hstep : s.instanceStop wi success t = some s') :
    ∃ id scheduler removed, (wi, id) ∈ s.instances ∧ s.reload = none ∧
      s.scheduler.scheduledWorkflowInstanceStop id success t = some (scheduler, removed) ∧
      s' = { s with
        scheduler
        instances := s.instances.filter fun x ↦ x.1 ≠ wi
        suspended := if removed then id :: s.suspended else s.suspended } := by
  unfold instanceStop at hstep
  cases hfind : s.instances.find? fun x ↦ x.1 = wi with
  | none =>
    rw [hfind] at hstep
    cases hstep
  | some x =>
    have hmem := List.mem_of_find?_eq_some hfind
    have hkey := List.find?_some hfind
    rcases x with ⟨wi', id⟩
    simp only [decide_eq_true_eq] at hkey
    rw [hkey] at hmem
    simp only [hfind] at hstep
    by_cases hreload : s.reload.isNone
    · rw [if_pos hreload] at hstep
      rw [Option.isNone_iff_eq_none] at hreload
      cases hstop : s.scheduler.scheduledWorkflowInstanceStop id success t with
      | none =>
        rw [hstop] at hstep
        cases hstep
      | some y =>
        rcases y with ⟨scheduler, removed⟩
        simp only [hstop, Option.some.injEq] at hstep
        exact ⟨id, scheduler, removed, hmem, hreload, hstop, hstep.symm⟩
    · rw [if_neg hreload] at hstep
      cases hstep

theorem instanceStop_ends {success : Bool} {t : Int} (h : s.Sound)
    (hstep : s.instanceStop wi success t = some s') : ∃ id, Ends s s' id wi := by
  rcases instanceStop_cases hstep with ⟨id, scheduler, removed, hmem, hreload, hstop, rfl⟩
  refine ⟨id, ?_⟩
  have hwell := h.arrays.wellFormed
  have harrays : Arrays (s.scheduler.setSlot id 0 none) := h.arrays.setSlot nofun
  have hemptied : ∀ wi', ¬ Recorded (s.scheduler.setSlot id 0 none) id wi' :=
    fun wi' hrec ↦ (of_recorded_setSlot hwell hrec).2 rfl
  have hkeys : ((s.instances.filter fun x ↦ x.1 ≠ wi).map Prod.fst).Nodup :=
    h.keys.sublist (List.Sublist.map _ List.filter_sublist)
  have hother : ∀ id', id' ≠ id → ((s.live id').filter fun x ↦ x ≠ wi) = s.live id' := by
    intro id' hne
    rw [List.filter_eq_self]
    intro x hx
    rw [decide_eq_true_eq]
    intro hxwi
    rw [hxwi] at hx
    exact hne (instance_unique h.keys (mem_live.mp hx) hmem)
  have hslot : ∀ id', id' ≠ id →
      (s.scheduler.setSlot id 0 none).slot id' = s.scheduler.slot id' := by
    intro id' hne
    rw [slot_setSlot hwell, if_neg hne]
  -- the instances are the same whatever becomes of the schedule
  have hlive : ∀ id', id' ≠ id → State.live { s with
      scheduler
      instances := s.instances.filter fun x ↦ x.1 ≠ wi
      suspended := if removed then id :: s.suspended else s.suspended } id' = s.live id' := by
    intro id' hne
    rw [← hother id' hne]
    exact live_filter s wi id'
  -- the schedule has vanished, is suspended, or is scheduled again
  rcases stop_cases hstop with ⟨hnone, rfl, rfl⟩ | ⟨w, ws, hsome, ⟨rfl, rfl⟩ | ⟨rfl, rfl⟩⟩
  · rw [setSlot_of_slot_none hnone] at harrays hemptied
    have hout : id ∉ s.scheduler.wfsIds := by
      rw [← slot_isSome hwell, hnone]
      simp
    exact {
      sound := ⟨harrays, hkeys⟩
      touches := ⟨rfl, fun _ _ ↦ rfl, hlive, fun _ _ ↦ rfl⟩
      reload := hreload
      reload' := hreload
      wasLive := mem_live.mpr hmem
      live := live_filter s wi id
      emptied := hemptied
      next := .inr (.inl ⟨rfl, hout, rfl⟩) }
  · have hpending : ∀ id', eventsOf id' (s.scheduler.setSlot id 0 none).events +
        eventsOf id' s.alarms = s.pending id' := by
      intro id'
      rw [setSlot_events]
      rfl
    exact {
      sound := ⟨harrays, hkeys⟩
      touches := ⟨setSlot_wfsIds, fun id' _ ↦ hpending id', hlive, hslot⟩
      reload := hreload
      reload' := hreload
      wasLive := mem_live.mpr hmem
      live := live_filter s wi id
      emptied := hemptied
      next := .inr (.inr ⟨hpending id, rfl⟩) }
  · have hpending : ∀ id', eventsOf id' (insertEvent ⟨t, ws⟩ (s.scheduler.setSlot id 0 none).events) +
        eventsOf id' s.alarms = s.pending id' + if ws.id = id' then 1 else 0 := by
      intro id'
      rw [eventsOf_insertEvent, setSlot_events]
      unfold pending
      dsimp only
      omega
    have hws : ws.id = id := (h.arrays.filled id w ws hsome).1
    exact {
      sound := ⟨harrays.of_events _, hkeys⟩
      touches := by
        refine ⟨setSlot_wfsIds, ?_, hlive, hslot⟩
        intro id' hne
        apply (hpending id').trans
        rw [hws, if_neg (Ne.symm hne)]
        rfl
      reload := hreload
      reload' := hreload
      wasLive := mem_live.mpr hmem
      live := live_filter s wi id
      emptied := hemptied
      next := by
        refine .inl ⟨?_, rfl⟩
        apply (hpending id).trans
        rw [if_pos hws] }

/-- What a row does: the schedule gets an event, or the slot of the instance that the backup holds. -/
theorem reloadRow_cases {backup scheduler : WorkflowScheduler} (ws : WorkflowSchedule) (t : Int)
    (h : Arrays backup) :
    (scheduler.reloadRow backup ws t = { scheduler with
        events := insertEvent ⟨t, ws⟩ scheduler.events } ∧ ∀ wi, ¬ Recorded backup ws.id wi) ∨
      ∃ wi, scheduler.reloadRow backup ws t = scheduler.setSlot ws.id wi (some ws) ∧
        Recorded backup ws.id wi ∧ wi ≠ 0 := by
  rw [reloadRow_eq]
  unfold Recorded
  cases hslot : backup.slot ws.id with
  | none =>
    apply Or.inl
    simp [scheduleWorkflow_zero]
  | some x =>
    rcases x with ⟨wi, _ | ws'⟩
    · apply Or.inl
      simp [scheduleWorkflow_zero]
    · apply Or.inr
      have hwi := (h.filled ws.id wi ws' hslot).2
      exact ⟨wi, scheduleWorkflow_of_ne hwi ws t, ⟨ws', rfl⟩, hwi⟩

/-! ## The invariant -/

/-- The tokens of a schedule depend on its events, its instances and its slot. -/
theorem OneToken.congr (hp : s'.pending id = s.pending id) (hl : s'.live id = s.live id)
    (hslot : s'.scheduler.slot id = s.scheduler.slot id) (h : s.OneToken id) : s'.OneToken id := by
  unfold OneToken Recorded at *
  rw [hp, hl, hslot]
  exact h

theorem Touches.oneToken (h : Touches s s' id) (hne : id' ≠ id) (htok : s.OneToken id') :
    s'.OneToken id' :=
  htok.congr (h.pending id' hne) (h.live id' hne) (h.slot id' hne)

/-- A row that `Reload` has still to read: no event, and the backup holds its instances and no other. -/
def Waiting (s : State) (backup : WorkflowScheduler) (id : UInt32) : Prop :=
  s.pending id = 0 ∧ ∀ wi, wi ∈ s.live id ↔ Recorded backup id wi

structure Reloading (db : Database) (s : State) (r : Reload) : Prop where
  backup : Arrays r.backup
  nodup : r.rows.Nodup
  active : ∀ id ∈ r.rows, id ∈ s.scheduler.wfsIds
  waiting : ∀ id ∈ r.rows, Instantiable db id → s.Waiting r.backup id
  loaded : ∀ id ∈ s.scheduler.wfsIds, id ∉ r.rows → Instantiable db id → s.OneToken id

structure Inv (db : Database) (s : State) : Prop where
  sound : s.Sound
  alive : ∀ id, Instantiable db id → ∀ wi, Recorded s.scheduler id wi → wi ∈ s.live id
  tokens : Tokens db s
  reloading : ∀ r, s.reload = some r → Reloading db s r

/-- An instance of the arrays stays alive where the step touches no slot and no instance. -/
theorem Touches.alive (h : Touches s s' id) (hne : id' ≠ id)
    (hold : ∀ wi, Recorded s.scheduler id' wi → wi ∈ s.live id') :
    ∀ wi, Recorded s'.scheduler id' wi → wi ∈ s'.live id' := by
  unfold Recorded
  rw [h.slot id' hne, h.live id' hne]
  exact hold

/-- Events may move, and those that cannot be instantiated may vanish. -/
theorem Moves.inv (hm : Moves s s') (h : Inv db s)
    (hp : ∀ id, Instantiable db id → s'.pending id = s.pending id) : Inv db s' := by
  have hlive : ∀ id, s'.live id = s.live id := by
    intro id
    unfold live
    rw [hm.instances]
  have htoken : ∀ id, Instantiable db id → s.OneToken id → s'.OneToken id := by
    intro id hinst htok
    exact htok.congr (hp id hinst) (hlive id) (hm.slot id)
  refine ⟨hm.sound, ?_, ?_, ?_⟩
  · intro id hinst wi hrec
    unfold Recorded at hrec
    rw [hm.slot] at hrec
    rw [hlive]
    exact h.alive id hinst wi hrec
  · intro hnone id hid hinst hsusp
    rw [hm.reload] at hnone
    rw [hm.wfsIds] at hid
    rw [hm.suspended] at hsusp
    exact htoken id hinst (h.tokens hnone id hid hinst hsusp)
  · intro r hr
    rw [hm.reload] at hr
    have hre := h.reloading r hr
    refine ⟨hre.backup, hre.nodup, ?_, ?_, ?_⟩
    · intro id hid
      rw [hm.wfsIds]
      exact hre.active id hid
    · intro id hid hinst
      have hw := hre.waiting id hid hinst
      unfold Waiting
      rw [hp id hinst, hlive]
      exact hw
    · intro id hid hrow hinst
      rw [hm.wfsIds] at hid
      exact htoken id hinst (hre.loaded id hid hrow hinst)

/-- The event was the only token of its schedule. -/
theorem Begins.inv (hb : Begins s s' id wi) (h : Inv db s) : Inv db s' := by
  refine ⟨hb.sound, ?_, ?_, ?_⟩
  · intro id' hinst
    by_cases heq : id' = id
    · rw [heq, hb.live]
      intro wi' hrec
      rw [hb.only wi' hrec]
      exact List.mem_cons_self
    · exact hb.touches.alive heq (h.alive id' hinst)
  · intro _ id' hid hinst hsusp
    rw [hb.touches.wfsIds] at hid
    rw [hb.suspended] at hsusp
    have htok := h.tokens hb.reload id' hid hinst hsusp
    by_cases heq : id' = id
    · rw [heq] at htok hid ⊢
      have hp := hb.pending
      rcases htok with ⟨hone, hl⟩ | ⟨hzero, -⟩
      · have hlive := hb.live
        rw [hl] at hlive
        exact .inr ⟨by omega, wi, hlive, hb.recorded hid⟩
      · omega
    · exact hb.touches.oneToken heq htok
  · intro r hr
    rw [hb.reload'] at hr
    cases hr

/-- The instance was the only token of its schedule. -/
theorem Ends.inv (he : Ends s s' id wi) (h : Inv db s) : Inv db s' := by
  refine ⟨he.sound, ?_, ?_, ?_⟩
  · intro id' hinst
    by_cases heq : id' = id
    · rw [heq]
      intro wi' hrec
      exact absurd hrec (he.emptied wi')
    · exact he.touches.alive heq (h.alive id' hinst)
  · intro _ id' hid hinst hsusp
    rw [he.touches.wfsIds] at hid
    by_cases heq : id' = id
    · rw [heq] at hid hinst hsusp ⊢
      rcases he.next with ⟨hp, hs⟩ | ⟨-, hout, -⟩ | ⟨-, hs⟩
      · rw [hs] at hsusp
        have hwas := he.wasLive
        have hlive := he.live
        rcases h.tokens he.reload id hid hinst hsusp with ⟨-, hl⟩ | ⟨hzero, wi', hl, -⟩
        · rw [hl] at hwas
          cases hwas
        · rw [hl, List.mem_singleton] at hwas
          rw [hl, hwas] at hlive
          apply Or.inl
          refine ⟨by omega, hlive.trans ?_⟩
          simp
      · exact absurd hid hout
      · rw [hs] at hsusp
        exact absurd List.mem_cons_self hsusp
    · have hsusp' : id' ∉ s.suspended := by
        intro hin
        rcases he.next with ⟨-, hs⟩ | ⟨-, -, hs⟩ | ⟨-, hs⟩
        all_goals rw [hs] at hsusp
        · exact hsusp hin
        · exact hsusp hin
        · exact hsusp (List.mem_cons_of_mem id hin)
      exact he.touches.oneToken heq (h.tokens he.reload id' hid hinst hsusp')
  · intro r hr
    rw [he.reload'] at hr
    cases hr

/-- The condition on `Reload` is what the rows need that it will read. -/
theorem reloadBegin_inv {active rows : List UInt32} (h : Inv db s)
    (hok : s.ReloadsBetween db (.reloadBegin active rows))
    (hstep : s.reloadBegin active rows = some s') : Inv db s' := by
  unfold reloadBegin at hstep
  by_cases hbegin : s.reload.isNone ∧ active.Pairwise (· < ·) ∧ rows.isPerm active
  · simp only [if_pos hbegin, Option.some.injEq] at hstep
    subst hstep
    rcases hbegin with ⟨-, hsorted, hperm⟩
    rw [List.isPerm_iff] at hperm
    refine ⟨⟨⟨WellFormed.init hsorted, ?_⟩, h.sound.keys⟩, ?_, ?_, ?_⟩
    · intro id wi ws hslot
      exact absurd hslot (slot_init_ne_some hsorted)
    · rintro id - wi ⟨ws, hslot⟩
      exact absurd hslot (slot_init_ne_some hsorted)
    · intro hnone
      cases hnone
    · intro r hr
      cases hr
      refine ⟨h.sound.arrays, ?_, ?_, ?_, ?_⟩
      · apply hperm.nodup_iff.mpr
        exact hsorted.imp fun hlt ↦ UInt32.ne_of_lt hlt
      · intro id hid
        exact hperm.mem_iff.mp hid
      · intro id hid hinst
        have hbetween := hok id (hperm.mem_iff.mp hid) hinst
        refine ⟨?_, fun wi ↦ ⟨hbetween.2 wi, h.alive id hinst wi⟩⟩
        show eventsOf id [] + eventsOf id s.alarms = 0
        have hzero : eventsOf id s.alarms = 0 := by
          unfold eventsOf
          rw [List.countP_eq_zero]
          intro e he
          rw [decide_eq_true_eq]
          exact hbetween.1 e he
        rw [hzero]
        rfl
      · intro id hid hrow _
        exact absurd (hperm.mem_iff.mpr hid) hrow
  · simp only [if_neg hbegin] at hstep
    cases hstep

/-- A row touches no other schedule than its own. -/
theorem Touches.row_inv {backup : WorkflowScheduler} {rows : List UInt32} (ht : Touches s s' id)
    (h : Inv db s) (hreload : s.reload = some ⟨backup, id :: rows⟩)
    (hreload' : s'.reload = some ⟨backup, rows⟩)
    (hsound : s'.Sound)
    (halive : Instantiable db id → ∀ wi, Recorded s'.scheduler id wi → wi ∈ s'.live id)
    (htok : Instantiable db id → s'.OneToken id) : Inv db s' := by
  have hre := h.reloading _ hreload
  have hnodup := List.nodup_cons.mp hre.nodup
  refine ⟨hsound, ?_, ?_, ?_⟩
  · intro id' hinst
    by_cases heq : id' = id
    · rw [heq] at hinst ⊢
      exact halive hinst
    · exact ht.alive heq (h.alive id' hinst)
  · intro hnone
    rw [hreload'] at hnone
    cases hnone
  · intro r hr
    rw [hreload', Option.some.injEq] at hr
    subst hr
    refine ⟨hre.backup, hnodup.2, ?_, ?_, ?_⟩
    · intro id' hid
      rw [ht.wfsIds]
      exact hre.active id' (List.mem_cons_of_mem id hid)
    · intro id' hid hinst
      have hne : id' ≠ id := by
        intro heq
        rw [heq] at hid
        exact hnodup.1 hid
      have hw := hre.waiting id' (List.mem_cons_of_mem id hid) hinst
      unfold Waiting
      rw [ht.pending id' hne, ht.live id' hne]
      exact hw
    · intro id' hid hrow hinst
      by_cases heq : id' = id
      · rw [heq] at hinst ⊢
        exact htok hinst
      · rw [ht.wfsIds] at hid
        have hrow' : id' ∉ id :: rows := by
          rw [List.mem_cons, not_or]
          exact ⟨heq, hrow⟩
        exact ht.oneToken heq (hre.loaded id' hid hrow' hinst)

/-- Live instances that are all the same are one. -/
theorem Sound.live_eq (h : s.Sound) (hall : ∀ x ∈ s.live id, x = wi) (hlive : wi ∈ s.live id) :
    s.live id = [wi] := by
  have hnodup : (s.live id).Nodup :=
    h.keys.sublist (List.Sublist.map _ List.filter_sublist)
  have hrep := List.eq_replicate_of_mem hall
  rw [hrep, List.nodup_replicate] at hnodup
  have hpos := List.length_pos_of_mem hlive
  have hone : (s.live id).length = 1 := by omega
  rw [hrep, hone]
  rfl

/-- The instances of a row are those of the backup, which holds one at most. -/
theorem Waiting.live_eq {backup : WorkflowScheduler} (h : s.Waiting backup id) (hsound : s.Sound)
    (hrec : Recorded backup id wi) : s.live id = [wi] := by
  apply hsound.live_eq _ ((h.2 wi).mpr hrec)
  intro x hx
  rcases (h.2 x).mp hx with ⟨ws, hws⟩
  rcases hrec with ⟨ws', hws'⟩
  rw [hws, Option.some.injEq] at hws'
  exact congrArg Prod.fst hws'

theorem reloadRow_inv {onFailure : OnFailureBehavior} {t : Int} (h : Inv db s)
    (hstep : s.reloadRow db onFailure t = some s') : Inv db s' := by
  unfold reloadRow at hstep
  cases hreload : s.reload with
  | none =>
    rw [hreload] at hstep
    cases hstep
  | some r =>
    rcases r with ⟨backup, _ | ⟨id, rows⟩⟩
    · rw [hreload] at hstep
      cases hstep
    · simp only [hreload, Option.some.injEq] at hstep
      have hre := h.reloading _ hreload
      by_cases hloads : db.loads id = true
      · rw [if_pos hloads] at hstep
        -- whether the backup holds an instance of this schedule decides where the row goes
        rcases reloadRow_cases ⟨id, onFailure⟩ t hre.backup with
          ⟨hrow, hnot⟩ | ⟨wi, hrow, hrec, hwi⟩
        · rw [hrow] at hstep
          subst hstep
          have hpending : ∀ id', eventsOf id' (insertEvent ⟨t, ⟨id, onFailure⟩⟩ s.scheduler.events) +
              eventsOf id' s.alarms = s.pending id' + if id = id' then 1 else 0 := by
            intro id'
            rw [eventsOf_insertEvent]
            unfold pending
            dsimp only
            omega
          refine Touches.row_inv ?touches h hreload rfl ?sound ?alive ?token
          case touches =>
            refine ⟨rfl, ?_, fun _ _ ↦ rfl, fun _ _ ↦ rfl⟩
            intro id' hne
            apply (hpending id').trans
            rw [if_neg (Ne.symm hne)]
            rfl
          case sound => exact ⟨h.sound.arrays.of_events _, h.sound.keys⟩
          case alive => exact h.alive id
          case token =>
            intro hinst
            -- the new event is the only token of the schedule
            have hw := hre.waiting id (by simp) hinst
            apply Or.inl
            constructor
            · apply (hpending id).trans
              rw [if_pos rfl, hw.1]
            · apply List.eq_nil_iff_forall_not_mem.mpr
              intro wi hwi
              exact hnot wi ((hw.2 wi).mp hwi)
        · rw [hrow] at hstep
          subst hstep
          refine Touches.row_inv ?touches h hreload rfl ?sound ?alive ?token
          case touches =>
            refine ⟨setSlot_wfsIds, ?_, fun _ _ ↦ rfl, ?_⟩
            · intro id' _
              show eventsOf id' (s.scheduler.setSlot _ _ _).events + _ = _
              rw [setSlot_events]
              rfl
            · intro id' hne
              show (s.scheduler.setSlot _ _ _).slot id' = _
              rw [slot_setSlot h.sound.arrays.wellFormed]
              exact if_neg hne
          case sound =>
            refine ⟨h.sound.arrays.setSlot ?_, h.sound.keys⟩
            intro ws hws
            cases hws
            exact ⟨rfl, hwi⟩
          case alive =>
            intro hinst wi' hrec'
            rw [(of_recorded_setSlot h.sound.arrays.wellFormed hrec').1]
            exact ((hre.waiting id (by simp) hinst).2 wi).mpr hrec
          case token =>
            intro hinst
            have hw := hre.waiting id (by simp) hinst
            -- the running instance stays the token: it is put back into the executing instances
            have hlive := hw.live_eq h.sound hrec
            apply Or.inr
            refine ⟨?_, wi, hlive, ?_⟩
            · show eventsOf id (s.scheduler.setSlot _ _ _).events + eventsOf id s.alarms = 0
              rw [setSlot_events]
              exact hw.1
            · exact recorded_setSlot h.sound.arrays.wellFormed (hre.active id (by simp))
      · rw [if_neg hloads] at hstep
        subst hstep
        refine Touches.row_inv ?touches h hreload rfl ⟨h.sound.arrays, h.sound.keys⟩ (h.alive id) ?token
        case touches => exact ⟨rfl, fun _ _ ↦ rfl, fun _ _ ↦ rfl, fun _ _ ↦ rfl⟩
        case token =>
          intro hinst
          exact absurd hinst.1 hloads

theorem reloadEnd_inv (h : Inv db s) (hstep : s.reloadEnd = some s') : Inv db s' := by
  unfold reloadEnd at hstep
  cases hreload : s.reload with
  | none =>
    rw [hreload] at hstep
    cases hstep
  | some r =>
    rcases r with ⟨backup, _ | ⟨id, rows⟩⟩
    · simp only [hreload, Option.some.injEq] at hstep
      subst hstep
      have hre := h.reloading _ hreload
      refine ⟨⟨h.sound.arrays, h.sound.keys⟩, h.alive, ?_, ?_⟩
      · intro _ id hid hinst _
        exact hre.loaded id hid (by simp) hinst
      · intro r hr
        cases hr
    · rw [hreload] at hstep
      cases hstep

/-! ## The start -/

section Load

variable {loads : UInt32 → Bool} {scheduler : WorkflowScheduler} {rows : List Row}

/-- Rows of one schedule that give it an event. -/
def rowPends (loads : UInt32 → Bool) (id : UInt32) (row : Row) : Bool :=
  row.workflowScheduleId = id ∧ row.workflowInstanceId = 0 ∧ loads id

theorem scheduleWorkflow_arrays (ws : WorkflowSchedule) (wi : UInt32) (t : Int)
    (h : Arrays scheduler) : Arrays (scheduler.scheduleWorkflow ws wi t) := by
  by_cases hzero : wi = 0
  · rw [hzero, scheduleWorkflow_zero]
    exact h.of_events _
  · rw [scheduleWorkflow_of_ne hzero]
    apply h.setSlot
    intro ws' hws
    cases hws
    exact ⟨rfl, hzero⟩

theorem load_wfsIds : (load loads scheduler rows).wfsIds = scheduler.wfsIds := by
  induction rows generalizing scheduler with
  | nil => rfl
  | cons row rows ih =>
    unfold load
    rw [ih]
    by_cases hloads : loads row.workflowScheduleId = true
    · rw [if_pos hloads, scheduleWorkflow_wfsIds]
    · rw [if_neg hloads]

theorem load_arrays (h : Arrays scheduler) : Arrays (load loads scheduler rows) := by
  induction rows generalizing scheduler with
  | nil => exact h
  | cons row rows ih =>
    unfold load
    by_cases hloads : loads row.workflowScheduleId = true
    · rw [if_pos hloads]
      exact ih (scheduleWorkflow_arrays _ _ _ h)
    · rw [if_neg hloads]
      exact ih h

/-- An instance comes into the arrays with a row. -/
theorem of_recorded_load (h : scheduler.WellFormed)
    (hrec : Recorded (load loads scheduler rows) id wi) : Recorded scheduler id wi ∨
      ∃ row ∈ rows, row.workflowScheduleId = id ∧ row.workflowInstanceId = wi ∧ wi ≠ 0 := by
  induction rows generalizing scheduler with
  | nil => exact .inl hrec
  | cons row rows ih =>
    unfold load at hrec
    have hlater : (∃ y ∈ rows, y.workflowScheduleId = id ∧ y.workflowInstanceId = wi ∧ wi ≠ 0) →
        ∃ y ∈ row :: rows, y.workflowScheduleId = id ∧ y.workflowInstanceId = wi ∧ wi ≠ 0 :=
      fun ⟨y, hy, hkey⟩ ↦ ⟨y, List.mem_cons_of_mem row hy, hkey⟩
    by_cases hloads : loads row.workflowScheduleId = true
    · rw [if_pos hloads] at hrec
      rcases ih (h.scheduleWorkflow _ _ _) hrec with hthis | hrest
      · by_cases hzero : row.workflowInstanceId = 0
        · rw [hzero, scheduleWorkflow_zero] at hthis
          exact .inl hthis
        · rw [scheduleWorkflow_of_ne hzero] at hthis
          by_cases hid : row.workflowScheduleId = id
          · subst hid
            have hwi := (of_recorded_setSlot h hthis).1
            refine .inr ⟨row, List.mem_cons_self, rfl, hwi.symm, ?_⟩
            rw [hwi]
            exact hzero
          · unfold Recorded at hthis ⊢
            rw [slot_setSlot h, if_neg (Ne.symm hid)] at hthis
            exact .inl hthis
      · exact .inr (hlater hrest)
    · rw [if_neg hloads] at hrec
      exact (ih h hrec).imp_right hlater

theorem load_events (id : UInt32) : eventsOf id (load loads scheduler rows).events =
    eventsOf id scheduler.events + rows.countP (rowPends loads id) := by
  induction rows generalizing scheduler with
  | nil => rfl
  | cons row rows ih =>
    unfold load
    rw [ih, List.countP_cons]
    by_cases hloads : loads row.workflowScheduleId = true
    · rw [if_pos hloads]
      by_cases hzero : row.workflowInstanceId = 0
      · rw [hzero, scheduleWorkflow_zero, eventsOf_insertEvent]
        by_cases hid : row.workflowScheduleId = id
        · rw [hid] at hloads
          have hthis : rowPends loads id row = true := by
            simp [rowPends, hid, hzero, hloads]
          rw [if_pos hid, if_pos hthis]
          omega
        · have hthis : ¬ rowPends loads id row = true := by simp [rowPends, hid]
          rw [if_neg hid, if_neg hthis]
          omega
      · have hthis : ¬ rowPends loads id row = true := by simp [rowPends, hzero]
        rw [scheduleWorkflow_of_ne hzero, setSlot_events, if_neg hthis]
        rfl
    · rw [if_neg hloads]
      have hthis : ¬ rowPends loads id row = true := by
        simp only [rowPends, decide_eq_true_eq]
        intro hrow
        rw [hrow.1] at hloads
        exact hloads hrow.2.2
      rw [if_neg hthis]
      rfl

end Load

theorem sound_start {active : List UInt32} {rows : List Row} {instances : List (UInt32 × UInt32)}
    (hs : active.Pairwise (· < ·)) (hkeys : (instances.map Prod.fst).Nodup) :
    (start db (create active) rows instances).Sound := by
  refine ⟨load_arrays ⟨WellFormed.init hs, ?_⟩, hkeys⟩
  intro id wi ws hslot
  exact absurd hslot (slot_init_ne_some hs)

theorem pending_start {active : List UInt32} {rows : List Row} {instances : List (UInt32 × UInt32)} :
    (start db (create active) rows instances).pending id = rows.countP (rowPends db.loads id) := by
  show eventsOf id (load db.loads (create active) rows).events + eventsOf id [] = _
  rw [load_events]
  show eventsOf id [] + _ + eventsOf id [] = _
  unfold eventsOf
  simp

/-! ## Runs -/

theorem step_inv {a : Action} (h : Inv db s) (hok : s.ReloadsBetween db a)
    (hstep : s.step db a = some s') : Inv db s' := by
  cases a with
  | shiftEvent currTime =>
    have hmoves := shiftEvent_moves h.sound hstep
    exact hmoves.1.inv h fun id _ ↦ hmoves.2 id
  | eventRemoved n wi =>
    rcases eventRemoved_cases h.sound hstep with ⟨id, ⟨hbad, hmoves, hp⟩ | ⟨-, hbegins⟩⟩
    · apply hmoves.inv h
      intro id' hinst
      have hne : id ≠ id' := by
        intro heq
        rw [heq, hinst.2] at hbad
        cases hbad
      have hone := hp id'
      rw [if_neg hne] at hone
      exact hone.symm
    · exact hbegins.inv h
  | instanceStop wi success t =>
    rcases instanceStop_ends h.sound hstep with ⟨id, hends⟩
    exact hends.inv h
  | reloadBegin active rows => exact reloadBegin_inv h hok hstep
  | reloadRow onFailure t => exact reloadRow_inv h hstep
  | reloadEnd => exact reloadEnd_inv h hstep

/-- A database in which everything loads. -/
def sane : Database := ⟨fun _ ↦ true, fun _ ↦ true⟩

end State

end EvQueue.WorkflowScheduler
