import EvQueue.Exception
import EvQueue.WorkflowScheduler

/-!
# Reloads — the definitions of tasks, workflows, retry schedules and schedules, read again

`Reload` empties what it has, and fills it from the database while it holds the mutex.  The calls of `DB`
raise an `Exception` when the connection or a query fails, and so do the constructors whose row has
vanished since it was listed; only the loop of `WorkflowScheduler::Reload` catches it.  `Logger::Log` is such a
call too, where it writes to the database.
-/

namespace EvQueue

/-! ## The three maps -/

/-- A map of definitions by name, with its mutex. -/
structure Definitions (α : Type) where
  definitions : String → Option α
  locked : Bool

/-- What the calls of a `Reload` do, in the order they are made: the names are listed with what the query
for the row of each will do, and `none` is a row that has vanished. -/
structure ReloadQueries (ρ : Type) where
  log : Except Exception Unit
  connect : Except Exception Unit
  list : Except Exception (List (String × Except Exception (Option ρ)))

namespace Definitions

variable {ρ α : Type}

/-- The constructor of a definition. -/
def fetch (unknown : Exception) (construct : ρ → α) :
    Except Exception (Option ρ) → Except Exception α
  | .error e => .error e
  | .ok none => .error unknown
  | .ok (some row) => .ok (construct row)

/-- The loop over the names.  The entry of a row that raises may or may not be there: it is left out. -/
def loadRows (unknown : Exception) (construct : ρ → α) :
    List (String × Except Exception (Option ρ)) → (String → Option α) →
      Except Exception Unit × (String → Option α)
  | [], definitions => (.ok (), definitions)
  | (name, outcome) :: rows, definitions =>
      match fetch unknown construct outcome with
      | .error e => (.error e, definitions)
      | .ok d => loadRows unknown construct rows (Function.update definitions name (some d))

/-- What `Reload` raises, if it does, and the map behind it.  `none`: it waits for the mutex. -/
def reload (unknown : Exception) (construct : ρ → α) (db : ReloadQueries ρ) (s : Definitions α) :
    Option (Except Exception Unit × Definitions α) :=
  match db.log with
  | .error e => some (.error e, s)
  | .ok () =>
      if s.locked then none
      else
        -- the map is cleared before the next call that may raise
        let cleared : Definitions α := { definitions := fun _ ↦ none, locked := true }
        match db.connect with
        | .error e => some (.error e, cleared)
        | .ok () =>
            match db.list with
            | .error e => some (.error e, cleared)
            | .ok rows =>
                match loadRows unknown construct rows cleared.definitions with
                | (.error e, definitions) => some (.error e, { definitions, locked := true })
                | (.ok (), definitions) => some (.ok (), { definitions, locked := false })

end Definitions

/-- What `t_task` holds of a task. -/
structure TaskRow where
  taskBinary : String
  taskWd : Option String
  taskUser : Option String
  taskHost : Option String
  taskParametersMode : String
  taskOutputMethod : String
deriving DecidableEq, Repr

inductive TaskParametersMode where
  | env
  | cmdline
deriving DecidableEq, Repr

inductive TaskOutputMethod where
  | xml
  | text
deriving DecidableEq, Repr

/-- `Task`, the definition. -/
structure TaskDefinition where
  taskBinary : String
  taskWd : Option String
  taskUser : Option String
  taskHost : Option String
  parametersMode : TaskParametersMode
  outputMethod : TaskOutputMethod
deriving DecidableEq, Repr

def TaskDefinition.ofRow (row : TaskRow) : TaskDefinition where
  taskBinary := row.taskBinary
  taskWd := row.taskWd
  taskUser := row.taskUser
  taskHost := row.taskHost
  parametersMode := if row.taskParametersMode = "ENV" then .env else .cmdline
  outputMethod := if row.taskOutputMethod = "XML" then .xml else .text

/-- `Workflow`, which is its row in `t_workflow`. -/
structure WorkflowDefinition where
  workflowId : Int
  workflowName : String
  workflowXml : String
deriving DecidableEq, Repr

/-- `RetrySchedule`, which is its row in `t_schedule`. -/
structure RetryScheduleDefinition where
  scheduleXml : String
deriving DecidableEq, Repr

def Tasks.reload : ReloadQueries TaskRow → Definitions TaskDefinition →
    Option (Except Exception Unit × Definitions TaskDefinition) :=
  Definitions.reload ⟨"Task", "Unknown task"⟩ TaskDefinition.ofRow

def Workflows.reload : ReloadQueries WorkflowDefinition → Definitions WorkflowDefinition →
    Option (Except Exception Unit × Definitions WorkflowDefinition) :=
  Definitions.reload ⟨"Workflow", "Unknown Workflow"⟩ id

def RetrySchedules.reload :
    ReloadQueries RetryScheduleDefinition → Definitions RetryScheduleDefinition →
    Option (Except Exception Unit × Definitions RetryScheduleDefinition) :=
  Definitions.reload ⟨"RetrySchedule", "Unknown retry schedule"⟩ id

/-! ## The schedules -/

/-- What the calls for one row of `WorkflowScheduler::Reload` will do: the constructor of the
`WorkflowSchedule` (with its next time), the log of `ScheduleWorkflow` and that of the handler. -/
structure ScheduleRow where
  workflowScheduleId : UInt32
  construct : Except Exception (OnFailureBehavior × Int)
  log : Except Exception Unit
  handler : Except Exception Unit

/-- What the calls of `WorkflowScheduler::Reload` do.  Both queries select the active schedules by their
key, the first one in its order. -/
structure ScheduleQueries where
  log : Except Exception Unit
  /-- The log of `Flush`, behind the mutex of the list. -/
  flushLog : Except Exception Unit
  initConnect : Except Exception Unit
  init : Except Exception (List UInt32)
  connect : Except Exception Unit
  list : Except Exception (List ScheduleRow)
  sorted : ∀ ids, init = .ok ids → ids.Pairwise (· < ·)

/-- The scheduler with its recursive mutex: how often it is held. -/
structure LockedScheduler where
  scheduler : WorkflowScheduler
  wfsMutex : Nat

namespace LockedScheduler

/-- `ScheduleWorkflow`: it only logs where it makes an event, and then inside the mutex. -/
def scheduleWorkflow (s : LockedScheduler) (workflowSchedule : WorkflowSchedule)
    (workflowInstanceId : UInt32) (nextTime : Int) (log : Except Exception Unit) :
    Except Exception Unit × LockedScheduler :=
  match workflowInstanceId == 0, log with
  | true, .error e => (.error e, { s with wfsMutex := s.wfsMutex + 1 })
  | _, _ =>
      (.ok (),
        { s with scheduler := s.scheduler.scheduleWorkflow workflowSchedule workflowInstanceId nextTime })

/-- The instance with which `Reload` calls `ScheduleWorkflow`. -/
def backupInstance (backup : WorkflowScheduler) (workflowScheduleId : UInt32) : UInt32 :=
  match backup.lookupWfs workflowScheduleId with
  | none => 0
  | some i =>
      if backup.wfsExecutingInstances[i]?.join = none then 0 else backup.wfsWiIds[i]?.getD 0

/-- The `try` block of a row. -/
def loadRow (backup : WorkflowScheduler) (row : ScheduleRow) (s : LockedScheduler) :
    Except Exception Unit × LockedScheduler :=
  match row.construct with
  | .error e => (.error e, s)
  | .ok (onFailure, nextTime) =>
      s.scheduleWorkflow ⟨row.workflowScheduleId, onFailure⟩
        (backupInstance backup row.workflowScheduleId) nextTime row.log

/-- The loop of `Reload`: a row that raises is skipped, unless the handler raises. -/
def loadRows (backup : WorkflowScheduler) :
    List ScheduleRow → LockedScheduler → Except Exception Unit × LockedScheduler
  | [], s => (.ok (), s)
  | row :: rows, s =>
      match loadRow backup row s, row.handler with
      | (.error _, s), .error e => (.error e, s)
      | (.error _, s), .ok () => loadRows backup rows s
      | (.ok (), s), _ => loadRows backup rows s

/-- What `Reload` raises, if it does, and the scheduler behind it. -/
def reload (s : LockedScheduler) (db : ScheduleQueries) : Except Exception Unit × LockedScheduler :=
  match db.log with
  | .error e => (.error e, s)
  | .ok () =>
      let wfsMutex := s.wfsMutex + 1
      let flushed := s.scheduler.flush
      match db.flushLog with
      | .error e => (.error e, { scheduler := flushed, wfsMutex })
      | .ok () =>
          match db.initConnect with
          | .error e => (.error e, { scheduler := flushed, wfsMutex })
          | .ok () =>
              match db.init with
              | .error e => (.error e, { scheduler := flushed, wfsMutex })
              | .ok ids =>
                  let fresh := flushed.init ids
                  match db.connect with
                  | .error e => (.error e, { scheduler := fresh, wfsMutex })
                  | .ok () =>
                      match db.list with
                      | .error e => (.error e, { scheduler := fresh, wfsMutex })
                      | .ok rows =>
                          match loadRows flushed rows { scheduler := fresh, wfsMutex } with
                          | (.error e, s) => (.error e, s)
                          | (.ok (), s) => (.ok (), { s with wfsMutex := s.wfsMutex - 1 })

end LockedScheduler

/-! ## What a reload is to do -/

/-- The definitions that were read: the last row of a name counts. -/
def ReloadQueries.read {ρ α : Type} (construct : ρ → α) (db : ReloadQueries ρ) (name : String) :
    Option α :=
  match db.list with
  | .error _ => none
  | .ok rows =>
      (rows.reverse.find? fun row ↦ row.1 == name).bind fun row ↦
        match row.2 with
        | .ok (some row) => some (construct row)
        | _ => none

/-- A call completes with what it read, or raises and leaves what was there; the mutex is free. -/
def Definitions.Kept {ρ α : Type} (construct : ρ → α) (db : ReloadQueries ρ) (s : Definitions α)
    (result : Option (Except Exception Unit × Definitions α)) : Prop :=
  match result with
  | none => False
  | some (.ok (), s') => s'.definitions = db.read construct ∧ s'.locked = false
  | some (.error _, s') => s'.definitions = s.definitions ∧ s'.locked = false

/-- The instance that executes a schedule, with the schedule it is executed by. -/
def WorkflowScheduler.executing (s : WorkflowScheduler) (id : UInt32) :
    Option (UInt32 × WorkflowSchedule) :=
  match s.slot id with
  | some (wi, some ws) => if wi = 0 then none else some (wi, ws)
  | _ => none

/-- The schedules that were read, with their next times. -/
def loadedRows (rows : List ScheduleRow) : List (WorkflowSchedule × Int) :=
  rows.filterMap fun row ↦
    match row.construct with
    | .ok (onFailure, nextTime) => some (⟨row.workflowScheduleId, onFailure⟩, nextTime)
    | .error _ => none

/-- The instance that goes on executing, with its schedule as it was read. -/
def stillExecuting (rows : List (WorkflowSchedule × Int)) (s : WorkflowScheduler) (id : UInt32) :
    Option (UInt32 × WorkflowSchedule) :=
  (s.executing id).bind fun instance' ↦
    (rows.reverse.find? fun row ↦ row.1.id == id).map fun row ↦ (instance'.1, row.1)

/-- Of the schedules that were read, the ones that were executing go on and the others are pending. -/
def LockedScheduler.Holds (rows : List (WorkflowSchedule × Int)) (s s' : WorkflowScheduler) : Prop :=
  (∀ id, s'.executing id = stillExecuting rows s id) ∧
    s'.events.Perm
      ((rows.filter fun row ↦ (s.executing row.1.id).isNone).map fun row ↦ ⟨row.2, row.1⟩)

/-- As for the maps; the mutex is held as often as before. -/
def LockedScheduler.Kept (db : ScheduleQueries) (s : LockedScheduler)
    (result : Except Exception Unit × LockedScheduler) : Prop :=
  result.2.wfsMutex = s.wfsMutex ∧
    match result.1, db.list with
    | .ok (), .ok rows => Holds (loadedRows rows) s.scheduler result.2.scheduler
    | .ok (), .error _ => False
    | .error _, _ => result.2.scheduler = s.scheduler

/-- A row that is read is logged where it makes an event, and one that is not is logged by the handler. -/
def ScheduleRow.Logs (s : WorkflowScheduler) (row : ScheduleRow) : Prop :=
  match row.construct with
  | .ok _ => s.executing row.workflowScheduleId = none → row.log = .ok ()
  | .error _ => row.handler = .ok ()

/-- No call raises but the constructors of rows, and a schedule that executes and is read was listed by
`init`; or the first log raises. -/
def ScheduleQueries.Succeeds (db : ScheduleQueries) (s : WorkflowScheduler) : Prop :=
  db.log = .ok () → db.flushLog = .ok () ∧ db.initConnect = .ok () ∧ db.connect = .ok () ∧
    ∃ ids rows, db.init = .ok ids ∧ db.list = .ok rows ∧ (∀ row ∈ rows, row.Logs s) ∧
      ∀ row ∈ loadedRows rows, (s.executing row.1.id).isSome → row.1.id ∈ ids

/-- No call raises, or the first log does. -/
def ReloadQueries.Succeeds {ρ : Type} (db : ReloadQueries ρ) : Prop :=
  db.log = .ok () →
    db.connect = .ok () ∧ ∃ rows, db.list = .ok rows ∧ ∀ row ∈ rows, ∃ r, row.2 = .ok (some r)

namespace Definitions

variable {ρ α : Type} {unknown : Exception} {construct : ρ → α} {db : ReloadQueries ρ}
  {s : Definitions α} {rows : List (String × Except Exception (Option ρ))}

variable (unknown construct) in
/-- The loop raises exactly when one of the rows does. -/
theorem loadRows_ok_iff (definitions : String → Option α) :
    (loadRows unknown construct rows definitions).1 = .ok () ↔
      ∀ row ∈ rows, ∃ r, row.2 = .ok (some r) := by
  induction rows generalizing definitions with
  | nil => exact iff_of_true rfl nofun
  | cons row rows ih =>
    rcases row with ⟨name, outcome⟩
    rw [List.forall_mem_cons]
    unfold loadRows
    cases outcome with
    | error e => simp [fetch]
    | ok found =>
      cases found with
      | none => simp [fetch]
      | some r =>
        simp only [fetch, ih]
        simp

/-- What the loop writes: the last row of a name. -/
theorem loadRows_definitions (h : ∀ row ∈ rows, ∃ r, row.2 = .ok (some r))
    (definitions : String → Option α) (name : String) :
    (loadRows unknown construct rows definitions).2 name =
      match rows.reverse.find? fun row ↦ row.1 == name with
      | some (_, .ok (some r)) => some (construct r)
      | _ => definitions name := by
  induction rows generalizing definitions with
  | nil => rfl
  | cons row rows ih =>
    rcases row with ⟨first, outcome⟩
    have hfirst := h _ List.mem_cons_self
    rcases hfirst with ⟨r, hr⟩
    dsimp only at hr
    subst hr
    have hrows := ih (fun row hrow ↦ h row (List.mem_cons_of_mem _ hrow))
      (Function.update definitions first (some (construct r)))
    rw [List.reverse_cons, List.find?_append]
    simp only [loadRows, fetch]
    rw [hrows]
    -- a later row of the name decides, else this one does if it has the name
    cases hfind : rows.reverse.find? fun row ↦ row.1 == name with
    | some later =>
      have hmem := List.mem_reverse.mp (List.mem_of_find?_eq_some hfind)
      rcases h later (List.mem_cons_of_mem _ hmem) with ⟨r', hr'⟩
      rcases later with ⟨name', outcome'⟩
      dsimp only at hr'
      subst hr'
      simp
    | none =>
      by_cases heq : first = name
      · simp [heq]
      · simp [heq, Function.update_of_ne (Ne.symm heq)]

variable (unknown) in
theorem loadRows_read (h : ∀ row ∈ rows, ∃ r, row.2 = .ok (some r)) (hlist : db.list = .ok rows) :
    (loadRows unknown construct rows fun _ ↦ none).2 = db.read construct := by
  apply funext
  intro name
  rw [loadRows_definitions h]
  unfold ReloadQueries.read
  rw [hlist]
  dsimp only
  cases hfind : rows.reverse.find? fun row ↦ row.1 == name with
  | none => rfl
  | some row =>
    have hmem := List.mem_reverse.mp (List.mem_of_find?_eq_some hfind)
    rcases h row hmem with ⟨r, hr⟩
    rcases row with ⟨name', outcome⟩
    dsimp only at hr
    subst hr
    rfl

theorem succeeds_iff (hlog : db.log = .ok ()) (hconnect : db.connect = .ok ())
    (hlist : db.list = .ok rows) : db.Succeeds ↔ ∀ row ∈ rows, ∃ r, row.2 = .ok (some r) := by
  unfold ReloadQueries.Succeeds
  rw [hlog, hconnect, hlist]
  simp

/-- A reload keeps what the map is to hold exactly when none of its calls raises, or the first one does. -/
theorem kept_iff (hs : s.locked = false) :
    Kept construct db s (reload unknown construct db s) ↔ db.Succeeds := by
  cases hlog : db.log with
  | error e => simp [reload, hs, Kept, ReloadQueries.Succeeds, hlog]
  | ok u =>
    cases hconnect : db.connect with
    | error e => simp [reload, hs, Kept, ReloadQueries.Succeeds, hlog, hconnect]
    | ok u =>
      cases hlist : db.list with
      | error e => simp [reload, hs, Kept, ReloadQueries.Succeeds, hlog, hconnect, hlist]
      | ok rows =>
        rw [succeeds_iff hlog hconnect hlist, ← loadRows_ok_iff unknown construct fun _ ↦ none]
        have hreload : reload unknown construct db s =
            match loadRows unknown construct rows fun _ ↦ none with
            | (.error e, definitions) => some (.error e, { definitions, locked := true })
            | (.ok (), definitions) => some (.ok (), { definitions, locked := false }) := by
          simp [reload, hs, hlog, hconnect, hlist]
        rw [hreload]
        cases hres : loadRows unknown construct rows fun _ ↦ none with
        | mk result definitions =>
          cases result with
          | error e =>
            -- the exception leaves the mutex locked
            simp [Kept]
          | ok u =>
            have hrows := (loadRows_ok_iff unknown construct _).mp (congrArg Prod.fst hres)
            have hread : definitions = db.read construct := by
              rw [← loadRows_read unknown hrows hlist, hres]
            simp [Kept, hread]

end Definitions

namespace WorkflowScheduler

variable {s : WorkflowScheduler} {ws : WorkflowSchedule} {id : UInt32}

theorem executing_setSlot {id' wi : UInt32} (hw : s.WellFormed) (hwi : wi ≠ 0) :
    (s.setSlot id wi (some ws)).executing id' =
      if id' = id ∧ id ∈ s.wfsIds then some (wi, ws) else s.executing id' := by
  unfold executing
  rw [slot_setSlot hw]
  by_cases hid : id' = id
  · subst hid
    cases hslot : s.slot id' with
    | none =>
      have hout : id' ∉ s.wfsIds := by
        rw [← slot_isSome hw, hslot]
        exact Bool.false_ne_true
      simp [hout]
    | some x =>
      have hin : id' ∈ s.wfsIds := by
        rw [← slot_isSome hw, hslot]
        rfl
      simp [hin, hwi]
  · simp [hid]

end WorkflowScheduler

namespace LockedScheduler

variable {s backup : WorkflowScheduler} {rows : List ScheduleRow} {row : ScheduleRow}

theorem backupInstance_eq (backup : WorkflowScheduler) (id : UInt32) : backupInstance backup id =
    match backup.executing id with
    | none => 0
    | some (wi, _) => wi := by
  unfold backupInstance WorkflowScheduler.executing WorkflowScheduler.slot
  cases backup.lookupWfs id with
  | none => rfl
  | some i =>
    simp only [Option.map_some]
    cases hws : backup.wfsExecutingInstances[i]?.join with
    | none => rfl
    | some ws =>
      rw [if_neg (Option.some_ne_none ws)]
      by_cases hwi : backup.wfsWiIds[i]?.getD 0 = 0
      · simp [hwi]
      · simp [hwi]

theorem executing_ne_zero {id wi : UInt32} {ws : WorkflowSchedule} (h : s.executing id = some (wi, ws)) :
    wi ≠ 0 := by
  unfold WorkflowScheduler.executing at h
  split at h
  · rename_i wi' ws' hslot
    by_cases hwi : wi' = 0
    · simp [hwi] at h
    · rw [if_neg hwi] at h
      cases h
      exact hwi
  · cases h

/-- What the `try` block does with a row that is read: the schedule goes on executing, or is pending. -/
theorem loadRow_ok {onFailure : OnFailureBehavior} {t : Int} (hrow : row.construct = .ok (onFailure, t))
    (hlogs : row.Logs backup) (held : Nat) :
    loadRow backup row ⟨s, held⟩ = (.ok (),
      ⟨match backup.executing row.workflowScheduleId with
        | none => { s with
            events := WorkflowScheduler.insertEvent ⟨t, ⟨row.workflowScheduleId, onFailure⟩⟩ s.events }
        | some (wi, _) =>
            s.setSlot row.workflowScheduleId wi (some ⟨row.workflowScheduleId, onFailure⟩), held⟩) := by
  unfold loadRow scheduleWorkflow
  unfold ScheduleRow.Logs at hlogs
  rw [hrow] at hlogs ⊢
  dsimp only at hlogs ⊢
  rw [backupInstance_eq]
  cases hexecuting : backup.executing row.workflowScheduleId with
  | none =>
    rw [hlogs hexecuting]
    simp [WorkflowScheduler.scheduleWorkflow_zero]
  | some instance' =>
    have hwi := executing_ne_zero hexecuting
    simp [hwi, WorkflowScheduler.scheduleWorkflow_of_ne hwi]

/-- A log that raises leaves the mutex locked once more. -/
theorem loadRow_raises {onFailure : OnFailureBehavior} {t : Int}
    (hrow : row.construct = .ok (onFailure, t)) (hlogs : ¬ row.Logs backup) (s : LockedScheduler) :
    ∃ e, loadRow backup row s = (.error e, { s with wfsMutex := s.wfsMutex + 1 }) := by
  unfold ScheduleRow.Logs at hlogs
  rw [hrow] at hlogs
  dsimp only at hlogs
  rw [Classical.not_imp] at hlogs
  unfold loadRow scheduleWorkflow
  rw [hrow]
  dsimp only
  rw [backupInstance_eq, hlogs.1]
  cases hlog : row.log with
  | ok u => exact absurd hlog hlogs.2
  | error e => exact ⟨e, rfl⟩

variable (backup) in
/-- No row releases the mutex. -/
theorem loadRow_wfsMutex (row : ScheduleRow) (s : LockedScheduler) :
    s.wfsMutex ≤ (loadRow backup row s).2.wfsMutex := by
  unfold loadRow scheduleWorkflow
  split
  · exact Nat.le_refl _
  · split
    · exact Nat.le_succ _
    · exact Nat.le_refl _

variable (backup) in
theorem loadRows_wfsMutex (rows : List ScheduleRow) (s : LockedScheduler) :
    s.wfsMutex ≤ (loadRows backup rows s).2.wfsMutex := by
  induction rows generalizing s with
  | nil => exact Nat.le_refl _
  | cons row rows ih =>
    have hrow := loadRow_wfsMutex backup row s
    unfold loadRows
    split
    · rename_i hres _
      rw [hres] at hrow
      exact hrow
    · rename_i hres _
      rw [hres] at hrow
      exact hrow.trans (ih _)
    · rename_i hres
      rw [hres] at hrow
      exact hrow.trans (ih _)

variable (backup) in
/-- The loop ends without an exception, and with the mutex held as often as before, exactly when all its
logs succeed. -/
theorem loadRows_ok_iff (rows : List ScheduleRow) (s : LockedScheduler) :
    ((loadRows backup rows s).1 = .ok () ∧ (loadRows backup rows s).2.wfsMutex = s.wfsMutex) ↔
      ∀ row ∈ rows, row.Logs backup := by
  induction rows generalizing s with
  | nil => exact iff_of_true ⟨rfl, rfl⟩ nofun
  | cons row rows ih =>
    rw [List.forall_mem_cons]
    unfold loadRows
    cases hcon : row.construct with
    | error e =>
      have hrow : loadRow backup row s = (.error e, s) := by
        unfold loadRow
        rw [hcon]
      have hlogs : row.Logs backup ↔ row.handler = .ok () := by
        unfold ScheduleRow.Logs
        rw [hcon]
      rw [hrow, hlogs]
      cases row.handler with
      | error e => simp
      | ok u => simp [ih]
    | ok read =>
      rcases read with ⟨onFailure, t⟩
      by_cases hlogs : row.Logs backup
      · rw [loadRow_ok hcon hlogs]
        simp [ih, hlogs]
      · rcases loadRow_raises hcon hlogs s with ⟨e, hrow⟩
        rw [hrow]
        cases row.handler with
        | error e => simp [hlogs]
        | ok u =>
          have hmore := loadRows_wfsMutex backup rows { s with wfsMutex := s.wfsMutex + 1 }
          refine iff_of_false ?_ fun h ↦ hlogs h.1
          intro h
          have hheld := h.2
          dsimp only at hheld hmore
          omega

theorem loadedRows_ok {onFailure : OnFailureBehavior} {t : Int}
    (h : row.construct = .ok (onFailure, t)) :
    loadedRows (row :: rows) = (⟨row.workflowScheduleId, onFailure⟩, t) :: loadedRows rows := by
  unfold loadedRows
  rw [List.filterMap_cons, h]

theorem loadedRows_error {e : Exception} (h : row.construct = .error e) :
    loadedRows (row :: rows) = loadedRows rows := by
  unfold loadedRows
  rw [List.filterMap_cons, h]

/-- The loop makes an event of each schedule that was read and was not executing. -/
theorem loadRows_events (backup : WorkflowScheduler) (rows : List ScheduleRow)
    (hlogs : ∀ row ∈ rows, row.Logs backup) (s : LockedScheduler) :
    (loadRows backup rows s).2.scheduler.events.Perm
      (((loadedRows rows).filter fun row ↦ (backup.executing row.1.id).isNone).map
        (fun row ↦ ⟨row.2, row.1⟩) ++ s.scheduler.events) := by
  induction rows generalizing s with
  | nil => exact List.Perm.refl _
  | cons row rows ih =>
    have hrow := hlogs row List.mem_cons_self
    have hrest := fun row' h ↦ hlogs row' (List.mem_cons_of_mem row h)
    unfold loadRows
    cases hcon : row.construct with
    | error e =>
      have hhandler : row.handler = .ok () := by
        unfold ScheduleRow.Logs at hrow
        rw [hcon] at hrow
        exact hrow
      have hstep : loadRow backup row s = (.error e, s) := by
        unfold loadRow
        rw [hcon]
      rw [hstep, hhandler, loadedRows_error hcon]
      exact ih hrest s
    | ok read =>
      rcases read with ⟨onFailure, t⟩
      rw [loadRow_ok hcon hrow, loadedRows_ok hcon]
      apply (ih hrest _).trans
      cases hback : backup.executing row.workflowScheduleId with
      | none =>
        rw [List.filter_cons_of_pos (by simp [hback])]
        apply (List.Perm.append_left _ (WorkflowScheduler.insertEvent_perm _ _)).trans
        exact List.perm_middle
      | some instance' =>
        rw [List.filter_cons_of_neg (by simp [hback])]
        dsimp only
        rw [WorkflowScheduler.setSlot_events]

theorem stillExecuting_cons {row : WorkflowSchedule × Int} {rows : List (WorkflowSchedule × Int)}
    (id : UInt32) : stillExecuting (row :: rows) s id =
      (stillExecuting rows s id).or
        (if row.1.id = id then (s.executing id).map fun instance' ↦ (instance'.1, row.1)
        else none) := by
  unfold stillExecuting
  cases s.executing id with
  | none => simp
  | some instance' =>
    rw [List.reverse_cons, List.find?_append]
    by_cases hid : row.1.id = id
    · simp [hid]
    · simp [hid]

variable (backup) in
/-- The loop puts the schedules that were executing back at their index, if they have one. -/
theorem loadRows_executing (hlogs : ∀ row ∈ rows, row.Logs backup) (s : LockedScheduler)
    (hw : s.scheduler.WellFormed) (id : UInt32) :
    (loadRows backup rows s).2.scheduler.executing id =
      if id ∈ s.scheduler.wfsIds then
        (stillExecuting (loadedRows rows) backup id).or (s.scheduler.executing id)
      else s.scheduler.executing id := by
  induction rows generalizing s with
  | nil =>
    unfold loadRows stillExecuting loadedRows
    cases backup.executing id <;> simp
  | cons row rows ih =>
    have hrow := hlogs row List.mem_cons_self
    have hrest := fun row' h ↦ hlogs row' (List.mem_cons_of_mem row h)
    unfold loadRows
    cases hcon : row.construct with
    | error e =>
      have hhandler : row.handler = .ok () := by
        unfold ScheduleRow.Logs at hrow
        rw [hcon] at hrow
        exact hrow
      have hstep : loadRow backup row s = (.error e, s) := by
        unfold loadRow
        rw [hcon]
      rw [hstep, hhandler, loadedRows_error hcon]
      exact ih hrest s hw
    | ok read =>
      rcases read with ⟨onFailure, t⟩
      rw [loadRow_ok hcon hrow, loadedRows_ok hcon, stillExecuting_cons]
      cases hback : backup.executing row.workflowScheduleId with
      | none =>
        dsimp only
        have hloaded := ih hrest ⟨_, s.wfsMutex⟩
          (hw.of_events (WorkflowScheduler.insertEvent ⟨t, row.workflowScheduleId, onFailure⟩ s.scheduler.events))
        refine hloaded.trans ?_
        have hnone : (if row.workflowScheduleId = id then (backup.executing id).map fun instance' ↦
            (instance'.1, (⟨row.workflowScheduleId, onFailure⟩ : WorkflowSchedule)) else none) = none := by
          by_cases hid : row.workflowScheduleId = id
          · simp [← hid, hback]
          · simp [hid]
        rw [hnone, Option.or_none]
        rfl
      | some instance' =>
        have hwi := executing_ne_zero hback
        dsimp only
        rw [ih hrest _ hw.setSlot, WorkflowScheduler.setSlot_wfsIds,
          WorkflowScheduler.executing_setSlot hw hwi]
        by_cases hid : row.workflowScheduleId = id
        · subst hid
          by_cases hin : row.workflowScheduleId ∈ s.scheduler.wfsIds
          · simp [hin, hback]
          · simp [hin]
        · simp [hid, Ne.symm hid]

theorem executing_init {ids : List UInt32} (hs : ids.Pairwise (· < ·)) (id : UInt32) :
    (s.init ids).executing id = none := by
  unfold WorkflowScheduler.executing
  rw [WorkflowScheduler.slot_init hs]
  by_cases hin : id ∈ ids
  · rw [if_pos hin]
  · rw [if_neg hin]

theorem stillExecuting_isSome {rows : List (WorkflowSchedule × Int)} (id : UInt32) :
    (stillExecuting rows s id).isSome ↔ (s.executing id).isSome ∧ ∃ row ∈ rows, row.1.id = id := by
  unfold stillExecuting
  cases s.executing id with
  | none => simp
  | some instance' => simp

/-- Behind `init`, the loop makes what it is to make when `init` listed what goes on executing. -/
theorem holds_loadRows_iff (s : WorkflowScheduler) (rows : List ScheduleRow)
    (hlogs : ∀ row ∈ rows, row.Logs s) {ids : List UInt32} (hs : ids.Pairwise (· < ·)) (held : Nat) :
    Holds (loadedRows rows) s (loadRows s.flush rows ⟨s.flush.init ids, held⟩).2.scheduler ↔
      ∀ row ∈ loadedRows rows, (s.executing row.1.id).isSome → row.1.id ∈ ids := by
  have hevents := loadRows_events s.flush rows hlogs ⟨s.flush.init ids, held⟩
  have hflushed : ∀ id, s.flush.executing id = s.executing id := fun _ ↦ rfl
  have hnil : (s.flush.init ids).events = [] := rfl
  simp only [hflushed, hnil, List.append_nil] at hevents
  have hexecuting : ∀ id, (loadRows s.flush rows ⟨s.flush.init ids, held⟩).2.scheduler.executing id =
      if id ∈ ids then stillExecuting (loadedRows rows) s id else none := by
    intro id
    have hloaded := loadRows_executing s.flush hlogs ⟨s.flush.init ids, held⟩
      (WorkflowScheduler.WellFormed.init hs) id
    dsimp only at hloaded
    rw [executing_init hs] at hloaded
    rw [hloaded]
    simp only [Option.or_none]
    rfl
  unfold Holds
  simp only [hexecuting, hevents, and_true]
  apply Iff.intro
  · intro h row hrow hsome
    by_contra hout
    have hstill := (stillExecuting_isSome row.1.id).mpr ⟨hsome, row, hrow, rfl⟩
    rw [← h row.1.id, if_neg hout] at hstill
    cases hstill
  · intro h id
    by_cases hin : id ∈ ids
    · rw [if_pos hin]
    · rw [if_neg hin, eq_comm, ← Option.not_isSome_iff_eq_none, stillExecuting_isSome]
      rintro ⟨hsome, row, hrow, rfl⟩
      exact hin (h row hrow hsome)

/-- Behind the loop the mutex is released once. -/
theorem kept_of_loaded (db : ScheduleQueries) (s : LockedScheduler) {ids : List UInt32}
    (hlog : db.log = .ok ()) (hflush : db.flushLog = .ok ()) (hinitConnect : db.initConnect = .ok ())
    (hinit : db.init = .ok ids) (hconnect : db.connect = .ok ()) (hlist : db.list = .ok rows) :
    Kept db s (s.reload db) ↔ (∀ row ∈ rows, row.Logs s.scheduler) ∧
      ∀ row ∈ loadedRows rows, (s.scheduler.executing row.1.id).isSome → row.1.id ∈ ids := by
  have hok := loadRows_ok_iff s.scheduler.flush rows ⟨s.scheduler.flush.init ids, s.wfsMutex + 1⟩
  have hle := loadRows_wfsMutex s.scheduler.flush rows
    ⟨s.scheduler.flush.init ids, s.wfsMutex + 1⟩
  have hholds := fun hlogs ↦ holds_loadRows_iff s.scheduler rows hlogs (db.sorted ids hinit) (s.wfsMutex + 1)
  have hreload : s.reload db =
      match loadRows s.scheduler.flush rows ⟨s.scheduler.flush.init ids, s.wfsMutex + 1⟩ with
      | (.error e, s) => (.error e, s)
      | (.ok (), s) => (.ok (), { s with wfsMutex := s.wfsMutex - 1 }) := by
    simp [reload, hlog, hflush, hinitConnect, hinit, hconnect, hlist]
  rw [hreload]
  rcases hres : loadRows s.scheduler.flush rows ⟨s.scheduler.flush.init ids, s.wfsMutex + 1⟩ with
    ⟨result, after⟩
  rw [hres] at hok hle hholds
  dsimp only at hok hle hholds
  cases result with
  | error e =>
    -- the handler has raised, and the mutex is still held
    have hbad : ¬ ∀ row ∈ rows, row.Logs s.scheduler := fun hall ↦ nomatch (hok.mpr hall).1
    refine iff_of_false ?_ fun h ↦ hbad h.1
    intro h
    have hheld : after.wfsMutex = s.wfsMutex := h.1
    omega
  | ok u =>
    unfold Kept
    rw [hlist]
    dsimp only
    constructor
    · intro h
      have hlogs : ∀ row ∈ rows, row.Logs s.scheduler := hok.mp ⟨rfl, by omega⟩
      exact ⟨hlogs, (hholds hlogs).mp h.2⟩
    · intro h
      have hheld := (hok.mpr h.1).2
      exact ⟨by omega, (hholds h.1).mpr h.2⟩

/-- A reload keeps what the scheduler is to hold exactly when no call but the constructors of rows raises,
and no schedule that goes on executing is missing from `init`; or when the first log raises. -/
theorem kept_iff (db : ScheduleQueries) (s : LockedScheduler) :
    Kept db s (s.reload db) ↔ db.Succeeds s.scheduler := by
  cases hlog : db.log with
  | error e => simp [Kept, reload, ScheduleQueries.Succeeds, hlog]
  | ok u =>
    cases hflush : db.flushLog with
    | error e => simp [Kept, reload, ScheduleQueries.Succeeds, hlog, hflush]
    | ok u =>
      cases hinitConnect : db.initConnect with
      | error e => simp [Kept, reload, ScheduleQueries.Succeeds, hlog, hflush, hinitConnect]
      | ok u =>
        cases hinit : db.init with
        | error e => simp [Kept, reload, ScheduleQueries.Succeeds, hlog, hflush, hinitConnect, hinit]
        | ok ids =>
          cases hconnect : db.connect with
          | error e =>
            simp [Kept, reload, ScheduleQueries.Succeeds, hlog, hflush, hinitConnect, hinit, hconnect]
          | ok u =>
            cases hlist : db.list with
            | error e =>
              simp [Kept, reload, ScheduleQueries.Succeeds, hlog, hflush, hinitConnect, hinit, hconnect,
                hlist]
            | ok rows =>
              rw [kept_of_loaded db s hlog hflush hinitConnect hinit hconnect hlist]
              simp [ScheduleQueries.Succeeds, hlog, hflush, hinitConnect, hinit, hconnect, hlist]

end LockedScheduler

/-! ## The four reloads -/

/-- The three maps and the scheduler keep what they are to hold exactly when nothing raises but what is
caught, or the first log raises. -/
theorem reload_kept_iff (taskDb : ReloadQueries TaskRow) (tasks : Definitions TaskDefinition)
    (htasks : tasks.locked = false) (workflowDb : ReloadQueries WorkflowDefinition)
    (workflows : Definitions WorkflowDefinition) (hworkflows : workflows.locked = false)
    (retryDb : ReloadQueries RetryScheduleDefinition) (retries : Definitions RetryScheduleDefinition)
    (hretries : retries.locked = false) (scheduleDb : ScheduleQueries) (s : LockedScheduler) :
    (Definitions.Kept TaskDefinition.ofRow taskDb tasks (Tasks.reload taskDb tasks) ↔
      taskDb.Succeeds) ∧
    (Definitions.Kept id workflowDb workflows (Workflows.reload workflowDb workflows) ↔
      workflowDb.Succeeds) ∧
    (Definitions.Kept id retryDb retries (RetrySchedules.reload retryDb retries) ↔
      retryDb.Succeeds) ∧
    (LockedScheduler.Kept scheduleDb s (s.reload scheduleDb) ↔ scheduleDb.Succeeds s.scheduler) :=
  ⟨Definitions.kept_iff htasks, Definitions.kept_iff hworkflows, Definitions.kept_iff hretries,
    LockedScheduler.kept_iff scheduleDb s⟩

/-- One task is read again, a workflow that has vanished since it was listed is not; the retry schedules stay
as they are when the log raises; and of three schedules the one that is executing goes on, one is pending, and
one has vanished. -/
theorem reload_kept_task :
    let row : TaskRow := ⟨"/bin/true", none, none, none, "ENV", "TEXT"⟩
    let lost : Exception := ⟨"DB", "MySQL server has gone away"⟩
    let taskDb : ReloadQueries TaskRow := ⟨.ok (), .ok (), .ok [("a", .ok (some row))]⟩
    let workflowDb : ReloadQueries WorkflowDefinition := ⟨.ok (), .ok (), .ok [("w", .ok none)]⟩
    let retryDb : ReloadQueries RetryScheduleDefinition := ⟨.error lost, .ok (), .ok []⟩
    let scheduleDb : ScheduleQueries :=
      ⟨.ok (), .ok (), .ok (), .ok [1, 2, 3], .ok (),
        .ok [⟨1, .ok (.suspend, 60), .error lost, .ok ()⟩, ⟨2, .ok (.continue, 90), .ok (), .ok ()⟩,
          ⟨3, .error lost, .ok (), .ok ()⟩], by
        intro ids hids
        cases hids
        decide⟩
    let s : LockedScheduler := ⟨⟨[], [1, 2, 3], [7, 0, 0], [some ⟨1, .continue⟩, none, none]⟩, 0⟩
    Definitions.Kept TaskDefinition.ofRow taskDb ⟨fun _ ↦ none, false⟩
        (Tasks.reload taskDb ⟨fun _ ↦ none, false⟩) ∧
      ¬ Definitions.Kept id workflowDb ⟨fun _ ↦ none, false⟩
        (Workflows.reload workflowDb ⟨fun _ ↦ none, false⟩) ∧
      Definitions.Kept id retryDb ⟨fun _ ↦ none, false⟩
        (RetrySchedules.reload retryDb ⟨fun _ ↦ none, false⟩) ∧
      LockedScheduler.Kept scheduleDb s (s.reload scheduleDb) := by
  intro row lost taskDb workflowDb retryDb scheduleDb s
  have hkept := reload_kept_iff taskDb ⟨fun _ ↦ none, false⟩ rfl workflowDb ⟨fun _ ↦ none, false⟩ rfl
    retryDb ⟨fun _ ↦ none, false⟩ rfl scheduleDb s
  rw [hkept.1, hkept.2.1, hkept.2.2.1, hkept.2.2.2]
  refine ⟨?_, ?_, ?_, ?_⟩
  · simp [taskDb, ReloadQueries.Succeeds]
  · simp [workflowDb, ReloadQueries.Succeeds]
  · simp [retryDb, ReloadQueries.Succeeds]
  · intro _
    refine ⟨rfl, rfl, rfl, [1, 2, 3], _, rfl, rfl, ?_, by decide⟩
    intro row hrow
    simp only [List.mem_cons, List.not_mem_nil, or_false] at hrow
    rcases hrow with rfl | rfl | rfl
    · exact fun h ↦ absurd h (by decide)
    · exact fun _ ↦ rfl
    · rfl

/-- The connection is lost: the task is gone, and the mutex stays locked. -/
theorem reload_connectionLost :
    let lost : Exception := ⟨"DB", "MySQL server has gone away"⟩
    let db : ReloadQueries TaskRow := ⟨.ok (), .error lost, .ok []⟩
    let task : TaskDefinition := ⟨"/bin/true", none, none, none, .env, .text⟩
    let s : Definitions TaskDefinition := ⟨fun name ↦ if name = "a" then some task else none, false⟩
    Tasks.reload db s = some (.error lost, ⟨fun _ ↦ none, true⟩) ∧
      ¬ Definitions.Kept TaskDefinition.ofRow db s (Tasks.reload db s) := by
  apply And.intro rfl
  intro h
  cases h.2

end EvQueue
