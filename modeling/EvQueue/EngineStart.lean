import EvQueue.WorkflowSchedulerTokens

/-!
# EngineStart — resumed instances and the schedules loaded after them

`main` first resumes the instances that were saved as executing, then purges their rows on the lower
savepoint levels, and then loads the schedules, each with the executing instance that the database
still knows.  The arrays of the scheduler are empty until then.
-/

namespace EvQueue.EngineStart

open Runs WorkflowScheduler WorkflowScheduler.State

/-- What becomes of a saved instance in the resume loop: the constructor throws (it has terminated the row
before when the savepoint is empty), `Resume` finds the workflow ended or throws (and `GetNextTime` gives the
time), or it runs on. -/
inductive Resumed where
  | emptySavepoint
  | notConstructed
  | terminated (success : Bool) (nextTime : Int)
  | notResumed (success : Bool) (nextTime : Int)
  | running
deriving DecidableEq, Repr

/-- `main` deletes the instance: what the destructor tells the scheduler. -/
def Resumed.deleted : Resumed → Option (Bool × Int)
  | .terminated success nextTime | .notResumed success nextTime => some (success, nextTime)
  | .emptySavepoint | .notConstructed | .running => none

/-- A row of `t_workflow_instance` with status `EXECUTING`; schedule 0 is `NULL`. -/
structure SavedInstance where
  workflowInstanceId : UInt32
  workflowScheduleId : UInt32
  resumed : Resumed
deriving DecidableEq, Repr

structure Boot where
  scheduler : WorkflowScheduler
  /-- The rows that are still `EXECUTING`: the ids of the instance and of its schedule. -/
  executing : List (UInt32 × UInt32)
  /-- The live instances of schedules. -/
  instances : List (UInt32 × UInt32)

/-- The destructor of an instance; `none` is undefined behaviour. -/
def Boot.delete (b : Boot) (workflowScheduleId : UInt32) (success : Bool) (nextTime : Int) : Option Boot :=
  if workflowScheduleId = 0 then some b
  else
    (b.scheduler.scheduledWorkflowInstanceStop workflowScheduleId success nextTime).map fun x ↦
      { b with scheduler := x.1 }

/-- One turn of the resume loop. -/
def resume (savepointLevel : Nat) (b : Boot) (saved : SavedInstance) : Option Boot :=
  let row := (saved.workflowInstanceId, saved.workflowScheduleId)
  match saved.resumed with
  | .emptySavepoint => some b
  | .notConstructed => some { b with executing := b.executing ++ [row] }
  | .running =>
      some { b with
        executing := b.executing ++ [row]
        instances := if saved.workflowScheduleId = 0 then b.instances else b.instances ++ [row] }
  | .terminated success nextTime =>
      -- `record_savepoint` updates the status of the row from level 2 on
      let executing := if 2 ≤ savepointLevel then b.executing else b.executing ++ [row]
      { b with executing }.delete saved.workflowScheduleId success nextTime
  | .notResumed success nextTime =>
      { b with executing := b.executing ++ [row] }.delete saved.workflowScheduleId success nextTime

def resumeLoop (savepointLevel : Nat) (b : Boot) : List SavedInstance → Option Boot
  | [] => some b
  | saved :: rest =>
      match resume savepointLevel b saved with
      | none => none
      | some b => resumeLoop savepointLevel b rest

def purge (savepointLevel : Nat) (executing : List (UInt32 × UInt32)) : List (UInt32 × UInt32) :=
  if savepointLevel ≤ 1 then [] else executing

/-- The rows of a schedule in the left join: one with each of its executing instances, or one with 0
when it has none. -/
def joined (executing : List (UInt32 × UInt32)) (id : UInt32) : List (UInt32 × UInt32) :=
  match executing.filter fun x ↦ x.2 = id with
  | [] => [(id, 0)]
  | found => found.map fun x ↦ (id, x.1)

/-- The rows of the query for the schedules. -/
def leftJoin (active : List UInt32) (executing : List (UInt32 × UInt32)) : List (UInt32 × UInt32) :=
  active.flatMap (joined executing)

/-- The rows of the query come in some order. -/
def IsResult (rows : List Row) (join : List (UInt32 × UInt32)) : Prop :=
  (rows.map fun row ↦ (row.workflowScheduleId, row.workflowInstanceId)).Perm join

instance (rows : List Row) (join : List (UInt32 × UInt32)) : Decidable (IsResult rows join) :=
  inferInstanceAs (Decidable (List.Perm _ _))

/-- The engine when the resume loop begins. -/
def boot (active : List UInt32) : Boot :=
  { scheduler := create active
    executing := []
    instances := [] }

/-! ## What is to hold -/

/-- A live instance whose schedule is looked up with success finds a schedule. -/
def NoNullSchedule (s : State) : Prop :=
  ∀ x ∈ s.instances, ∀ i, s.scheduler.lookupWfs x.2 = some i →
    s.scheduler.wfsExecutingInstances[i]?.join ≠ none

def IsReload : Action → Prop
  | .reloadBegin _ _ => True
  | .reloadRow _ _ => True
  | .reloadEnd => True
  | _ => False

/-- No null schedule is used in the resume loop, nor by any instance that ends in a later state, in
whatever order the rows come, the events are due and the instances end. -/
def Safe (db : Database) (savepointLevel : Nat) (active : List UInt32)
    (saved : List SavedInstance) : Prop :=
  ∃ b, resumeLoop savepointLevel (boot active) saved = some b ∧
    ∀ rows, IsResult rows (leftJoin active (purge savepointLevel b.executing)) →
      ∀ actions s, (∀ a ∈ actions, ¬ IsReload a) →
        run (step db) (start db b.scheduler rows b.instances) actions = some s → NoNullSchedule s

/-- The keys of the two tables. -/
structure Keys (active : List UInt32) (saved : List SavedInstance) : Prop where
  sorted : active.Pairwise (· < ·)
  activeNonzero : 0 ∉ active
  distinct : (saved.map SavedInstance.workflowInstanceId).Nodup
  savedNonzero : ∀ x ∈ saved, x.workflowInstanceId ≠ 0

/-- No instance of an active schedule ends while it is resumed, and one that runs on is the only one
of its schedule, is still in the database when the schedules are loaded, and its schedule loads. -/
structure Resumable (db : Database) (savepointLevel : Nat) (active : List UInt32)
    (saved : List SavedInstance) : Prop where
  noneEnds : ∀ x ∈ saved, x.workflowScheduleId ∈ active → x.resumed.deleted = none
  kept : ∀ x ∈ saved, x.workflowScheduleId ∈ active → x.resumed = .running →
    2 ≤ savepointLevel ∧ db.loads x.workflowScheduleId = true
  single : ∀ x ∈ saved, ∀ y ∈ saved, x.workflowScheduleId ∈ active → x.resumed = .running →
    y.resumed = .running → y.workflowScheduleId = x.workflowScheduleId →
    y.workflowInstanceId = x.workflowInstanceId

section

variable {db : Database} {savepointLevel : Nat} {active : List UInt32} {saved : List SavedInstance}
variable {executing : List (UInt32 × UInt32)} {id wi : UInt32} {b b' : Boot}

/-! ## The resume loop -/

/-- Whether the row is still executing behind the resume loop. -/
def stays (savepointLevel : Nat) (x : SavedInstance) : Bool :=
  match x.resumed with
  | .emptySavepoint => false
  | .notConstructed | .running | .notResumed _ _ => true
  | .terminated _ _ => !decide (2 ≤ savepointLevel)

/-- Whether the instance is one of a schedule and runs on. -/
def runsOn (x : SavedInstance) : Bool := x.resumed = .running ∧ x.workflowScheduleId ≠ 0

def SavedInstance.row (x : SavedInstance) : UInt32 × UInt32 :=
  (x.workflowInstanceId, x.workflowScheduleId)

/-- While the arrays are empty, an instance may end when its schedule is not active, and only then. -/
theorem stop_create (hs : active.Pairwise (· < ·)) (success : Bool) (t : Int) :
    (create active).scheduledWorkflowInstanceStop id success t =
      if id ∈ active then none else some (create active, false) := by
  rw [stop_eq]
  have hslot : (create active).slot id = if id ∈ active then some (0, none) else none :=
    slot_init hs
  rw [hslot]
  by_cases hin : id ∈ active
  · rw [if_pos hin, if_pos hin]
  · rw [if_neg hin, if_neg hin]

/-- The destructor leaves the arrays as they are, or uses a null schedule. -/
theorem delete_eq (hs : active.Pairwise (· < ·)) (hb : b.scheduler = create active)
    (hnull : 0 ∉ active) (success : Bool) (t : Int) :
    b.delete id success t = if id ∈ active then none else some b := by
  unfold Boot.delete
  by_cases hzero : id = 0
  · rw [if_pos hzero, hzero, if_neg hnull]
  · rw [if_neg hzero, hb, stop_create hs]
    by_cases hin : id ∈ active
    · rw [if_pos hin, if_pos hin]
      rfl
    · rw [if_neg hin, if_neg hin, ← hb]
      rfl

/-- One turn uses a null schedule when it deletes an instance of an active schedule, and otherwise adds to
the rows and to the instances. -/
theorem resume_eq (savepointLevel : Nat) (hs : active.Pairwise (· < ·)) (hb : b.scheduler = create active)
    (hnull : 0 ∉ active) (x : SavedInstance) :
    resume savepointLevel b x =
      if x.workflowScheduleId ∈ active ∧ x.resumed.deleted ≠ none then none
      else some {
        scheduler := create active
        executing := b.executing ++ ([x].filter (stays savepointLevel)).map SavedInstance.row
        instances := b.instances ++ ([x].filter runsOn).map SavedInstance.row } := by
  have hdelete : ∀ (executing : List (UInt32 × UInt32)) (success : Bool) (t : Int),
      Boot.delete { b with executing } x.workflowScheduleId success t =
        if x.workflowScheduleId ∈ active then none else some { b with executing } :=
    fun executing ↦ delete_eq hs hb hnull
  rw [← hb]
  unfold resume
  cases hres : x.resumed with
  | emptySavepoint => simp [stays, runsOn, hres, Resumed.deleted]
  | notConstructed => simp [stays, runsOn, hres, Resumed.deleted, SavedInstance.row]
  | running =>
    by_cases hzero : x.workflowScheduleId = 0 <;>
      simp [stays, runsOn, hres, Resumed.deleted, SavedInstance.row, hzero]
  | terminated success t =>
    dsimp only
    rw [hdelete]
    by_cases hlevel : 2 ≤ savepointLevel <;>
      simp [stays, runsOn, hres, Resumed.deleted, SavedInstance.row, hlevel]
  | notResumed success t =>
    dsimp only
    rw [hdelete]
    simp [stays, runsOn, hres, Resumed.deleted, SavedInstance.row]

theorem resumeLoop_eq (savepointLevel : Nat) (hs : active.Pairwise (· < ·)) (hb : b.scheduler = create active)
    (hnull : 0 ∉ active) (hnone : ∀ x ∈ saved, x.workflowScheduleId ∈ active → x.resumed.deleted = none) :
    resumeLoop savepointLevel b saved = some {
      scheduler := create active
      executing := b.executing ++ (saved.filter (stays savepointLevel)).map SavedInstance.row
      instances := b.instances ++ (saved.filter runsOn).map SavedInstance.row } := by
  induction saved generalizing b with
  | nil =>
    unfold resumeLoop
    rw [← hb]
    simp
  | cons x saved ih =>
    have hgood : ¬ (x.workflowScheduleId ∈ active ∧ x.resumed.deleted ≠ none) :=
      fun h ↦ h.2 (hnone x List.mem_cons_self h.1)
    unfold resumeLoop
    rw [resume_eq savepointLevel hs hb hnull, if_neg hgood]
    dsimp only
    rw [ih rfl fun y hy ↦ hnone y (List.mem_cons_of_mem x hy)]
    have happend : ∀ p : SavedInstance → Bool, ((x :: saved).filter p).map SavedInstance.row =
        ([x].filter p).map SavedInstance.row ++ (saved.filter p).map SavedInstance.row := by
      intro p
      rw [← List.map_append, ← List.filter_append, List.singleton_append]
    rw [happend, happend, List.append_assoc, List.append_assoc]

/-- An instance of an active schedule that is deleted in the resume loop uses a null schedule. -/
theorem resumeLoop_eq_none (savepointLevel : Nat) (hs : active.Pairwise (· < ·))
    (hb : b.scheduler = create active) (hnull : 0 ∉ active) {x : SavedInstance} (hx : x ∈ saved)
    (hin : x.workflowScheduleId ∈ active) (hres : x.resumed.deleted ≠ none) :
    resumeLoop savepointLevel b saved = none := by
  induction saved generalizing b with
  | nil => cases hx
  | cons y saved ih =>
    unfold resumeLoop
    rw [resume_eq savepointLevel hs hb hnull]
    by_cases hy : y.workflowScheduleId ∈ active ∧ y.resumed.deleted ≠ none
    · rw [if_pos hy]
    · rw [if_neg hy]
      rcases List.mem_cons.mp hx with heq | hx
      · rw [← heq] at hy
        exact absurd ⟨hin, hres⟩ hy
      · exact ih rfl hx

theorem mem_running : (wi, id) ∈ (saved.filter runsOn).map SavedInstance.row ↔
    ∃ x ∈ saved, x.resumed = .running ∧ x.workflowScheduleId ≠ 0 ∧ x.row = (wi, id) := by
  simp [runsOn, and_assoc]

theorem mem_staying : (wi, id) ∈ (saved.filter (stays savepointLevel)).map SavedInstance.row ↔
    ∃ x ∈ saved, stays savepointLevel x = true ∧ x.row = (wi, id) := by
  simp [and_assoc]

theorem stays_of_running {x : SavedInstance} (h : x.resumed = .running) :
    stays savepointLevel x = true := by
  unfold stays
  rw [h]

theorem nodup_rows (h : (saved.map SavedInstance.workflowInstanceId).Nodup)
    (p : SavedInstance → Bool) :
    (((saved.filter p).map SavedInstance.row).map Prod.fst).Nodup := by
  rw [List.map_map]
  exact h.sublist (List.Sublist.map _ List.filter_sublist)

/-! ## The rows -/

theorem mem_joined {id' : UInt32} : (id, wi) ∈ joined executing id' ↔
    id' = id ∧ ((wi = 0 ∧ ∀ x ∈ executing, x.2 ≠ id) ∨ (wi, id) ∈ executing) := by
  unfold joined
  cases hfound : executing.filter fun x ↦ x.2 = id' with
  | nil =>
    have hnone : ∀ x ∈ executing, x.2 ≠ id' := by
      intro x hx hid
      have hin : x ∈ executing.filter fun x ↦ x.2 = id' :=
        List.mem_filter.mpr ⟨hx, by simpa using hid⟩
      rw [hfound] at hin
      cases hin
    simp only [List.mem_singleton, Prod.mk.injEq]
    constructor
    · intro h
      rw [← h.1] at hnone
      exact ⟨h.1.symm, .inl ⟨h.2, hnone⟩⟩
    · intro h
      rw [h.1] at hnone
      rcases h.2 with hzero | hin
      · exact ⟨h.1.symm, hzero.1⟩
      · exact absurd rfl (hnone _ hin)
  | cons y found =>
    have hmem : ∀ x, x ∈ y :: found ↔ x ∈ executing ∧ x.2 = id' := by
      intro x
      rw [← hfound, List.mem_filter, decide_eq_true_eq]
    simp only [List.mem_map, hmem, Prod.mk.injEq]
    constructor
    · intro h
      rcases h with ⟨x, ⟨hx, hid⟩, hid', hwi⟩
      have hx' : x = (wi, id) := Prod.ext hwi (hid.trans hid')
      rw [hx'] at hx
      exact ⟨hid', .inr hx⟩
    · intro h
      rcases h with ⟨hid, ⟨-, hnone⟩ | hin⟩
      · have hy := (hmem y).mp List.mem_cons_self
        exact absurd (hy.2.trans hid) (hnone y hy.1)
      · exact ⟨(wi, id), ⟨hin, hid.symm⟩, hid, rfl⟩

theorem mem_leftJoin : (id, wi) ∈ leftJoin active executing ↔ id ∈ active ∧
    ((wi = 0 ∧ ∀ x ∈ executing, x.2 ≠ id) ∨ (wi, id) ∈ executing) := by
  unfold leftJoin
  rw [List.mem_flatMap]
  simp only [mem_joined]
  constructor
  · intro h
    rcases h with ⟨id', hin, hid, h⟩
    rw [hid] at hin
    exact ⟨hin, h⟩
  · intro h
    exact ⟨id, h.1, rfl, h.2⟩

theorem nodup_leftJoin (hactive : active.Nodup) (hexecuting : (executing.map Prod.fst).Nodup) :
    (leftJoin active executing).Nodup := by
  unfold leftJoin
  rw [List.nodup_flatMap]
  constructor
  · intro id _
    unfold joined
    split
    · exact List.nodup_singleton _
    · have hsub : ((executing.filter fun x ↦ x.2 = id).map Prod.fst).Nodup :=
        hexecuting.sublist (List.Sublist.map _ List.filter_sublist)
      have hmap := hsub.map (f := fun wi ↦ (id, wi)) fun _ _ h ↦ congrArg Prod.snd h
      rw [List.map_map] at hmap
      exact hmap
  · apply hactive.imp
    intro id id' hne
    show ∀ x, x ∈ joined executing id → x ∈ joined executing id' → False
    intro x hx hx'
    rw [← Prod.eta x] at hx hx'
    exact hne ((mem_joined.mp hx).1.trans (mem_joined.mp hx').1.symm)

/-! ## The arrays when the schedules are loaded -/

section Load

variable {loads : UInt32 → Bool} {scheduler : WorkflowScheduler} {rows : List Row}

theorem slot_scheduleWorkflow_of_ne {ws : WorkflowSchedule} {t : Int} (h : scheduler.WellFormed)
    (hne : ws.id ≠ id) : (scheduler.scheduleWorkflow ws wi t).slot id = scheduler.slot id := by
  by_cases hzero : wi = 0
  · rw [hzero, scheduleWorkflow_zero]
    rfl
  · rw [scheduleWorkflow_of_ne hzero, slot_setSlot h, if_neg (Ne.symm hne)]

/-- Rows without an instance leave the slot of their schedule as it is. -/
theorem load_slot (h : scheduler.WellFormed) (hrows : ∀ row ∈ rows, row.workflowScheduleId = id →
    row.workflowInstanceId = 0 ∨ loads id = false) :
    (load loads scheduler rows).slot id = scheduler.slot id := by
  induction rows generalizing scheduler with
  | nil => rfl
  | cons row rows ih =>
    have hrest := fun y hy ↦ hrows y (List.mem_cons_of_mem row hy)
    unfold load
    by_cases hloads : loads row.workflowScheduleId = true
    · rw [if_pos hloads, ih (h.scheduleWorkflow _ _ _) hrest]
      by_cases hid : row.workflowScheduleId = id
      · rcases hrows row List.mem_cons_self hid with hzero | hno
        · rw [hzero, scheduleWorkflow_zero]
          rfl
        · rw [hid, hno] at hloads
          cases hloads
      · exact slot_scheduleWorkflow_of_ne h hid
    · rw [if_neg hloads]
      exact ih h hrest

/-- When all rows of a schedule have an instance, one of them is in its slot. -/
theorem load_recorded (good : UInt32 → Prop) (h : scheduler.WellFormed) (hid : id ∈ scheduler.wfsIds)
    (hloads : loads id = true) (hgood : ∀ wi, good wi → wi ≠ 0)
    (hrows : ∀ row ∈ rows, row.workflowScheduleId = id → good row.workflowInstanceId)
    (hsome : (∃ wi, good wi ∧ Recorded scheduler id wi) ∨ ∃ row ∈ rows, row.workflowScheduleId = id) :
    ∃ wi, good wi ∧ Recorded (load loads scheduler rows) id wi := by
  induction rows generalizing scheduler with
  | nil =>
    rcases hsome with hrec | ⟨row, hrow, -⟩
    · exact hrec
    · cases hrow
  | cons row rows ih =>
    have hrest := fun y hy ↦ hrows y (List.mem_cons_of_mem row hy)
    unfold load
    by_cases hrow : row.workflowScheduleId = id
    · have hwi := hrows row List.mem_cons_self hrow
      rw [hrow, if_pos hloads, scheduleWorkflow_of_ne (hgood _ hwi)]
      apply ih h.setSlot _ hrest (.inl ⟨_, hwi, recorded_setSlot h hid⟩)
      rw [setSlot_wfsIds]
      exact hid
    · have hsome' : (∃ wi, good wi ∧ Recorded scheduler id wi) ∨
          ∃ row ∈ rows, row.workflowScheduleId = id := by
        rcases hsome with hrec | ⟨y, hy, hyid⟩
        · exact .inl hrec
        · rcases List.mem_cons.mp hy with heq | hy
          · rw [heq] at hyid
            exact absurd hyid hrow
          · exact .inr ⟨y, hy, hyid⟩
      by_cases hthis : loads row.workflowScheduleId = true
      · rw [if_pos hthis]
        apply ih (h.scheduleWorkflow _ _ _) _ hrest
        · unfold Recorded at hsome' ⊢
          rw [slot_scheduleWorkflow_of_ne h hrow]
          exact hsome'
        · rw [scheduleWorkflow_wfsIds]
          exact hid
      · rw [if_neg hthis]
        exact ih h hid hrest hsome'

end Load

/-! ## Runs -/

/-- Every schedule is pending or running at most once, and the arrays hold the schedule of every live
instance. -/
structure Once (s : State) : Prop where
  sound : s.Sound
  reload : s.reload = none
  once : ∀ id ∈ s.scheduler.wfsIds, s.pending id + (s.live id).length ≤ 1 ∧
    ∀ wi ∈ s.live id, ∃ w, Recorded s.scheduler id w

variable {s s' : State}

theorem noNullSchedule_iff : NoNullSchedule s ↔
    ∀ id, ∀ wi ∈ s.live id, ∀ w, s.scheduler.slot id ≠ some (w, none) := by
  unfold NoNullSchedule
  constructor
  · intro hno id wi hlive w hslot
    rcases Option.map_eq_some_iff.mp hslot with ⟨i, hi, hpair⟩
    exact hno (wi, id) (mem_live.mp hlive) i hi (congrArg Prod.snd hpair)
  · intro hno x hx i hi hnull
    apply hno x.2 x.1 (mem_live.mpr hx) (s.scheduler.wfsWiIds[i]?.getD 0)
    unfold slot
    rw [hi, Option.map_some, hnull]

theorem Once.noNullSchedule (h : Once s) : NoNullSchedule s := by
  rw [noNullSchedule_iff]
  intro id wi hlive w hslot
  have hid : id ∈ s.scheduler.wfsIds := by
    rw [← slot_isSome h.sound.arrays.wellFormed, hslot]
    rfl
  rcases (h.once id hid).2 wi hlive with ⟨w', ws, hws⟩
  rw [hslot] at hws
  cases hws

theorem Once.of_moves (h : Once s) (hm : Moves s s') (hp : ∀ id, s'.pending id ≤ s.pending id) :
    Once s' := by
  refine ⟨hm.sound, hm.reload.trans h.reload, ?_⟩
  intro id hid
  rw [hm.wfsIds] at hid
  have hlive : s'.live id = s.live id := by
    unfold live
    rw [hm.instances]
  have honce := h.once id hid
  have hle := hp id
  unfold Recorded at *
  rw [hlive, hm.slot id]
  exact ⟨by omega, honce.2⟩

theorem Once.of_touches (h : Once s) (ht : Touches s s' id) {id' : UInt32} (hne : id' ≠ id)
    (hid : id' ∈ s.scheduler.wfsIds) : s'.pending id' + (s'.live id').length ≤ 1 ∧
      ∀ wi ∈ s'.live id', ∃ w, Recorded s'.scheduler id' w := by
  unfold Recorded
  rw [ht.pending id' hne, ht.live id' hne, ht.slot id' hne]
  exact h.once id' hid

theorem Once.of_begins (h : Once s) (hb : Begins s s' id wi) : Once s' := by
  refine ⟨hb.sound, hb.reload', ?_⟩
  intro id' hid
  rw [hb.touches.wfsIds] at hid
  by_cases heq : id' = id
  · rw [heq] at hid ⊢
    have honce := (h.once id hid).1
    have hp := hb.pending
    have hnil : s.live id = [] := List.eq_nil_of_length_eq_zero (by omega)
    rw [hb.live, hnil]
    refine ⟨by simp; omega, ?_⟩
    intro wi' _
    exact ⟨wi, hb.recorded hid⟩
  · exact h.of_touches hb.touches heq hid

theorem Once.of_ends (h : Once s) (he : Ends s s' id wi) : Once s' := by
  refine ⟨he.sound, he.reload', ?_⟩
  intro id' hid
  rw [he.touches.wfsIds] at hid
  by_cases heq : id' = id
  · rw [heq] at hid ⊢
    have honce := (h.once id hid).1
    have hpos := List.length_pos_of_mem he.wasLive
    have hall : ∀ x ∈ s.live id, x = wi := by
      intro x hx
      have hlen : (s.live id).length = 1 := by omega
      rcases List.length_eq_one_iff.mp hlen with ⟨y, hy⟩
      have hwas := he.wasLive
      rw [hy, List.mem_singleton] at hx hwas
      rw [hx, hwas]
    have hlive := he.live
    rw [h.sound.live_eq hall he.wasLive] at hlive
    have hnil : s'.live id = [] := hlive.trans (by simp)
    have hnext : s'.pending id ≤ s.pending id + 1 := by
      rcases he.next with ⟨hp, -⟩ | ⟨hp, -⟩ | ⟨hp, -⟩ <;> omega
    rw [hnil]
    refine ⟨by simp; omega, ?_⟩
    intro x hx
    cases hx
  · exact h.of_touches he.touches heq hid

theorem once_step {a : Action} (h : Once s) (hok : ¬ IsReload a) (hstep : s.step db a = some s') :
    Once s' := by
  cases a with
  | shiftEvent currTime =>
    have hmoves := shiftEvent_moves h.sound hstep
    exact h.of_moves hmoves.1 fun id ↦ Nat.le_of_eq (hmoves.2 id)
  | eventRemoved n wi =>
    rcases eventRemoved_cases h.sound hstep with ⟨id, ⟨-, hmoves, hp⟩ | ⟨-, hbegins⟩⟩
    · apply h.of_moves hmoves
      intro id'
      have hone := hp id'
      omega
    · exact h.of_begins hbegins
  | instanceStop wi success t =>
    rcases instanceStop_ends h.sound hstep with ⟨id, hends⟩
    exact h.of_ends hends
  | reloadBegin active rows => exact absurd trivial hok
  | reloadRow onFailure t => exact absurd trivial hok
  | reloadEnd => exact absurd trivial hok

theorem once_run {actions : List Action} (h : Once s) (hok : ∀ a ∈ actions, ¬ IsReload a)
    (hrun : run (step db) s actions = some s') : Once s' := by
  have hmeets : Meets (step db) (fun _ a ↦ ¬ IsReload a) s actions := Meets.of_forall hok
  exact run_invariant (fun _ _ _ ↦ once_step) h hmeets hrun

/-! ## The start -/

theorem IsResult.mem {rows : List Row} {join : List (UInt32 × UInt32)} (h : IsResult rows join)
    {row : Row} (hrow : row ∈ rows) : (row.workflowScheduleId, row.workflowInstanceId) ∈ join :=
  h.mem_iff.mp (List.mem_map.mpr ⟨row, hrow, rfl⟩)

theorem mem_purge {x : UInt32 × UInt32} (h : x ∈ purge savepointLevel executing) :
    2 ≤ savepointLevel ∧ x ∈ executing := by
  unfold purge at h
  by_cases hlevel : savepointLevel ≤ 1
  · rw [if_pos hlevel] at h
    cases h
  · rw [if_neg hlevel] at h
    exact ⟨by omega, h⟩

variable {rows : List Row}

/-- A row with an instance is one that stayed, and it was not purged. -/
theorem stays_of_row (hrows : IsResult rows (leftJoin active
      (purge savepointLevel ((saved.filter (stays savepointLevel)).map SavedInstance.row))))
    {row : Row} (hrow : row ∈ rows) (hzero : row.workflowInstanceId ≠ 0) :
    2 ≤ savepointLevel ∧ row.workflowScheduleId ∈ active ∧ ∃ x ∈ saved,
      stays savepointLevel x = true ∧ x.row = (row.workflowInstanceId, row.workflowScheduleId) := by
  have hjoin := mem_leftJoin.mp (hrows.mem hrow)
  rcases hjoin.2 with hno | hin
  · exact absurd hno.1 hzero
  · have hpurge := mem_purge hin
    exact ⟨hpurge.1, hjoin.1, mem_staying.mp hpurge.2⟩

theorem start_sound (db : Database) (rows : List Row) (hkeys : Keys active saved) :
    (start db (create active) rows ((saved.filter runsOn).map SavedInstance.row)).Sound :=
  sound_start hkeys.sorted (nodup_rows hkeys.distinct runsOn)

theorem mem_live_start : wi ∈ State.live (start db (create active) rows
      ((saved.filter runsOn).map SavedInstance.row)) id ↔
    ∃ x ∈ saved, x.resumed = .running ∧ x.workflowScheduleId ≠ 0 ∧ x.row = (wi, id) :=
  mem_live.trans mem_running

/-- The instance of an active schedule that runs on is the only live one, every row of the schedule has an
instance, and there is one. -/
structure Alone (db : Database) (savepointLevel : Nat) (active : List UInt32)
    (saved : List SavedInstance) (rows : List Row) (x : SavedInstance) : Prop where
  level : 2 ≤ savepointLevel
  loads : db.loads x.workflowScheduleId = true
  live : State.live (start db (create active) rows
    ((saved.filter runsOn).map SavedInstance.row)) x.workflowScheduleId = [x.workflowInstanceId]
  nonzero : ∀ row ∈ rows, row.workflowScheduleId = x.workflowScheduleId → row.workflowInstanceId ≠ 0
  named : ∃ row ∈ rows, row.workflowScheduleId = x.workflowScheduleId

theorem alone_of_running (hkeys : Keys active saved) (h : Resumable db savepointLevel active saved)
    (hrows : IsResult rows (leftJoin active
      (purge savepointLevel ((saved.filter (stays savepointLevel)).map SavedInstance.row))))
    {x : SavedInstance} (hx : x ∈ saved) (hin : x.workflowScheduleId ∈ active)
    (hrun : x.resumed = .running) : Alone db savepointLevel active saved rows x := by
  have hkept := h.kept x hx hin hrun
  have hnonzero : x.workflowScheduleId ≠ 0 := by
    intro hzero
    rw [hzero] at hin
    exact hkeys.activeNonzero hin
  have hexecuting : (x.workflowInstanceId, x.workflowScheduleId) ∈
      purge savepointLevel ((saved.filter (stays savepointLevel)).map SavedInstance.row) := by
    unfold purge
    rw [if_neg (by omega)]
    exact mem_staying.mpr ⟨x, hx, stays_of_running hrun, rfl⟩
  constructor
  case level => exact hkept.1
  case loads => exact hkept.2
  case live =>
    apply (start_sound db rows hkeys).live_eq
    · intro wi hwi
      rcases mem_live_start.mp hwi with ⟨y, hy, hyrun, -, heq⟩
      rw [← show y.workflowInstanceId = wi from congrArg Prod.fst heq]
      exact h.single x hx y hy hin hrun hyrun (congrArg Prod.snd heq)
    · exact mem_live_start.mpr ⟨x, hx, hrun, hnonzero, rfl⟩
  case nonzero =>
    intro row hrow hrowid
    have hjoin := mem_leftJoin.mp (hrows.mem hrow)
    rw [hrowid] at hjoin
    rcases hjoin.2 with hno | hin
    · exact absurd rfl (hno.2 _ hexecuting)
    · rcases mem_staying.mp (mem_purge hin).2 with ⟨y, hy, -, heq⟩
      rw [← show y.workflowInstanceId = row.workflowInstanceId from congrArg Prod.fst heq]
      exact hkeys.savedNonzero y hy
  case named =>
    have hjoin : (x.workflowScheduleId, x.workflowInstanceId) ∈ rows.map fun row : Row ↦
        (row.workflowScheduleId, row.workflowInstanceId) :=
      hrows.mem_iff.mpr (mem_leftJoin.mpr ⟨hin, .inr hexecuting⟩)
    rcases List.mem_map.mp hjoin with ⟨row, hin, heq⟩
    exact ⟨row, hin, congrArg Prod.fst heq⟩

theorem Alone.pending {x : SavedInstance} (h : Alone db savepointLevel active saved rows x) :
    (start db (create active) rows
      ((saved.filter runsOn).map SavedInstance.row)).pending x.workflowScheduleId = 0 := by
  rw [pending_start, List.countP_eq_zero]
  intro row hin hpends
  simp only [rowPends, decide_eq_true_eq] at hpends
  exact h.nonzero row hin hpends.1 hpends.2.1

theorem live_start_eq_nil (hnone : ¬ ∃ x ∈ saved, x.resumed = .running ∧ x.workflowScheduleId = id) :
    State.live (start db (create active) rows ((saved.filter runsOn).map SavedInstance.row)) id = [] := by
  apply List.eq_nil_iff_forall_not_mem.mpr
  intro wi hwi
  rcases mem_live_start.mp hwi with ⟨y, hy, hyrun, -, heq⟩
  exact hnone ⟨y, hy, hyrun, congrArg Prod.snd heq⟩

/-- The rows of a schedule that give it an event are the row with 0, at most one. -/
theorem countP_rowPends (hkeys : Keys active saved) (hrows : IsResult rows (leftJoin active
      (purge savepointLevel ((saved.filter (stays savepointLevel)).map SavedInstance.row)))) :
    rows.countP (rowPends db.loads id) = if db.loads id = true ∧ (id, 0) ∈ leftJoin active
      (purge savepointLevel ((saved.filter (stays savepointLevel)).map SavedInstance.row))
      then 1 else 0 := by
  by_cases hloads : db.loads id = true
  · have hcount : rows.countP (rowPends db.loads id) =
        (rows.map fun row ↦ (row.workflowScheduleId, row.workflowInstanceId)).count (id, 0) := by
      rw [List.count, List.countP_map]
      apply List.countP_congr
      intro row _
      simp [rowPends, hloads]
    have hnodup : (leftJoin active (purge savepointLevel
        ((saved.filter (stays savepointLevel)).map SavedInstance.row))).Nodup := by
      apply nodup_leftJoin
      · exact hkeys.sorted.imp fun hlt ↦ UInt32.ne_of_lt hlt
      · unfold purge
        by_cases hlevel : savepointLevel ≤ 1
        · rw [if_pos hlevel]
          exact List.nodup_nil
        · rw [if_neg hlevel]
          exact nodup_rows hkeys.distinct _
    rw [hcount, hrows.count_eq]
    split
    · rename_i hin
      exact List.count_eq_one_of_mem hnodup hin.2
    · rename_i hout
      exact List.count_eq_zero_of_not_mem fun hin ↦ hout ⟨hloads, hin⟩
  · rw [if_neg fun h ↦ hloads h.1, List.countP_eq_zero]
    intro row _ hpends
    simp only [rowPends, decide_eq_true_eq] at hpends
    exact hloads hpends.2.2

theorem start_once (hkeys : Keys active saved) (h : Resumable db savepointLevel active saved)
    (hrows : IsResult rows (leftJoin active
      (purge savepointLevel ((saved.filter (stays savepointLevel)).map SavedInstance.row)))) :
    Once (start db (create active) rows ((saved.filter runsOn).map SavedInstance.row)) := by
  refine ⟨start_sound db rows hkeys, rfl, ?_⟩
  intro id hid
  have hids : (load db.loads (create active) rows).wfsIds = active := load_wfsIds
  have hactive : id ∈ active := by
    rw [← hids]
    exact hid
  by_cases hrunning : ∃ x ∈ saved, x.resumed = .running ∧ x.workflowScheduleId = id
  · -- its instance is the only one, and some row fills the slot
    rcases hrunning with ⟨x, hx, hrun, rfl⟩
    have halone := alone_of_running hkeys h hrows hx hactive hrun
    rw [halone.pending, halone.live]
    refine ⟨Nat.le_refl 1, ?_⟩
    intro _ _
    rcases load_recorded _ (WellFormed.init hkeys.sorted) hactive halone.loads (fun _ hne ↦ hne)
      halone.nonzero (.inr halone.named) with ⟨w, -, hrec⟩
    exact ⟨w, hrec⟩
  · rw [live_start_eq_nil hrunning, pending_start, countP_rowPends hkeys hrows]
    refine ⟨?_, nofun⟩
    split <;> simp

/-! ## Tokens -/

/-- `Resumable`, and where the rows are kept the instance of each is made. -/
structure Restored (db : Database) (savepointLevel : Nat) (active : List UInt32)
    (saved : List SavedInstance) : Prop extends Resumable db savepointLevel active saved where
  constructed : ∀ x ∈ saved, x.workflowScheduleId ∈ active → x.resumed = .notConstructed →
    savepointLevel ≤ 1

/-- The instances that the rows name run on. -/
theorem Restored.running_of_row (h : Restored db savepointLevel active saved)
    (hrows : IsResult rows (leftJoin active
      (purge savepointLevel ((saved.filter (stays savepointLevel)).map SavedInstance.row))))
    {row : Row} (hrow : row ∈ rows) (hzero : row.workflowInstanceId ≠ 0) :
    ∃ x ∈ saved, x.workflowScheduleId ∈ active ∧ x.resumed = .running ∧
      x.row = (row.workflowInstanceId, row.workflowScheduleId) := by
  rcases stays_of_row hrows hrow hzero with ⟨hlevel, hin, x, hx, hstays, heq⟩
  have hid : x.workflowScheduleId = row.workflowScheduleId := congrArg Prod.snd heq
  rw [← hid] at hin
  have hnone := h.noneEnds x hx hin
  refine ⟨x, hx, hin, ?_, heq⟩
  unfold stays at hstays
  cases hres : x.resumed with
  | emptySavepoint =>
    rw [hres] at hstays
    cases hstays
  | notConstructed =>
    have hlow := h.constructed x hx hin hres
    omega
  | terminated success t =>
    rw [hres] at hnone
    cases hnone
  | notResumed success t =>
    rw [hres] at hnone
    cases hnone
  | running => rfl

theorem start_inv (hkeys : Keys active saved) (h : Restored db savepointLevel active saved)
    (hrows : IsResult rows (leftJoin active
      (purge savepointLevel ((saved.filter (stays savepointLevel)).map SavedInstance.row)))) :
    Inv db (start db (create active) rows ((saved.filter runsOn).map SavedInstance.row)) := by
  have hnonzero : ∀ x : SavedInstance, x.workflowScheduleId ∈ active → x.workflowScheduleId ≠ 0 := by
    intro x hin hzero
    rw [hzero] at hin
    exact hkeys.activeNonzero hin
  refine ⟨start_sound db rows hkeys, ?_, ?_, nofun⟩
  · intro id _ wi hrec
    rcases of_recorded_load (WellFormed.init hkeys.sorted) hrec with ⟨ws, hempty⟩ | ⟨row, hrow, rfl, rfl, hwi⟩
    · exact absurd hempty (slot_init_ne_some hkeys.sorted)
    · rcases h.running_of_row hrows hrow hwi with ⟨x, hx, hin, hrun, heq⟩
      exact mem_live_start.mpr ⟨x, hx, hrun, hnonzero x hin, heq⟩
  · intro _ id hid hinst _
    have hids : (load db.loads (create active) rows).wfsIds = active := load_wfsIds
    have hactive : id ∈ active := by
      rw [← hids]
      exact hid
    by_cases hrunning : ∃ x ∈ saved, x.resumed = .running ∧ x.workflowScheduleId = id
    · rcases hrunning with ⟨x, hx, hrun, rfl⟩
      have halone := alone_of_running hkeys h.toResumable hrows hx hactive hrun
      refine .inr ⟨halone.pending, x.workflowInstanceId, halone.live, ?_⟩
      have hsame : ∀ row ∈ rows, row.workflowScheduleId = x.workflowScheduleId →
          row.workflowInstanceId = x.workflowInstanceId := by
        intro row hrow hrowid
        rcases h.running_of_row hrows hrow (halone.nonzero row hrow hrowid) with ⟨y, hy, -, hyrun, heq⟩
        rw [← show y.workflowInstanceId = row.workflowInstanceId from congrArg Prod.fst heq]
        exact h.single x hx y hy hactive hrun hyrun
          ((show y.workflowScheduleId = row.workflowScheduleId from congrArg Prod.snd heq).trans hrowid)
      rcases load_recorded (· = x.workflowInstanceId) (WellFormed.init hkeys.sorted) hactive
        halone.loads (fun wi hwi ↦ hwi ▸ hkeys.savedNonzero x hx) hsame (.inr halone.named) with
        ⟨wi, rfl, hrec⟩
      exact hrec
    · refine .inl ⟨?_, live_start_eq_nil hrunning⟩
      rw [pending_start, countP_rowPends hkeys hrows, if_pos]
      -- no row of the schedule has an instance
      refine ⟨hinst.1, mem_leftJoin.mpr ⟨hactive, .inl ⟨rfl, ?_⟩⟩⟩
      intro x hx hxid
      have hrow : (id, x.1) ∈ rows.map fun row : Row ↦
          (row.workflowScheduleId, row.workflowInstanceId) := by
        apply hrows.mem_iff.mpr
        rw [mem_leftJoin, ← hxid]
        exact ⟨hxid ▸ hactive, .inr hx⟩
      rcases List.mem_map.mp hrow with ⟨row, hrow, heq⟩
      have hrowid : row.workflowScheduleId = id := congrArg Prod.fst heq
      have hrowwi : row.workflowInstanceId = x.1 := congrArg Prod.snd heq
      have hwi : row.workflowInstanceId ≠ 0 := by
        rcases mem_staying.mp (show (x.1, x.2) ∈ _ from (mem_purge hx).2) with ⟨y, hy, -, hyrow⟩
        rw [hrowwi, ← show y.workflowInstanceId = x.1 from congrArg Prod.fst hyrow]
        exact hkeys.savedNonzero y hy
      rcases h.running_of_row hrows hrow hwi with ⟨y, hy, -, hyrun, hyrow⟩
      exact hrunning ⟨y, hy, hyrun, (congrArg Prod.snd hyrow).trans hrowid⟩

theorem safe_of_resumable (hkeys : Keys active saved)
    (h : Resumable db savepointLevel active saved) : Safe db savepointLevel active saved := by
  refine ⟨_, resumeLoop_eq savepointLevel hkeys.sorted rfl hkeys.activeNonzero h.noneEnds, ?_⟩
  intro rows hrows actions s hok hrun
  exact (once_run (start_once hkeys h hrows) hok hrun).noNullSchedule

/-! ## What goes wrong otherwise -/

/-- The end of a live instance is a step, unless it uses a null schedule. -/
theorem instanceStop_of_live {scheduler : WorkflowScheduler} {success removed : Bool} {t : Int}
    (h : s.Sound) (hreload : s.reload = none) (hlive : wi ∈ s.live id)
    (hstop : s.scheduler.scheduledWorkflowInstanceStop id success t = some (scheduler, removed)) :
    ∃ s', s.instanceStop wi success t = some s' ∧ s'.scheduler = scheduler ∧
      s'.instances = s.instances.filter fun x ↦ x.1 ≠ wi := by
  have hin := mem_live.mp hlive
  unfold State.instanceStop
  cases hfind : s.instances.find? fun x ↦ x.1 = wi with
  | none =>
    rw [List.find?_eq_none] at hfind
    exact absurd (by simp) (hfind _ hin)
  | some x =>
    have hmem := List.mem_of_find?_eq_some hfind
    have hkey := List.find?_some hfind
    rcases x with ⟨wi', id'⟩
    simp only [decide_eq_true_eq] at hkey
    rw [hkey] at hmem
    rw [← instance_unique h.keys hin hmem]
    simp only [hreload, Option.isNone_none, if_true, hstop]
    exact ⟨_, rfl, rfl, rfl⟩

theorem slot_after_stop {scheduler : WorkflowScheduler} {success removed : Bool} {t : Int}
    (h : s.scheduler.WellFormed) (hid : id ∈ s.scheduler.wfsIds)
    (hstop : s.scheduler.scheduledWorkflowInstanceStop id success t = some (scheduler, removed)) :
    scheduler.slot id = some (0, none) := by
  rcases stop_cases hstop with ⟨hnone, -⟩ | ⟨w, ws, hslot, hend⟩
  · rw [← slot_isSome h, hnone] at hid
    cases hid
  · have hempty : (s.scheduler.setSlot id 0 none).slot id = some (0, none) := by
      rw [slot_setSlot h, if_pos rfl, hslot]
      rfl
    rcases hend with ⟨rfl, -⟩ | ⟨rfl, -⟩
    · exact hempty
    · exact hempty

/-- Of two live instances of an active schedule, the one that ends second uses a null schedule. -/
theorem two_live {wi' : UInt32} (h : s.Sound) (hreload : s.reload = none)
    (hid : id ∈ s.scheduler.wfsIds) (hlive : wi ∈ s.live id) (hlive' : wi' ∈ s.live id)
    (hsafe : ∀ actions s', (∀ a ∈ actions, ¬ IsReload a) →
      run (step db) s actions = some s' → NoNullSchedule s') : wi' = wi := by
  by_contra hne
  have hnow := hsafe [] s (by simp) rfl
  rw [noNullSchedule_iff] at hnow
  have hstop : ∃ y, s.scheduler.scheduledWorkflowInstanceStop id true 0 = some y := by
    rw [stop_eq]
    cases hslot : s.scheduler.slot id with
    | none => exact ⟨_, rfl⟩
    | some x =>
      rcases x with ⟨w, _ | ws⟩
      · exact absurd hslot (hnow id wi hlive w)
      · exact ⟨_, rfl⟩
  rcases hstop with ⟨⟨scheduler, removed⟩, hstop⟩
  rcases instanceStop_of_live h hreload hlive hstop with ⟨s', hstep, hscheduler, hinstances⟩
  have hrun : run (step db) s [.instanceStop wi true 0] = some s' := by
    rw [run_cons]
    show (s.instanceStop wi true 0).bind _ = _
    rw [hstep]
    rfl
  have hok : ∀ a ∈ [Action.instanceStop wi true 0], ¬ IsReload a := by
    intro a ha
    rw [List.mem_singleton.mp ha]
    exact fun h ↦ h
  have hlater := hsafe _ s' hok hrun
  rw [noNullSchedule_iff] at hlater
  apply hlater id wi' _ 0
  · rw [hscheduler]
    exact slot_after_stop h.arrays.wellFormed hid hstop
  · rw [mem_live, hinstances, List.mem_filter]
    exact ⟨mem_live.mp hlive', by simpa using hne⟩

theorem exists_result (join : List (UInt32 × UInt32)) : ∃ rows, IsResult rows join := by
  refine ⟨join.map fun x ↦ ⟨x.1, x.2, .continue, 0⟩, ?_⟩
  unfold IsResult
  rw [List.map_map]
  have hid : (fun row : Row ↦ (row.workflowScheduleId, row.workflowInstanceId)) ∘
      (fun x : UInt32 × UInt32 ↦ (⟨x.1, x.2, .continue, 0⟩ : Row)) = id := rfl
  rw [hid, List.map_id]

theorem resumable_of_safe (hkeys : Keys active saved) (h : Safe db savepointLevel active saved) :
    Resumable db savepointLevel active saved := by
  rcases h with ⟨b, hloop, hsafe⟩
  have hnonzero : ∀ x : SavedInstance, x.workflowScheduleId ∈ active →
      x.workflowScheduleId ≠ 0 := by
    intro x hin hzero
    rw [hzero] at hin
    exact hkeys.activeNonzero hin
  have hends : ∀ x ∈ saved, x.workflowScheduleId ∈ active → x.resumed.deleted = none := by
    intro x hx hin
    by_contra hres
    have hnone := resumeLoop_eq_none (b := boot active) savepointLevel hkeys.sorted rfl
      hkeys.activeNonzero hx hin hres
    rw [hloop] at hnone
    cases hnone
  have hboot := resumeLoop_eq (b := boot active) savepointLevel hkeys.sorted rfl hkeys.activeNonzero hends
  rw [hloop, Option.some.injEq] at hboot
  subst hboot
  rcases exists_result (leftJoin active (purge savepointLevel
    ((saved.filter (stays savepointLevel)).map SavedInstance.row))) with ⟨rows, hrows⟩
  have hsound := start_sound db rows hkeys
  have hids : (load db.loads (create active) rows).wfsIds = active := load_wfsIds
  have hlive : ∀ x ∈ saved, x.workflowScheduleId ∈ active → x.resumed = .running →
      x.workflowInstanceId ∈ State.live (start db (create active) rows
        ((saved.filter runsOn).map SavedInstance.row)) x.workflowScheduleId := by
    intro x hx hin hrun
    exact mem_live.mpr (mem_running.mpr ⟨x, hx, hrun, hnonzero x hin, rfl⟩)
  refine ⟨hends, ?_, ?_⟩
  · intro x hx hin hrun
    by_contra hno
    have hnow := hsafe rows hrows [] _ (by simp) rfl
    rw [noNullSchedule_iff] at hnow
    apply hnow x.workflowScheduleId x.workflowInstanceId (hlive x hx hin hrun) 0
    -- no row brings an instance of this schedule
    apply (load_slot (WellFormed.init hkeys.sorted) _).trans
    · apply (slot_init hkeys.sorted).trans
      rw [if_pos hin]
    · intro row hrow hrowid
      by_cases hzero : row.workflowInstanceId = 0
      · exact .inl hzero
      · rw [not_and] at hno
        exact .inr (Bool.eq_false_of_not_eq_true (hno (stays_of_row hrows hrow hzero).1))
  · intro x hx y hy hin hrun hyrun hyid
    have hyin : y.workflowScheduleId ∈ active := by
      rw [hyid]
      exact hin
    have hylive := hlive y hy hyin hyrun
    rw [hyid] at hylive
    apply two_live hsound rfl _ (hlive x hx hin hrun) hylive
    · intro actions s' hok hrun'
      exact hsafe rows hrows actions s' hok hrun'
    · rw [← hids] at hin
      exact hin

/-- The start and all that follows use no null schedule exactly when every resumed instance of an active
schedule runs on, alone, and is still known when the schedules are loaded. -/
theorem safe_iff_resumable (db : Database) (savepointLevel : Nat) (active : List UInt32)
    (saved : List SavedInstance) (hkeys : Keys active saved) :
    Safe db savepointLevel active saved ↔ Resumable db savepointLevel active saved :=
  ⟨resumable_of_safe hkeys, safe_of_resumable hkeys⟩

/-- On level 2 an instance that is resumed alone is safe. -/
theorem safe_of_one_on_level_two : Safe sane 2 [5] [⟨7, 5, .running⟩] := by
  have hkeys : Keys [5] [⟨7, 5, .running⟩] := ⟨by decide, by decide, by decide, by decide⟩
  rw [safe_iff_resumable sane 2 [5] [⟨7, 5, .running⟩] hkeys]
  constructor
  case noneEnds => simp [Resumed.deleted]
  case kept => simp [sane]
  case single => simp

/-- On level 1 the row of the instance is purged before the schedule is loaded: the schedule gets an
event, and its instance no slot. -/
theorem not_safe_on_level_one : ¬ Safe sane 1 [5] [⟨7, 5, .running⟩] := by
  intro h
  rcases h with ⟨b, hloop, hsafe⟩
  cases hloop
  have hnow := hsafe [⟨5, 0, .continue, 10⟩] (by decide) [] _ (by simp) rfl (7, 5) (by decide) 0
    (by decide)
  exact hnow rfl

end

end EvQueue.EngineStart
