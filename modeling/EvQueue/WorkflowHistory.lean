import EvQueue.WorkflowInstanceResume

/-!
# WorkflowHistory — the rows of `t_workflow_instance` over several runs of the engine

From savepoint level 2 on an instance is inserted when it is constructed, and updated when it ends.  On
level 1 it is inserted when it ends, or at a shutdown, and its id comes from a sequence in memory that
begins behind the greatest id of the table.  The rows of executing instances are purged on level 1 when
they have been resumed.
-/

namespace EvQueue

open Runs

variable {Node : Type}

inductive InstanceStatus where
  | executing
  | terminated
deriving DecidableEq, Repr

/-- `%i` writes an `unsigned int` as an `int`. -/
def asInt (n : UInt32) : Int := n.toInt32.toInt

structure HistoryRow (Node : Type) where
  id : Nat
  status : InstanceStatus
  errors : Int
  savepoint : Option (Document Node)

/-- `t_workflow_instance`: `workflow_instance_id` is the primary key, and counts up by itself. -/
structure HistoryTable (Node : Type) where
  rows : List (HistoryRow Node)
  autoIncrement : Nat

namespace HistoryTable

variable (t : HistoryTable Node)

def ids : List Nat := t.rows.map HistoryRow.id

/-- A duplicate key is an exception, which `record_savepoint` logs. -/
def insert (row : HistoryRow Node) : HistoryTable Node :=
  if row.id ∈ t.ids then t
  else
    { rows := t.rows ++ [row]
      autoIncrement := max t.autoIncrement (row.id + 1) }

/-- The statement of the constructor, and `InsertID`. -/
def insertNew : HistoryTable Node × Nat :=
  ({ rows := t.rows ++ [⟨t.autoIncrement, .executing, 0, none⟩]
     autoIncrement := t.autoIncrement + 1 }, t.autoIncrement)

def update (id : Nat) (f : HistoryRow Node → HistoryRow Node) : HistoryTable Node :=
  { t with rows := t.rows.map fun row ↦ if row.id = id then f row else row }

def delete (p : HistoryRow Node → Bool) : HistoryTable Node :=
  { t with rows := t.rows.filter fun row ↦ !p row }

/-- `MAX(workflow_instance_id)`; `NULL` is read as 0. -/
def maxId : Nat := t.ids.foldr max 0

def executingIds : List Nat := (t.rows.filter fun row ↦ row.status = .executing).map HistoryRow.id

/-- `record_savepoint`; `terminated` when the attribute `status` of the root is `TERMINATED`.  A statement
that fails is tried again, and fails again. -/
def recordSavepoint (savepointLevel : Nat) (force : Bool) (id : Nat) (s : WorkflowInstance Node)
    (terminated : Bool) : HistoryTable Node :=
  if terminated ∧ savepointLevel = 0 then t
  else if ¬terminated ∧ ¬force ∧ savepointLevel ≤ 2 then t
  else if 2 ≤ savepointLevel then
    t.update id fun row ↦
      if terminated then
        { row with
          status := .terminated
          errors := asInt s.errorTasks
          savepoint := some s.doc }
      else { row with savepoint := some s.doc }
  else t.insert ⟨id, if terminated then .terminated else .executing, asInt s.errorTasks, some s.doc⟩

/-! ## What the statements do to the rows -/

variable {t : HistoryTable Node} {row row' : HistoryRow Node} {id : Nat}

theorem mem_ids_of_mem (h : row ∈ t.rows) : row.id ∈ t.ids := List.mem_map_of_mem h

theorem mem_ids_insert (row : HistoryRow Node) (x : Nat) :
    x ∈ (t.insert row).ids ↔ x ∈ t.ids ∨ x = row.id := by
  unfold insert
  by_cases hin : row.id ∈ t.ids
  · rw [if_pos hin]
    exact ⟨Or.inl, fun h ↦ h.elim (fun h ↦ h) fun heq ↦ heq ▸ hin⟩
  · rw [if_neg hin]
    simp [ids]

/-- The key is primary. -/
theorem insert_nodup (h : t.ids.Nodup) (row : HistoryRow Node) : (t.insert row).ids.Nodup := by
  unfold insert
  by_cases hin : row.id ∈ t.ids
  · rw [if_pos hin]
    exact h
  · rw [if_neg hin]
    show (((t.rows ++ [row]).map HistoryRow.id)).Nodup
    rw [List.map_append]
    exact nodup_snoc h hin

theorem mem_insert (h : row' ∈ t.rows) : row' ∈ (t.insert row).rows := by
  unfold insert
  split
  · exact h
  · exact List.mem_append_left _ h

theorem mem_insert_self (h : row.id ∉ t.ids) : row ∈ (t.insert row).rows := by
  unfold insert
  rw [if_neg h]
  exact List.mem_append_right _ (List.mem_singleton.mpr rfl)

theorem ids_update (t : HistoryTable Node) (id : Nat) {f : HistoryRow Node → HistoryRow Node}
    (hf : ∀ row, (f row).id = row.id) :
    (t.update id f).ids = t.ids := by
  unfold ids update
  rw [List.map_map]
  apply List.map_congr_left
  intro row _
  show (if row.id = id then f row else row).id = row.id
  split
  · exact hf row
  · rfl

theorem mem_update {f : HistoryRow Node → HistoryRow Node} :
    row' ∈ (t.update id f).rows ↔ ∃ row ∈ t.rows, (if row.id = id then f row else row) = row' :=
  List.mem_map

theorem mem_update_of_ne {f : HistoryRow Node → HistoryRow Node} (h : row ∈ t.rows)
    (hne : row.id ≠ id) : row ∈ (t.update id f).rows :=
  mem_update.mpr ⟨row, h, if_neg hne⟩

theorem mem_update_self {f : HistoryRow Node → HistoryRow Node} (h : row ∈ t.rows)
    (heq : row.id = id) : f row ∈ (t.update id f).rows :=
  mem_update.mpr ⟨row, h, if_pos heq⟩

theorem ids_delete_sublist (p : HistoryRow Node → Bool) : (t.delete p).ids.Sublist t.ids :=
  List.filter_sublist.map _

theorem mem_delete {p : HistoryRow Node → Bool} :
    row ∈ (t.delete p).rows ↔ row ∈ t.rows ∧ p row = false := by
  unfold delete
  rw [List.mem_filter, Bool.not_eq_true']

theorem le_maxId (h : id ∈ t.ids) : id ≤ t.maxId := by
  unfold maxId
  generalize t.ids = xs at h
  induction xs with
  | nil => exact absurd h List.not_mem_nil
  | cons x xs ih =>
    rw [List.foldr_cons]
    rcases List.mem_cons.mp h with heq | hin
    · omega
    · have hle := ih hin
      omega

variable {savepointLevel : Nat} {force terminated : Bool} {s : WorkflowInstance Node}

/-- From level 2 on `record_savepoint` updates the row of the instance, if it does anything. -/
theorem recordSavepoint_two (hlevel : 2 ≤ savepointLevel) (t : HistoryTable Node) (force : Bool)
    (id : Nat) (s : WorkflowInstance Node) (terminated : Bool) :
    ∃ f : HistoryRow Node → HistoryRow Node,
      t.recordSavepoint savepointLevel force id s terminated = t.update id f ∧
      (∀ row, (f row).id = row.id) ∧
      (terminated = false → ∀ row, (f row).status = row.status) ∧
      (terminated = true → ∀ row, (f row).status = .terminated ∧ (f row).errors = asInt s.errorTasks) := by
  have hzero : ¬(terminated = true ∧ savepointLevel = 0) := by omega
  unfold recordSavepoint
  rw [if_neg hzero]
  by_cases hnot : ¬terminated = true ∧ ¬force = true ∧ savepointLevel ≤ 2
  · rw [if_pos hnot]
    refine ⟨fun row ↦ row, ?_, fun _ ↦ rfl, fun _ _ ↦ rfl, fun h ↦ absurd h hnot.1⟩
    unfold update
    simp
  · rw [if_neg hnot, if_pos hlevel]
    refine ⟨_, rfl, ?_, ?_, ?_⟩
    · intro row
      cases terminated <;> rfl
    · intro hterminated row
      rw [hterminated, if_neg Bool.false_ne_true]
    · intro hterminated row
      rw [hterminated, if_pos rfl]
      exact ⟨rfl, rfl⟩

/-- On level 1 `record_savepoint` inserts the row of an instance that has ended, or is saved. -/
theorem recordSavepoint_one (t : HistoryTable Node) (force : Bool) (id : Nat)
    (s : WorkflowInstance Node) (terminated : Bool) :
    t.recordSavepoint 1 force id s terminated =
      if terminated = true ∨ force = true then
        t.insert ⟨id, if terminated then .terminated else .executing, asInt s.errorTasks, some s.doc⟩
      else t := by
  unfold recordSavepoint
  cases terminated <;> cases force <;> simp

end HistoryTable

inductive EnginePhase where
  | down
  /-- In the resume loop, with the ids that are left of the query. -/
  | resuming (rest : List Nat)
  | up
deriving DecidableEq, Repr

structure History (Node : Type) where
  table : HistoryTable Node
  phase : EnginePhase
  /-- `SequenceGenerator::seq`. -/
  seq : Nat
  /-- The instances constructed that `Start` was not called for yet. -/
  constructed : List (Nat × Document Node)
  live : List (Nat × WorkflowInstance Node)
  /-- The ids given so far; this and the next two are kept for the statements only. -/
  given : List Nat
  /-- The instances that ended, with their `error_tasks`, once they are recorded. -/
  ended : List (Nat × UInt32)
  collected : List Nat

/-- What the engine does, from start-up to shutdown. -/
inductive HistoryAction (Node : Type) where
  /-- The sequence is initialised, and the executing instances are looked up. -/
  | startUp (order : List Nat)
  | resume (env : Environment Node) (order : List Nat)
  /-- Behind the resume loop. -/
  | purge
  /-- `status` is that of the root of the workflow. -/
  | construct (doc : Document Node) (status : String)
  | start (env : Environment Node) (id : Nat)
  | call (id : Nat) (operation : Operation Node)
  /-- The garbage collector deletes rows of terminated instances. -/
  | collect (ids : List Nat)
  | shutdown

namespace History

/-- A new database, before the first start of the engine. -/
def new : History Node :=
  { table := ⟨[], 1⟩
    phase := .down
    seq := 0
    constructed := []
    live := []
    given := []
    ended := []
    collected := [] }

/-- Behind a call: the savepoint is recorded, and an instance that has ended is deleted. -/
def settle (savepointLevel : Nat) (h : History Node) (id : Nat)
    (result : WorkflowInstance Node × Bool) : History Node :=
  { h with
    table := h.table.recordSavepoint savepointLevel false id result.1 result.2
    live := (h.live.filter fun p ↦ p.1 ≠ id) ++ if result.2 then [] else [(id, result.1)]
    ended := h.ended ++ if result.2 then [(id, result.1.errorTasks)] else [] }

/-- `Resume` of the next instance of the query; the constructor throws when the savepoint is empty. -/
def resumeNext (savepointLevel : Nat) (h : History Node) (env : Environment Node) (order : List Nat) :
    Option (History Node) :=
  match h.phase with
  | .resuming (id :: rest) =>
      match (h.table.rows.find? fun row ↦ row.id = id).bind HistoryRow.savepoint with
      | none =>
          some { h with
            table := h.table.update id fun row ↦ { row with status := .terminated }
            phase := .resuming rest }
      | some doc =>
          -- every task found comes once
          if order.Nodup ∧ order.Perm doc.found then
            some { h.settle savepointLevel id ((WorkflowInstance.create doc).resume env order) with
              phase := .resuming rest }
          else none
  | _ => none

def construct (savepointLevel : Nat) (h : History Node) (doc : Document Node) (status : String) :
    History Node :=
  let (table, id, seq) :=
    if 2 ≤ savepointLevel then (h.table.insertNew.1, h.table.insertNew.2, h.seq)
    else (h.table, h.seq, h.seq + 1)
  { h with
    table := table.recordSavepoint savepointLevel false id (.create doc) (status = "TERMINATED")
    seq
    constructed := h.constructed ++ [(id, doc)]
    given := h.given ++ [id] }

/-- A call for an instance that is known; `Cancel` records nothing. -/
def call (savepointLevel : Nat) (h : History Node) (id : Nat) (operation : Operation Node) :
    Option (History Node) :=
  match h.live.find? fun p ↦ p.1 = id with
  | none => none
  | some (_, s) =>
      match operation with
      | .cancel => some { h with live := (h.live.filter fun p ↦ p.1 ≠ id) ++ [(id, s.cancel)] }
      | operation =>
          (Lifetime.step ⟨s, 0⟩ operation).map fun l ↦
            h.settle savepointLevel id (l.workflow, l.deleted = 1)

def shutdown (savepointLevel : Nat) (h : History Node) : History Node :=
  { h with
    table := h.live.foldl (fun t p ↦ t.recordSavepoint savepointLevel true p.1 p.2 false) h.table
    live := []
    phase := .down }

def step (savepointLevel : Nat) (h : History Node) : HistoryAction Node → Option (History Node)
  | .startUp order =>
      if h.phase = .down ∧ order.Perm h.table.executingIds then
        some { h with
          seq := h.table.maxId + 1
          phase := .resuming order }
      else none
  | .resume env order => h.resumeNext savepointLevel env order
  | .purge =>
      if h.phase = .resuming [] then
        some { h with
          table := if savepointLevel ≤ 1 then h.table.delete fun row ↦ row.status = .executing
            else h.table
          phase := .up }
      else none
  | .construct doc status =>
      if h.phase = .up then some (h.construct savepointLevel doc status) else none
  | .start env id =>
      if h.phase = .up then
        (h.constructed.find? fun p ↦ p.1 = id).map fun p ↦
          { h with constructed := h.constructed.filter fun p ↦ p.1 ≠ id }.settle savepointLevel id
            ((WorkflowInstance.create p.2).start env)
      else none
  | .call id operation => if h.phase = .up then h.call savepointLevel id operation else none
  | .collect ids =>
      if h.phase = .up then
        some { h with
          table := h.table.delete fun row ↦ row.status = .terminated ∧ row.id ∈ ids
          collected := h.collected ++
            (h.table.rows.filter fun row ↦ row.status = .terminated ∧ row.id ∈ ids).map HistoryRow.id }
      else none
  | .shutdown =>
      if h.phase = .up ∧ h.constructed = [] then some (h.shutdown savepointLevel) else none

end History

end EvQueue
