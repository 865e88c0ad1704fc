import EvQueue.Base.SortedLookup
import EvQueue.Queue

/-!
# QueuePool — all queues, and the table of task identifiers

The pool finds a queue by name, hands the tasks of unlocked queues to the forker and keeps, for each
task that was registered, its identifier.  Every function below is one critical section of
`QueuePool.cpp`; `dequeueTask` waits in the middle and is therefore two of them.
-/

namespace EvQueue

open Cells

/-- `strcmp`. -/
def strcmp : List Char → List Char → Ordering
  | [], [] => .eq
  | [], _ :: _ => .lt
  | _ :: _, [] => .gt
  | a :: as, b :: bs =>
      if a.toNat < b.toNat then .lt else if b.toNat < a.toNat then .gt else strcmp as bs

/-- What the tables `tid_queue_index`, `tid_task` and `tid_workflow_instance` hold for one `tid`. -/
structure TidEntry (WI DOMNode : Type) where
  queueIndex : Nat
  task : DOMNode
  workflowInstance : WI

structure QueuePool (WI DOMNode : Type) where
  name : List String
  queue : List (Queue WI DOMNode)
  /-- `none` is the null `tid_workflow_instance[tid]`. -/
  tid : Nat → Option (TidEntry WI DOMNode)
  /-- Read by `atoi`, so a nonnegative `int`. -/
  maxpid : Fin (2 ^ 31)
  lasttid : Nat
  forkLocked : Bool
  forkPossible : Bool
  /-- A `pthread_cond_signal` the waiting forker has not consumed yet. -/
  forkSignal : Bool
  isShuttingDown : Bool

namespace QueuePool

variable {WI DOMNode : Type}

def isLocked (p : QueuePool WI DOMNode) : Bool := p.queue.all Queue.isLocked

/-- The constructor: `rows` are the names of `t_queue` with their ids and concurrencies. -/
def create (rows : List (String × UInt32 × UInt32)) (maxpid : Fin (2 ^ 31)) :
    Except String (QueuePool WI DOMNode) :=
  (rows.mapM fun (name, row) ↦ Queue.create name (some row)).map fun queue ↦
    { name := rows.map Prod.fst, queue, tid := fun _ ↦ none, maxpid, lasttid := 0, forkLocked := false,
      forkPossible := !queue.all Queue.isLocked, forkSignal := false, isShuttingDown := false }

def lookup (p : QueuePool WI DOMNode) (queueName : String) : Option Nat :=
  SortedLookup.lookup (fun i ↦ strcmp (p.name[i]?.getD "").toList queueName.toList) p.name.length

/-- `fork_possible = !IsLocked()`, and the signal that follows it. -/
def updateForkPossible (p : QueuePool WI DOMNode) : QueuePool WI DOMNode :=
  { p with forkPossible := !p.isLocked, forkSignal := p.forkSignal || (p.forkLocked && !p.isLocked) }

/-- The result is `false` when no queue has the name. -/
def enqueueTask (A : Allocator (Task WI DOMNode)) (p : QueuePool WI DOMNode) (queueName : String)
    (workflowInstance : WI) (task : DOMNode) : Option (Bool × QueuePool WI DOMNode) :=
  match p.lookup queueName with
  | none => some (false, p)
  | some i =>
      p.queue[i]?.bind fun q ↦ (q.enqueueTask A workflowInstance task).map fun q' ↦
        (true, updateForkPossible { p with queue := p.queue.set i q' })

/-- The first half of `DequeueTask`; `none` when the forker has to wait on `fork_lock`, otherwise
whether it may go on. -/
def dequeueEnter (p : QueuePool WI DOMNode) : Option Bool × QueuePool WI DOMNode :=
  if p.isShuttingDown then (some false, p)
  else if !p.forkPossible then (none, { p with forkLocked := true })
  else (some true, p)

/-- The loop over the queues from index `i` on: the first task found, with the index of its queue. -/
def dequeueLoop : Nat → List (Queue WI DOMNode) →
    Option (Option (Nat × Task WI DOMNode) × List (Queue WI DOMNode))
  | _, [] => some (none, [])
  | i, q :: qs =>
      q.dequeueTask.bind fun
      | (some t, q') => some (some (i, t), q' :: qs)
      | (none, q') => (dequeueLoop (i + 1) qs).map fun (found, qs') ↦ (found, q' :: qs')

/-- The second half of `DequeueTask`, with the mutex held again: the index of the queue, whose name
is copied to the caller, and the task, or `none` for the result `false`. -/
def dequeueBody (p : QueuePool WI DOMNode) :
    Option (Option (Nat × Task WI DOMNode) × QueuePool WI DOMNode) :=
  if p.isShuttingDown then some (none, p)
  else
    let p := { p with forkLocked := false, forkSignal := false }
    (dequeueLoop 0 p.queue).map fun (found, queue) ↦
      let p := { p with queue }
      match found with
      | some _ => (found, { p with forkPossible := !p.isLocked })
      | none => (none, p)

/-- The identifiers that `ExecuteTask` tries, in its order. -/
def candidates (p : QueuePool WI DOMNode) : List Nat :=
  (List.range p.maxpid).map fun i ↦ (p.lasttid + 1 + i) % p.maxpid

def freeTid (p : QueuePool WI DOMNode) : Option Nat :=
  p.candidates.find? fun t ↦ (p.tid t).isNone

/-- The common tail of `ExecuteTask`, once the identifier is known. -/
def register (p : QueuePool WI DOMNode) (i : Nat) (workflowInstance : WI) (task : DOMNode)
    (taskId : Nat) : QueuePool WI DOMNode :=
  updateForkPossible { p with
    tid := Function.update p.tid taskId (some ⟨i, task, workflowInstance⟩)
    queue := p.queue.modify i Queue.executeTask }

/-- The result is the task identifier; 0 also when the queue is unknown or no identifier is free. -/
def executeTask (p : QueuePool WI DOMNode) (workflowInstance : WI) (task : DOMNode)
    (queueName : String) (taskId : Nat) : Nat × QueuePool WI DOMNode :=
  match p.lookup queueName with
  | none => (0, p)
  | some i =>
      if taskId = 0 then
        match p.freeTid with
        | some t => (t, register { p with lasttid := t } i workflowInstance task t)
        -- the loop variable stops on the last candidate, which is stored all the same
        | none => (0, { p with lasttid := p.candidates.getLastD 0 })
      else (taskId, register p i workflowInstance task taskId)

def terminateTask (p : QueuePool WI DOMNode) (taskId : Nat) :
    Option (WI × DOMNode) × QueuePool WI DOMNode :=
  match p.tid taskId with
  | none => (none, p)
  | some e =>
      (some (e.workflowInstance, e.task), updateForkPossible { p with
        tid := Function.update p.tid taskId none
        queue := p.queue.modify e.queueIndex Queue.terminateTask })

/-- The loop over the queues in `CancelTasks`. -/
def cancelLoop (getInstanceID : WI → UInt32) (workflowInstanceId : UInt32) :
    List (Queue WI DOMNode) → Option (List (Queue WI DOMNode))
  | [] => some []
  | q :: qs =>
      (q.cancelTasks getInstanceID workflowInstanceId).bind fun q' ↦
        (cancelLoop getInstanceID workflowInstanceId qs).map fun qs' ↦ q' :: qs'

def cancelTasks (getInstanceID : WI → UInt32) (p : QueuePool WI DOMNode)
    (workflowInstanceId : UInt32) : Option (QueuePool WI DOMNode) :=
  (cancelLoop getInstanceID workflowInstanceId p.queue).map fun queue ↦
    updateForkPossible { p with queue }

def shutdown (p : QueuePool WI DOMNode) : QueuePool WI DOMNode :=
  { p with isShuttingDown := true, forkSignal := p.forkSignal || p.forkLocked }

/-! ## What each operation does to the tables -/

section Operations

variable {p p' : QueuePool WI DOMNode}

theorem strcmp_eq {as bs : List Char} (h : strcmp as bs = .eq) : as = bs := by
  induction as generalizing bs with
  | nil =>
    cases bs with
    | nil => rfl
    | cons b bs => simp [strcmp] at h
  | cons a as ih =>
    cases bs with
    | nil => simp [strcmp] at h
    | cons b bs =>
      unfold strcmp at h
      split at h
      · cases h
      · split at h
        · cases h
        · have hab : a.toNat = b.toNat := by omega
          rw [ih h, Char.toNat_inj.mp hab]

/-- A queue is found under its own name. -/
theorem lookup_name {s : String} {i : Nat} (h : p.lookup s = some i) : p.name[i]? = some s := by
  obtain ⟨heq, hlt⟩ := SortedLookup.lookup_eq_some h
  have hname := String.toList_inj.mp (strcmp_eq heq)
  rw [List.getElem?_eq_getElem hlt] at hname ⊢
  rw [← hname, Option.getD_some]

@[simp] theorem updateForkPossible_name : p.updateForkPossible.name = p.name := rfl
@[simp] theorem updateForkPossible_queue : p.updateForkPossible.queue = p.queue := rfl
@[simp] theorem updateForkPossible_tid : p.updateForkPossible.tid = p.tid := rfl
@[simp] theorem updateForkPossible_maxpid : p.updateForkPossible.maxpid = p.maxpid := rfl

/-- `p'` differs from `p` at most in its queues. -/
structure SameTables (p p' : QueuePool WI DOMNode) : Prop where
  name : p'.name = p.name
  tid : p'.tid = p.tid
  maxpid : p'.maxpid = p.maxpid

theorem enqueueTask_cases {A : Allocator (Task WI DOMNode)} {queueName : String} {wi : WI}
    {task : DOMNode} {found : Bool} (h : p.enqueueTask A queueName wi task = some (found, p')) :
    (p' = p ∧ found = false) ∨ ∃ i q q', p.lookup queueName = some i ∧ p.queue[i]? = some q ∧
      q.enqueueTask A wi task = some q' ∧ p'.queue = p.queue.set i q' ∧ SameTables p p' := by
  unfold enqueueTask at h
  split at h
  · obtain ⟨rfl, rfl⟩ := Prod.mk.inj (Option.some.inj h)
    exact .inl ⟨rfl, rfl⟩
  · rename_i i hlook
    obtain ⟨q, hq, h⟩ := Option.bind_eq_some_iff.mp h
    obtain ⟨q', henq, h⟩ := Option.map_eq_some_iff.mp h
    obtain ⟨-, rfl⟩ := Prod.mk.inj h
    exact .inr ⟨i, q, q', hlook, hq, henq, rfl, ⟨rfl, rfl, rfl⟩⟩

theorem dequeueLoop_cases {n : Nat} {qs qs' : List (Queue WI DOMNode)}
    {found : Option (Nat × Task WI DOMNode)} (h : dequeueLoop n qs = some (found, qs')) :
    (found = none ∧ qs' = qs) ∨ ∃ i q t q', found = some (n + i, t) ∧ qs[i]? = some q ∧
      q.dequeueTask = some (some t, q') ∧ qs' = qs.set i q' := by
  induction qs generalizing n found qs' with
  | nil =>
    obtain ⟨rfl, rfl⟩ := Prod.mk.inj (Option.some.inj h)
    exact .inl ⟨rfl, rfl⟩
  | cons q qs ih =>
    rw [dequeueLoop] at h
    obtain ⟨⟨out, q'⟩, hdeq, h⟩ := Option.bind_eq_some_iff.mp h
    cases out with
    | some t =>
      obtain ⟨rfl, rfl⟩ := Prod.mk.inj (Option.some.inj h)
      exact .inr ⟨0, q, t, q', rfl, rfl, hdeq, rfl⟩
    | none =>
      -- a locked queue is left as it is, the search goes on behind it
      obtain ⟨⟨found', rest⟩, hrest, h⟩ := Option.map_eq_some_iff.mp h
      obtain ⟨rfl, rfl⟩ := Prod.mk.inj h
      obtain rfl := Queue.dequeueTask_none hdeq
      rcases ih hrest with ⟨rfl, rfl⟩ | ⟨i, x, t, x', rfl, hx, hxdeq, rfl⟩
      · exact .inl ⟨rfl, rfl⟩
      · refine .inr ⟨i + 1, x, t, x', ?_, hx, hxdeq, rfl⟩
        rw [show n + 1 + i = n + (i + 1) by omega]

theorem dequeueBody_cases {found : Option (Nat × Task WI DOMNode)}
    (h : p.dequeueBody = some (found, p')) :
    (found = none ∧ p'.queue = p.queue ∧ SameTables p p') ∨
      ∃ i q t q', found = some (i, t) ∧ p.queue[i]? = some q ∧
        q.dequeueTask = some (some t, q') ∧ p'.queue = p.queue.set i q' ∧ SameTables p p' := by
  unfold dequeueBody at h
  split at h
  · obtain ⟨rfl, rfl⟩ := Prod.mk.inj (Option.some.inj h)
    exact .inl ⟨rfl, rfl, ⟨rfl, rfl, rfl⟩⟩
  · obtain ⟨⟨found', queue⟩, hloop, h⟩ := Option.map_eq_some_iff.mp h
    rcases dequeueLoop_cases hloop with ⟨rfl, rfl⟩ | ⟨i, q, t, q', rfl, hq, hdeq, rfl⟩
    · obtain ⟨rfl, rfl⟩ := Prod.mk.inj h
      exact .inl ⟨rfl, rfl, ⟨rfl, rfl, rfl⟩⟩
    · obtain ⟨rfl, rfl⟩ := Prod.mk.inj h
      exact .inr ⟨i, q, t, q', by rw [Nat.zero_add], hq, hdeq, rfl, ⟨rfl, rfl, rfl⟩⟩

theorem cancelLoop_cases {getInstanceID : WI → UInt32} {id : UInt32} {qs qs' : List (Queue WI DOMNode)}
    (h : cancelLoop getInstanceID id qs = some qs') (i : Nat) {q' : Queue WI DOMNode}
    (hq' : qs'[i]? = some q') :
    ∃ q, qs[i]? = some q ∧ q.cancelTasks getInstanceID id = some q' := by
  induction qs generalizing qs' i with
  | nil =>
    obtain rfl := Option.some.inj h
    simp at hq'
  | cons q qs ih =>
    obtain ⟨x, hx, h⟩ := Option.bind_eq_some_iff.mp h
    obtain ⟨rest, hrest, rfl⟩ := Option.map_eq_some_iff.mp h
    cases i with
    | zero =>
      obtain rfl : x = q' := by simpa using hq'
      exact ⟨q, rfl, hx⟩
    | succ i =>
      obtain ⟨y, hy, hcan⟩ := ih hrest i (by simpa using hq')
      exact ⟨y, by simpa using hy, hcan⟩

theorem cancelTasks_cases {getInstanceID : WI → UInt32} {id : UInt32}
    (h : p.cancelTasks getInstanceID id = some p') :
    SameTables p p' ∧ ∀ (i : Nat) (q' : Queue WI DOMNode), p'.queue[i]? = some q' →
      ∃ q, p.queue[i]? = some q ∧ q.cancelTasks getInstanceID id = some q' := by
  obtain ⟨queue, hloop, rfl⟩ := Option.map_eq_some_iff.mp h
  exact ⟨⟨rfl, rfl, rfl⟩, fun i q' hq' ↦ cancelLoop_cases hloop i hq'⟩

theorem freeTid_eq_some {t : Nat} (h : p.freeTid = some t) : p.tid t = none ∧ t < p.maxpid := by
  unfold freeTid at h
  have hnone := List.find?_some h
  have hmem := List.mem_of_find?_eq_some h
  unfold candidates at hmem
  obtain ⟨i, hi, rfl⟩ := List.mem_map.mp hmem
  rw [List.mem_range] at hi
  exact ⟨by simpa using hnone, Nat.mod_lt _ (by omega)⟩

end Operations

end QueuePool

end EvQueue
