import EvQueue.WorkflowInstanceRetries

/-!
# WorkflowInstanceResume — what `Resume` makes of a savepoint

The constructor takes the document from the savepoint and sets the counters to zero.  `Resume` then goes
through the tasks that were queued, executing or terminated.  What it does with one of them depends on
this task alone.
-/

namespace EvQueue

variable {Node : Type}

/-- What `Resume` does with a task. -/
inductive Resumed where
  | queued
  /-- The queue is not known any more. -/
  | aborted
  | executing
  /-- It had failed: `retry_task` is called again. -/
  | retried (outcome : Retry)
  | left
deriving DecidableEq, Repr

namespace Resumed

def running : Resumed → Bool
  | .queued | .executing => true
  | _ => false

def retrying (r : Resumed) : Bool := r = .retried .planned

def error : Resumed → Bool
  | .aborted | .retried .exhausted => true
  | _ => false

end Resumed

namespace TaskNode

/-- `@status='QUEUED' or @status='EXECUTING' or @status='TERMINATED'`. -/
def resumable (t : TaskNode Node) : Bool :=
  t.status = some .queued ∨ t.status = some .executing ∨ t.status = some .terminated

/-- The task behind `Resume`, and what was done with it. -/
def resumed (env : Environment Node) (schedules : String → Option (List (Int × Int)))
    (t : TaskNode Node) : TaskNode Node × Resumed :=
  match t.status with
  | some .queued =>
      if env.enqueueTask t.queue then ({ t with status := some .queued }, .queued)
      else
        ({ t with
            status := some .aborted
            error := some "Unknown queue name" }, .aborted)
  | some .executing => (t, .executing)
  | some .terminated =>
      if t.retval = some 0 then (t, .left)
      else ((t.retry env.uninitialised schedules).1, .retried (t.retry env.uninitialised schedules).2)
  | _ => (t, .left)

end TaskNode

/-- The tasks that the query of `Resume` finds. -/
def Document.found (d : Document Node) : List Nat :=
  (d.tasks.filter TaskNode.resumable).map TaskNode.id

/-- What `Resume` does with the task of this identity. -/
def Document.resumed (env : Environment Node) (d : Document Node) (id : Nat) : Resumed :=
  match d.task? id with
  | none => .left
  | some task => (task.resumed env d.schedules).2

namespace WorkflowInstance

variable (env : Environment Node)

/-- The body of the loop of `Resume`. -/
def resumeTask (s : WorkflowInstance Node) (id : Nat) : WorkflowInstance Node :=
  match s.doc.task? id with
  | none => s
  | some task =>
      match task.status with
      | some .queued => s.enqueueTask env id
      | some .executing => { s with runningTally := s.runningTally + 1 }
      | some .terminated => if task.retval = some 0 then s else s.retryTask env id
      | _ => s

/-- The tasks found come in document order, in which a task stands is not told by the lists of nodes:
the order is a parameter. -/
def resume (order : List Nat) (s : WorkflowInstance Node) : WorkflowInstance Node × Bool :=
  let s := order.foldl (resumeTask env) s
  (s, s.workflowEnded)

/-! ## One task -/

variable {env} {s s' : WorkflowInstance Node} {id : Nat} {task : TaskNode Node} {order : List Nat}

/-- The instance behind the body of the loop. -/
def resumedWith (s : WorkflowInstance Node) (id : Nat) (doc : Document Node) (r : Resumed) :
    WorkflowInstance Node :=
  { s with
    doc
    runningTally := s.runningTally + if r.running then 1 else 0
    retryingTally := s.retryingTally + if r.retrying then 1 else 0
    errorTally := s.errorTally + if r.error then 1 else 0
    queued := s.queued ++ if r = .queued then [id] else []
    retrier := s.retrier ++ if r.retrying then [id] else [] }

theorem resumedWith_left (s : WorkflowInstance Node) (id : Nat) : s.resumedWith id s.doc .left = s := by
  simp [resumedWith, Resumed.running, Resumed.retrying, Resumed.error]

theorem resumedWith_retried (s : WorkflowInstance Node) (id : Nat) (d : Document Node) (r : Retry) :
    s.resumedWith id d (.retried r) = s.retried id d r := by
  cases r <;> simp [resumedWith, retried, Resumed.running, Resumed.retrying, Resumed.error]

theorem resumeTask_eq (env : Environment Node) (hcancel : s.isCancelling = false)
    (hfind : s.doc.task? id = some task) :
    ∃ d, Document.Replaced id (task.resumed env s.doc.schedules).1 s.doc d ∧
      s.resumeTask env id = s.resumedWith id d (task.resumed env s.doc.schedules).2 := by
  have hleft : ∃ d, Document.Replaced id task s.doc d ∧ s = s.resumedWith id d .left :=
    ⟨s.doc, Document.Replaced.refl hfind, (s.resumedWith_left id).symm⟩
  unfold resumeTask TaskNode.resumed
  rw [hfind]
  dsimp only
  rcases hstatus : task.status with _ | status
  · exact hleft
  · cases status with
    | queued =>
      unfold enqueueTask
      rw [hfind]
      dsimp only
      rw [hcancel, if_neg Bool.false_ne_true]
      by_cases hqueue : env.enqueueTask task.queue = true
      · rw [if_pos hqueue, if_pos hqueue]
        refine ⟨_, Document.replaced_setTask (f := fun t ↦ { t with status := some .queued })
          (fun _ ↦ rfl) hfind rfl, ?_⟩
        simp [resumedWith, setTask, hcancel, Resumed.running, Resumed.retrying, Resumed.error]
      · rw [if_neg hqueue, if_neg hqueue]
        refine ⟨_, Document.replaced_setTask (f := fun t ↦
          { t with
            status := some .aborted
            error := some "Unknown queue name" }) (fun _ ↦ rfl) hfind rfl, ?_⟩
        simp [resumedWith, abortTask, setTask, hcancel, Resumed.running, Resumed.retrying, Resumed.error]
    | executing =>
      refine ⟨s.doc, Document.Replaced.refl hfind, ?_⟩
      simp [resumedWith, Resumed.running, Resumed.retrying, Resumed.error]
    | terminated =>
      dsimp only
      by_cases hzero : task.retval = some 0
      · rw [if_pos hzero, if_pos hzero]
        exact hleft
      · rw [if_neg hzero, if_neg hzero]
        rcases retryTask_eq env hfind with ⟨d, hd, heq⟩
        exact ⟨d, hd, by rw [heq, resumedWith_retried]⟩
    | aborted => exact hleft

/-! ## The whole loop -/

/-- What the loop over `order` does to an instance. -/
structure Resumption (env : Environment Node) (order : List Nat) (s s' : WorkflowInstance Node) :
    Prop where
  jobs : s'.doc.jobs = s.doc.jobs
  ids : s'.doc.tasks.map TaskNode.id = s.doc.tasks.map TaskNode.id
  nextId : s'.doc.nextId = s.doc.nextId
  schedules : s'.doc.schedules = s.doc.schedules
  isCancelling : s'.isCancelling = s.isCancelling
  trace : s'.trace = s.trace
  others : ∀ x, x ∉ order → s'.doc.task? x = s.doc.task? x
  found : ∀ x ∈ order, ∀ task, s.doc.task? x = some task →
    s'.doc.task? x = some (task.resumed env s.doc.schedules).1
  running : s'.runningTally =
    s.runningTally + (order.countP fun x ↦ (s.doc.resumed env x).running : Nat)
  retrying : s'.retryingTally =
    s.retryingTally + (order.countP fun x ↦ (s.doc.resumed env x).retrying : Nat)
  errors : s'.errorTally = s.errorTally + (order.countP fun x ↦ (s.doc.resumed env x).error : Nat)
  queued : s'.queued = s.queued ++ order.filter fun x ↦ s.doc.resumed env x = .queued
  retrier : s'.retrier = s.retrier ++ order.filter fun x ↦ (s.doc.resumed env x).retrying

theorem resumeTask_none (hfind : s.doc.task? id = none) : s.resumeTask env id = s := by
  unfold resumeTask
  rw [hfind]

theorem Resumption.nil (s : WorkflowInstance Node) : Resumption env [] s s := by
  constructor
  case found => exact fun x hx ↦ absurd hx List.not_mem_nil
  case running => exact (Int.add_zero _).symm
  case retrying => exact (Int.add_zero _).symm
  case errors => exact (Int.add_zero _).symm
  case queued => exact (List.append_nil _).symm
  case retrier => exact (List.append_nil _).symm
  all_goals intros; rfl

/-- There is no such task. -/
theorem Resumption.cons_none (hfind : s.doc.task? id = none) (hrest : Resumption env order s s') :
    Resumption env (id :: order) s s' := by
  have hleft : s.doc.resumed env id = .left := by
    unfold Document.resumed
    rw [hfind]
  constructor
  case jobs => exact hrest.jobs
  case ids => exact hrest.ids
  case nextId => exact hrest.nextId
  case schedules => exact hrest.schedules
  case isCancelling => exact hrest.isCancelling
  case trace => exact hrest.trace
  case others => exact fun x hx ↦ hrest.others x fun hin ↦ hx (List.mem_cons_of_mem _ hin)
  case found =>
    intro x hx task htask
    rcases List.mem_cons.mp hx with heq | hx
    · rw [heq, hfind] at htask
      cases htask
    · exact hrest.found x hx task htask
  case running =>
    rw [List.countP_cons_of_neg (by simp [hleft, Resumed.running])]
    exact hrest.running
  case retrying =>
    rw [List.countP_cons_of_neg (by simp [hleft, Resumed.retrying])]
    exact hrest.retrying
  case errors =>
    rw [List.countP_cons_of_neg (by simp [hleft, Resumed.error])]
    exact hrest.errors
  case queued =>
    rw [List.filter_cons_of_neg (by simp [hleft])]
    exact hrest.queued
  case retrier =>
    rw [List.filter_cons_of_neg (by simp [hleft, Resumed.retrying])]
    exact hrest.retrier

/-- The task is looked at, and then those of `order`, which the loop finds as they were. -/
theorem Resumption.cons_some {d : Document Node} (hfind : s.doc.task? id = some task) (hid : id ∉ order)
    (hd : Document.Replaced id (task.resumed env s.doc.schedules).1 s.doc d)
    (hrest : Resumption env order (s.resumedWith id d (s.doc.resumed env id)) s') :
    Resumption env (id :: order) s s' := by
  -- the other tasks are still as they were
  have hsame : ∀ x ∈ order, d.resumed env x = s.doc.resumed env x := by
    intro x hx
    have hne : x ≠ id := fun heq ↦ hid (heq ▸ hx)
    unfold Document.resumed
    rw [hd.others x hne, hd.schedules]
  have hcount (p : Resumed → Bool) : order.countP (fun x ↦ p (d.resumed env x)) =
      order.countP fun x ↦ p (s.doc.resumed env x) :=
    List.countP_congr fun x hx ↦ by rw [hsame x hx]
  have hfilter (p : Resumed → Bool) : order.filter (fun x ↦ p (d.resumed env x)) =
      order.filter fun x ↦ p (s.doc.resumed env x) :=
    List.filter_congr fun x hx ↦ by rw [hsame x hx]
  constructor
  case jobs => exact hrest.jobs.trans hd.jobs
  case ids => exact hrest.ids.trans hd.ids
  case nextId => exact hrest.nextId.trans hd.nextId
  case schedules => exact hrest.schedules.trans hd.schedules
  case isCancelling => exact hrest.isCancelling
  case trace => exact hrest.trace
  case others =>
    intro x hx
    rw [List.mem_cons, not_or] at hx
    exact (hrest.others x hx.2).trans (hd.others x hx.1)
  case found =>
    intro x hx task' htask
    rcases List.mem_cons.mp hx with heq | hx
    · rw [heq, hfind, Option.some.injEq] at htask
      rw [heq, ← htask]
      exact (hrest.others id hid).trans hd.task
    · have hne : x ≠ id := fun heq ↦ hid (heq ▸ hx)
      have hfound := hrest.found x hx task' ((hd.others x hne).trans htask)
      rw [show (s.resumedWith id d (s.doc.resumed env id)).doc.schedules = s.doc.schedules from
        hd.schedules] at hfound
      exact hfound
  case running =>
    rw [hrest.running, List.countP_cons]
    show s.runningTally + _ + _ = _
    rw [show (order.countP fun x ↦ ((s.resumedWith id d _).doc.resumed env x).running) = _ from
      hcount Resumed.running]
    split <;> omega
  case retrying =>
    rw [hrest.retrying, List.countP_cons]
    show s.retryingTally + _ + _ = _
    rw [show (order.countP fun x ↦ ((s.resumedWith id d _).doc.resumed env x).retrying) = _ from
      hcount Resumed.retrying]
    split <;> omega
  case errors =>
    rw [hrest.errors, List.countP_cons]
    show s.errorTally + _ + _ = _
    rw [show (order.countP fun x ↦ ((s.resumedWith id d _).doc.resumed env x).error) = _ from
      hcount Resumed.error]
    split <;> omega
  case queued =>
    rw [hrest.queued, List.filter_cons]
    show s.queued ++ _ ++ _ = _
    rw [show (order.filter fun x ↦ (s.resumedWith id d _).doc.resumed env x = .queued) = _ from
      hfilter fun r ↦ r = .queued]
    by_cases hqueued : s.doc.resumed env id = .queued <;> simp [hqueued]
  case retrier =>
    rw [hrest.retrier, List.filter_cons]
    show s.retrier ++ _ ++ _ = _
    rw [show (order.filter fun x ↦ ((s.resumedWith id d _).doc.resumed env x).retrying) = _ from
      hfilter Resumed.retrying]
    by_cases hretrying : (s.doc.resumed env id).retrying = true <;> simp [hretrying]

/-- Every task found is looked at once, as it was in the savepoint. -/
theorem resumption_foldl (hnodup : order.Nodup) (hcancel : s.isCancelling = false) :
    Resumption env order s (order.foldl (resumeTask env) s) := by
  induction order generalizing s with
  | nil => exact Resumption.nil s
  | cons id order ih =>
    rw [List.nodup_cons] at hnodup
    rw [List.foldl_cons]
    cases hfind : s.doc.task? id with
    | none =>
      rw [resumeTask_none hfind]
      exact (ih hnodup.2 hcancel).cons_none hfind
    | some task =>
      rcases resumeTask_eq env hcancel hfind with ⟨d, hd, heq⟩
      have hresumed : s.doc.resumed env id = (task.resumed env s.doc.schedules).2 := by
        unfold Document.resumed
        rw [hfind]
      rw [heq, ← hresumed]
      have hrest := ih (s := s.resumedWith id d (s.doc.resumed env id)) hnodup.2 hcancel
      exact hrest.cons_some hfind hnodup.1 hd

/-! ## The document behind `Resume` -/

/-- What is constructed from a savepoint; the trace is kept for the statements only. -/
def fromSavepoint (doc : Document Node) (trace : List (Event Node)) : WorkflowInstance Node :=
  { create doc with trace }

/-- Two lists of tasks with the same identities differ by a function when the tasks do. -/
theorem tasks_eq_map {tasks tasks' : List (TaskNode Node)} {f : TaskNode Node → TaskNode Node}
    (hids : tasks'.map TaskNode.id = tasks.map TaskNode.id)
    (hnodup : (tasks.map TaskNode.id).Nodup)
    (hfind : ∀ t ∈ tasks, tasks'.find? (fun x ↦ x.id = t.id) = some (f t)) : tasks' = tasks.map f := by
  induction tasks generalizing tasks' with
  | nil => exact List.map_eq_nil_iff.mp hids
  | cons t tasks ih =>
    cases tasks' with
    | nil => cases hids
    | cons t' tasks' =>
      rw [List.map_cons, List.map_cons, List.cons.injEq] at hids
      rw [List.map_cons, List.nodup_cons] at hnodup
      have hfirst := hfind t List.mem_cons_self
      rw [List.find?_cons_of_pos (by simp [hids.1]), Option.some.injEq] at hfirst
      rw [List.map_cons, hfirst]
      congr 1
      apply ih hids.2 hnodup.2
      intro x hx
      have hne : t'.id ≠ x.id := by
        intro heq
        rw [hids.1] at heq
        exact hnodup.1 (heq ▸ List.mem_map_of_mem hx)
      rw [← hfind x (List.mem_cons_of_mem _ hx), List.find?_cons_of_neg (by simpa using hne)]

theorem task?_of_nodup {d : Document Node} (hnodup : (d.tasks.map TaskNode.id).Nodup)
    (ht : task ∈ d.tasks) : d.task? task.id = some task := by
  cases hfind : d.task? task.id with
  | none =>
    have hno := List.find?_eq_none.mp hfind task ht
    simp at hno
  | some t =>
    have hid : t.id = task.id := by simpa using List.find?_some hfind
    rw [List.inj_on_of_nodup_map hnodup (List.mem_of_find?_eq_some hfind) ht hid]

/-- A task that the query does not find is left alone. -/
theorem resumed_of_not_resumable (schedules : String → Option (List (Int × Int)))
    (h : task.resumable = false) : task.resumed env schedules = (task, .left) := by
  unfold TaskNode.resumable at h
  unfold TaskNode.resumed
  rcases hstatus : task.status with _ | status
  · rfl
  · cases status <;> simp_all

theorem Resumption.tasks (h : Resumption env order s s') (hnodup : (s.doc.tasks.map TaskNode.id).Nodup)
    (horder : order.Perm s.doc.found) :
    s'.doc.tasks = s.doc.tasks.map fun t ↦ (t.resumed env s.doc.schedules).1 := by
  apply tasks_eq_map h.ids hnodup
  intro t ht
  have hfind := task?_of_nodup hnodup ht
  by_cases hin : t.id ∈ order
  · exact h.found t.id hin t hfind
  · -- it was not found, and is as it was
    have hnot : t.resumable = false := by
      by_contra hyes
      rw [Bool.not_eq_false] at hyes
      apply hin
      rw [horder.mem_iff]
      exact List.mem_map_of_mem (List.mem_filter.mpr ⟨ht, hyes⟩)
    rw [resumed_of_not_resumable _ hnot]
    exact (h.others t.id hin).trans hfind

/-! ## The counters behind `Resume` -/

theorem found_nodup {d : Document Node} (hnodup : (d.tasks.map TaskNode.id).Nodup) : d.found.Nodup :=
  hnodup.sublist (List.filter_sublist.map _)

/-- What is counted over the tasks found is counted over all tasks. -/
theorem countP_found {d : Document Node} (hnodup : (d.tasks.map TaskNode.id).Nodup)
    (horder : order.Perm d.found) (env : Environment Node) {p : Resumed → Bool}
    (hp : p .left = false) : order.countP (fun x ↦ p (d.resumed env x)) =
      d.tasks.countP fun t ↦ p (t.resumed env d.schedules).2 := by
  rw [horder.countP_eq]
  unfold Document.found
  rw [List.countP_map, List.countP_filter]
  apply List.countP_congr
  intro t ht
  have hresumed : d.resumed env t.id = (t.resumed env d.schedules).2 := by
    unfold Document.resumed
    rw [task?_of_nodup hnodup ht]
  show (p (d.resumed env t.id) && t.resumable) = true ↔ _
  rw [hresumed]
  cases hresumable : t.resumable with
  | true => rw [Bool.and_true]
  | false => rw [resumed_of_not_resumable _ hresumable, hp, Bool.and_false]

/-- The key of a task behind `Resume`: only a queued task changes, when its queue is not known. -/
theorem key_resumed (env : Environment Node) (schedules : String → Option (List (Int × Int)))
    (t : TaskNode Node) : (t.resumed env schedules).1.key =
      if (t.resumed env schedules).2 = .aborted then t.key.setStatus .aborted else t.key := by
  unfold TaskNode.resumed
  rcases hstatus : t.status with _ | status
  · rfl
  · cases status with
    | queued =>
      dsimp only
      by_cases hqueue : env.enqueueTask t.queue = true
      · rw [if_pos hqueue]
        simp [TaskNode.key, hstatus]
      · rw [if_neg hqueue]
        rfl
    | executing => rfl
    | terminated =>
      dsimp only
      by_cases hzero : t.retval = some 0
      · rw [if_pos hzero]
        rfl
      · rw [if_neg hzero]
        exact (TaskNode.sameBut_retry env.uninitialised schedules t).key
    | aborted => rfl

/-- What the status of a task says about what `Resume` does with it. -/
theorem status_of_resumed (env : Environment Node) (schedules : String → Option (List (Int × Int)))
    (t : TaskNode Node) :
    ((t.resumed env schedules).2 = .queued → t.status = some .queued) ∧
    ((t.resumed env schedules).2 = .aborted → t.status = some .queued) ∧
    ((t.resumed env schedules).2.retrying = true → t.status = some .terminated ∧ t.retval ≠ some 0) ∧
    ((t.resumed env schedules).2.running = (t.resumed env schedules).1.active) ∧
    (t.status = some .queued → (t.resumed env schedules).2 ≠ .aborted →
      (t.resumed env schedules).2 = .queued) := by
  unfold TaskNode.resumed
  rcases hstatus : t.status with _ | status
  · simp [Resumed.running, Resumed.retrying, TaskNode.active, hstatus]
  · cases status with
    | queued =>
      dsimp only
      by_cases hqueue : env.enqueueTask t.queue = true
      · rw [if_pos hqueue]
        simp [Resumed.running, Resumed.retrying, TaskNode.active]
      · rw [if_neg hqueue]
        simp [Resumed.running, Resumed.retrying, TaskNode.active]
    | executing => simp [Resumed.running, Resumed.retrying, TaskNode.active, hstatus]
    | terminated =>
      dsimp only
      by_cases hzero : t.retval = some 0
      · rw [if_pos hzero]
        simp [Resumed.running, Resumed.retrying, TaskNode.active, hstatus]
      · rw [if_neg hzero]
        have hkey := (TaskNode.sameBut_retry env.uninitialised schedules t).key
        have hactive : (t.retry env.uninitialised schedules).1.status = some .terminated :=
          (congrArg TaskKey.status hkey).trans hstatus
        simp [Resumed.running, Resumed.retrying, TaskNode.active, hactive, hzero]
    | aborted => simp [Resumed.running, Resumed.retrying, TaskNode.active, hstatus]

end WorkflowInstance

/-! ## The invariant behind `Resume` -/

/-- What a task is behind `Resume`, when the tasks that are `gone` were aborted. -/
def TaskKey.orAborted (gone : Nat → Bool) (t : TaskKey) : TaskKey :=
  if gone t.id then t.setStatus .aborted else t

theorem TaskKey.id_orAborted (gone : Nat → Bool) (t : TaskKey) : (t.orAborted gone).id = t.id := by
  unfold orAborted
  split <;> rfl

theorem TaskKey.job_orAborted (gone : Nat → Bool) (t : TaskKey) : (t.orAborted gone).job = t.job := by
  unfold orAborted
  split <;> rfl

/-- Queued tasks may be aborted, when the counters, the queues and the retrier are made anew. -/
theorem View.Inv.resume {v : View} {k r : Int} (h : v.Inv k r) (gone : Nat → Bool)
    (hgone : ∀ t ∈ v.tasks, gone t.id = true → t.status = some .queued) {running retrying : Int}
    {queued retrier : List Nat}
    (hrunning : running = ((v.tasks.map (TaskKey.orAborted gone)).countP TaskKey.active : Nat))
    (hretrying : retrying = (retrier.length : Nat)) (hqnodup : queued.Nodup)
    (hqueued : ∀ id, id ∈ queued ↔
      ∃ t ∈ v.tasks, t.id = id ∧ t.status = some .queued ∧ gone t.id = false)
    (hrnodup : retrier.Nodup)
    (hretrier : ∀ id ∈ retrier, ∃ t ∈ v.tasks, t.id = id ∧ t.status = some .terminated ∧
      t.retval ≠ some 0) :
    View.Inv 0 0 { v with
      tasks := v.tasks.map (TaskKey.orAborted gone)
      running, retrying, queued, retrier } := by
  have hids : (v.tasks.map (TaskKey.orAborted gone)).map TaskKey.id = v.tasks.map TaskKey.id := by
    rw [List.map_map]
    exact List.map_congr_left fun t _ ↦ TaskKey.id_orAborted gone t
  -- only queued tasks are aborted
  have hsame : ∀ t ∈ v.tasks, t.status ≠ some .queued → t.orAborted gone = t := by
    intro t ht hstatus
    unfold TaskKey.orAborted
    rw [if_neg]
    exact fun hin ↦ hstatus (hgone t ht hin)
  have hkept : ∀ t ∈ v.tasks, t.status ≠ some .queued → t ∈ v.tasks.map (TaskKey.orAborted gone) := by
    intro t ht hstatus
    have hmem := List.mem_map_of_mem (f := TaskKey.orAborted gone) ht
    rw [hsame t ht hstatus] at hmem
    exact hmem
  constructor
  case nextId => exact h.nextId
  case jobsNodup => exact h.jobsNodup
  case jobsBound => exact h.jobsBound
  case tasksNodup =>
    rw [hids]
    exact h.tasksNodup
  case tasksBound =>
    intro t' ht'
    rcases List.mem_map.mp ht' with ⟨t, ht, heq⟩
    rw [← heq, TaskKey.id_orAborted, TaskKey.job_orAborted]
    exact h.tasksBound t ht
  case running =>
    rw [Int.add_zero]
    exact hrunning
  case retrying =>
    rw [Int.add_zero]
    exact hretrying
  case queuedNodup => exact hqnodup
  case queued =>
    intro id
    rw [hqueued id]
    constructor
    · intro hin
      rcases hin with ⟨t, ht, hid, hstatus, hnot⟩
      have heq : t.orAborted gone = t := by
        unfold TaskKey.orAborted
        rw [hnot, if_neg Bool.false_ne_true]
      refine ⟨t, ?_, hid, hstatus⟩
      have hmem := List.mem_map_of_mem (f := TaskKey.orAborted gone) ht
      rw [heq] at hmem
      exact hmem
    · intro hin
      rcases hin with ⟨t', ht', hid, hstatus⟩
      rcases List.mem_map.mp ht' with ⟨t, ht, heq⟩
      unfold TaskKey.orAborted at heq
      cases hin : gone t.id with
      | true =>
        rw [hin, if_pos rfl] at heq
        rw [← heq] at hstatus
        cases hstatus
      | false =>
        rw [hin, if_neg Bool.false_ne_true] at heq
        rw [← heq] at hid hstatus
        exact ⟨t, ht, hid, hstatus, hin⟩
  case retrierNodup => exact hrnodup
  case retrier =>
    intro id hin
    rcases hretrier id hin with ⟨t, ht, hid, hstatus, hretval⟩
    exact ⟨t, hkept t ht (by rw [hstatus]; simp), hid, hstatus, hretval⟩
  case launchedNodup => exact h.launchedNodup
  case launchedBound => exact h.launchedBound
  case launched =>
    intro id hin hzero
    have hold := h.launched id hin hzero
    -- the tasks of a job whose subjobs run are successful, so none of them was queued
    have hno : ∀ t ∈ v.tasks, t.job = id → t.status ≠ some .queued := by
      intro t ht hjob hstatus
      have hsuccess := hold.2 t ht hjob
      simp [TaskKey.successful, hstatus] at hsuccess
    constructor
    · rcases hold.1 with ⟨t, ht, hjob⟩
      exact ⟨t, hkept t ht (hno t ht hjob), hjob⟩
    · intro t' ht' hjob
      rcases List.mem_map.mp ht' with ⟨t, ht, heq⟩
      rw [← heq, TaskKey.job_orAborted] at hjob
      rw [← heq, hsame t ht (hno t ht hjob)]
      exact hold.2 t ht hjob
  case dormant =>
    intro j hj hout t' ht' hjob
    rcases List.mem_map.mp ht' with ⟨t, ht, heq⟩
    rw [← heq, TaskKey.job_orAborted] at hjob
    have hnone := h.dormant j hj hout t ht hjob
    rw [← heq, hsame t ht (by rw [hnone]; simp)]
    exact hnone
  case ready => exact h.ready

namespace WorkflowInstance

variable {env : Environment Node} {s : WorkflowInstance Node} {order : List Nat}

theorem tasksNodup_of_inv {k r : Int} (h : s.view.Inv k r) : (s.doc.tasks.map TaskNode.id).Nodup := by
  have hnodup : ((s.doc.tasks.map TaskNode.key).map TaskKey.id).Nodup := h.tasksNodup
  rw [List.map_map] at hnodup
  exact hnodup

/-- `Resume` of a savepoint of an instance that satisfies the invariant. -/
theorem resume_inv (env : Environment Node) (h : s.view.Inv 0 0) (horder : order.Perm s.doc.found) :
    ((fromSavepoint s.doc s.trace).resume env order).1.view.Inv 0 0 := by
  have htasks := tasksNodup_of_inv h
  have hnodup : order.Nodup := horder.nodup_iff.mpr (found_nodup htasks)
  have hresumed : ∀ t ∈ s.doc.tasks, s.doc.resumed env t.id = (t.resumed env s.doc.schedules).2 := by
    intro t ht
    unfold Document.resumed
    rw [task?_of_nodup htasks ht]
  have hfound : ∀ x ∈ order, ∃ t ∈ s.doc.tasks, t.id = x := by
    intro x hx
    rcases List.mem_map.mp (horder.mem_iff.mp hx) with ⟨t, ht, heq⟩
    exact ⟨t, (List.mem_filter.mp ht).1, heq⟩
  have hmem : ∀ t ∈ s.doc.tasks, t.resumable = true → t.id ∈ order := by
    intro t ht hresumable
    rw [horder.mem_iff]
    exact List.mem_map_of_mem (List.mem_filter.mpr ⟨ht, hresumable⟩)
  have hloop : Resumption env order (fromSavepoint s.doc s.trace) _ :=
    resumption_foldl hnodup (s := fromSavepoint s.doc s.trace) rfl
  unfold resume
  dsimp only
  generalize order.foldl (resumeTask env) (fromSavepoint s.doc s.trace) = s' at hloop
  have htasks' : s'.doc.tasks = s.doc.tasks.map fun t ↦ (t.resumed env s.doc.schedules).1 :=
    hloop.tasks htasks horder
  -- the view behind the loop
  have hkeys : s'.view.tasks =
      s.view.tasks.map (TaskKey.orAborted fun id ↦ s.doc.resumed env id = .aborted) := by
    show s'.doc.tasks.map TaskNode.key = (s.doc.tasks.map TaskNode.key).map _
    rw [htasks', List.map_map, List.map_map]
    apply List.map_congr_left
    intro t ht
    show (t.resumed env s.doc.schedules).1.key = _
    rw [key_resumed]
    show _ = if decide (s.doc.resumed env t.id = .aborted) then _ else t.key
    rw [hresumed t ht]
    simp only [decide_eq_true_eq]
  have hview : s'.view = { s.view with
      tasks := s.view.tasks.map (TaskKey.orAborted fun id ↦ s.doc.resumed env id = .aborted)
      running := s'.runningTally
      retrying := s'.retryingTally
      queued := s'.queued
      retrier := s'.retrier } := by
    rw [← hkeys]
    show View.mk _ _ _ _ _ _ _ _ _ = View.mk _ _ _ _ _ _ _ _ _
    rw [hloop.jobs, hloop.nextId, hloop.trace]
    rfl
  rw [hview]
  have hretrier : s'.retrier = order.filter fun x ↦ (s.doc.resumed env x).retrying := hloop.retrier
  have hqueued : s'.queued = order.filter fun x ↦ s.doc.resumed env x = .queued := hloop.queued
  apply h.resume
  · intro t ht hgone
    rcases List.mem_map.mp ht with ⟨t', ht', heq⟩
    rw [← heq] at hgone ⊢
    rw [decide_eq_true_eq, show t'.key.id = t'.id from rfl, hresumed t' ht'] at hgone
    exact (status_of_resumed env s.doc.schedules t').2.1 hgone
  · -- the counter has grown by one for each task that is active behind the loop
    have hcount := countP_found (p := Resumed.running) htasks horder env rfl
    rw [hloop.running, ← hkeys, show (fromSavepoint s.doc s.trace).doc = s.doc from rfl, hcount]
    show 0 + _ = (((s'.doc.tasks.map TaskNode.key).countP TaskKey.active : Nat) : Int)
    rw [htasks', List.map_map, List.countP_map, Int.zero_add]
    congr 1
    apply List.countP_congr
    intro t ht
    rw [(status_of_resumed env s.doc.schedules t).2.2.2.1]
    rfl
  · rw [hretrier, hloop.retrying, List.countP_eq_length_filter]
    show 0 + _ = _
    rw [Int.zero_add]
    rfl
  · rw [hqueued]
    exact hnodup.filter _
  · intro id
    rw [hqueued, List.mem_filter, decide_eq_true_eq]
    constructor
    · intro hin
      rcases hfound id hin.1 with ⟨t, ht, hid⟩
      have hoften := hin.2
      rw [← hid, hresumed t ht] at hoften
      refine ⟨t.key, List.mem_map_of_mem ht, hid,
        (status_of_resumed env s.doc.schedules t).1 hoften, ?_⟩
      rw [decide_eq_false_iff_not, show t.key.id = t.id from rfl, hresumed t ht, hoften]
      decide
    · intro hin
      rcases hin with ⟨t', ht', hid, hstatus, hnot⟩
      rcases List.mem_map.mp ht' with ⟨t, ht, heq⟩
      rw [← heq] at hid hstatus hnot
      rw [decide_eq_false_iff_not, show t.key.id = t.id from rfl, hresumed t ht] at hnot
      have hstatus : t.status = some .queued := hstatus
      have hid : t.id = id := hid
      have hin := hmem t ht (by simp [TaskNode.resumable, hstatus])
      rw [← hid, hresumed t ht]
      exact ⟨hin, (status_of_resumed env s.doc.schedules t).2.2.2.2 hstatus hnot⟩
  · rw [hretrier]
    exact hnodup.filter _
  · intro id hin
    rw [hretrier, List.mem_filter] at hin
    rcases hfound id hin.1 with ⟨t, ht, hid⟩
    have hretrying := hin.2
    rw [← hid, hresumed t ht] at hretrying
    have hstatus := (status_of_resumed env s.doc.schedules t).2.2.1 hretrying
    exact ⟨t.key, List.mem_map_of_mem ht, hid, hstatus.1, hstatus.2⟩

end WorkflowInstance

end EvQueue
