import Mathlib.Data.List.Nodup
import EvQueue.WorkflowInstance

/-!
# WorkflowInstanceView — the nodes, their statuses and the counters

An instance is looked at through a view, which keeps of every task its place and its status and of every
job its parent.  The invariant speaks of views: the counters are those of the statuses, and a job has
been launched only once all its tasks were successful.
-/

namespace EvQueue

theorem nodup_snoc {α : Type} {xs : List α} {x : α} (h : xs.Nodup) (hx : x ∉ xs) :
    (xs ++ [x]).Nodup := by
  rw [← List.concat_eq_append]
  exact h.concat hx

/-- What the view keeps of a task. -/
structure TaskKey where
  id : Nat
  job : Nat
  status : Option TaskStatus
  retval : Option Int
deriving DecidableEq, Repr

namespace TaskKey

def active (t : TaskKey) : Bool := t.status = some .queued ∨ t.status = some .executing

def successful (t : TaskKey) : Bool := t.status = some .terminated ∧ t.retval = some 0

def setStatus (status : TaskStatus) (t : TaskKey) : TaskKey := { t with status := some status }

end TaskKey

structure View where
  /-- The id of every job, and of its parent. -/
  jobs : List (Nat × Nat)
  tasks : List TaskKey
  nextId : Nat
  running : Int
  retrying : Int
  queued : List Nat
  retrier : List Nat
  /-- The jobs that `run_subjobs` was called with. -/
  launched : List Nat
  /-- Whether every task was enqueued by `run` when the parent of its job was successful. -/
  ready : Bool

namespace View

def setTask (v : View) (id : Nat) (f : TaskKey → TaskKey) : View :=
  { v with tasks := v.tasks.map fun t ↦ if t.id = id then f t else t }

/-- A queued or executing task is counted `k` times less than the counter says, and an event of the
retrier `r` times less. -/
structure Inv (k r : Int) (v : View) : Prop where
  nextId : 0 < v.nextId
  jobsNodup : (v.jobs.map Prod.fst).Nodup
  jobsBound : ∀ j ∈ v.jobs, j.1 ≠ 0 ∧ j.1 < v.nextId
  tasksNodup : (v.tasks.map TaskKey.id).Nodup
  tasksBound : ∀ t ∈ v.tasks, t.id < v.nextId ∧ t.job ≠ 0 ∧ t.job < v.nextId
  running : v.running = (v.tasks.countP TaskKey.active : Nat) + k
  retrying : v.retrying = (v.retrier.length : Nat) + r
  queuedNodup : v.queued.Nodup
  queued : ∀ id, id ∈ v.queued ↔ ∃ t ∈ v.tasks, t.id = id ∧ t.status = some .queued
  retrierNodup : v.retrier.Nodup
  retrier : ∀ id ∈ v.retrier, ∃ t ∈ v.tasks, t.id = id ∧ t.status = some .terminated ∧
    t.retval ≠ some 0
  launchedNodup : v.launched.Nodup
  launchedBound : ∀ id ∈ v.launched, id < v.nextId
  /-- A job that was launched has tasks, all of them successful. -/
  launched : ∀ id ∈ v.launched, id ≠ 0 → (∃ t ∈ v.tasks, t.job = id) ∧
    ∀ t ∈ v.tasks, t.job = id → t.successful = true
  /-- Below a job that was not launched nothing has happened. -/
  dormant : ∀ j ∈ v.jobs, j.2 ∉ v.launched → ∀ t ∈ v.tasks, t.job = j.1 → t.status = none
  ready : v.ready = true

variable {v v' : View} {k k' r r' : Int} {t : TaskKey} {id : Nat}

theorem Inv.task_unique (h : v.Inv k r) {t' : TaskKey} (ht : t ∈ v.tasks) (ht' : t' ∈ v.tasks)
    (hid : t.id = t'.id) : t = t' :=
  List.inj_on_of_nodup_map h.tasksNodup ht ht' hid

/-- A task that is not successful is not in a job that was launched. -/
theorem Inv.not_launched (h : v.Inv k r) (ht : t ∈ v.tasks) (hnot : t.successful = false) :
    t.job ∉ v.launched := by
  intro hin
  have hall := (h.launched t.job hin (h.tasksBound t ht).2.1).2 t ht rfl
  rw [hall] at hnot
  cases hnot

/-- The parent of the job of a task with a status was launched. -/
theorem Inv.parent_launched (h : v.Inv k r) (ht : t ∈ v.tasks) (hstatus : t.status ≠ none) :
    ∀ j ∈ v.jobs, j.1 = t.job → j.2 ∈ v.launched := by
  intro j hj hjob
  by_contra hno
  exact hstatus (h.dormant j hj hno t ht hjob.symm)

theorem Inv.running_sub (h : v.Inv (k + 1) r) : View.Inv k r { v with running := v.running - 1 } := by
  have hrunning := h.running
  exact { h with
    running := by
      show v.running - 1 = (v.tasks.countP TaskKey.active : Nat) + k
      omega }

theorem Inv.retrying_sub (h : v.Inv k (r + 1)) : View.Inv k r { v with retrying := v.retrying - 1 } := by
  have hretrying := h.retrying
  exact { h with
    retrying := by
      show v.retrying - 1 = (v.retrier.length : Nat) + r
      omega }

/-! ## A task that may be started -/

/-- A task that `enqueue_task` may be called for. -/
structure Startable (v : View) (t : TaskKey) : Prop where
  mem : t ∈ v.tasks
  active : t.active = false
  job : t.job ∉ v.launched
  parent : ∀ j ∈ v.jobs, j.1 = t.job → j.2 ∈ v.launched
  retrier : t.id ∉ v.retrier

/-- The parent of a job is known from its id. -/
theorem Inv.parent_unique (h : v.Inv k r) {job parent parent' : Nat}
    (hj : (job, parent) ∈ v.jobs) (hj' : (job, parent') ∈ v.jobs) : parent = parent' := by
  have heq := List.inj_on_of_nodup_map h.jobsNodup hj hj' rfl
  exact (Prod.mk.injEq .. ▸ heq).2

/-- A task that nothing has happened to may be started once the parent of its job was launched. -/
theorem Inv.startable_of_none (h : v.Inv k r) (ht : t ∈ v.tasks) (hnone : t.status = none)
    {parent : Nat} (hjob : (t.job, parent) ∈ v.jobs) (hparent : parent ∈ v.launched) :
    v.Startable t := by
  constructor
  case mem => exact ht
  case active => simp [TaskKey.active, hnone]
  case job =>
    apply h.not_launched ht
    simp [TaskKey.successful, hnone]
  case parent =>
    intro j hj hid
    rcases j with ⟨job, parent'⟩
    have hid : job = t.job := hid
    rw [hid] at hj
    rw [h.parent_unique hjob hj] at hparent
    exact hparent
  case retrier =>
    intro hin
    rcases h.retrier t.id hin with ⟨x, hx, hid, hstatus, -⟩
    rw [h.task_unique hx ht hid, hnone] at hstatus
    cases hstatus

/-! ## What a call leaves alone -/

/-- Only the tasks that are `touched` change, and no job is launched. -/
structure Frame (touched : TaskKey → Prop) (v v' : View) : Prop where
  jobs : v'.jobs = v.jobs
  launched : v'.launched = v.launched
  nextId : v.nextId ≤ v'.nextId
  tasks : ∀ t, ¬touched t → (t ∈ v'.tasks ↔ t ∈ v.tasks)

variable {touched touched' : TaskKey → Prop} {v'' : View}

theorem Frame.refl (touched : TaskKey → Prop) (v : View) : Frame touched v v :=
  ⟨rfl, rfl, Nat.le_refl _, fun _ _ ↦ Iff.rfl⟩

theorem Frame.trans (h : Frame touched v v') (h' : Frame touched v' v'') : Frame touched v v'' := by
  constructor
  case jobs => rw [h'.jobs, h.jobs]
  case launched => rw [h'.launched, h.launched]
  case nextId => exact Nat.le_trans h.nextId h'.nextId
  case tasks =>
    intro t ht
    rw [h'.tasks t ht, h.tasks t ht]

theorem Frame.mono (h : Frame touched v v') (himp : ∀ t, touched t → touched' t) :
    Frame touched' v v' :=
  ⟨h.jobs, h.launched, h.nextId, fun t ht ↦ h.tasks t fun hin ↦ ht (himp t hin)⟩

/-! ## A change of one task -/

theorem mem_setTask {f : TaskKey → TaskKey} {t' : TaskKey} :
    t' ∈ (v.setTask id f).tasks ↔ (t' ∈ v.tasks ∧ t'.id ≠ id) ∨ ∃ t ∈ v.tasks, t.id = id ∧ t' = f t := by
  unfold setTask
  rw [List.mem_map]
  constructor
  · intro h
    rcases h with ⟨t, ht, heq⟩
    by_cases hid : t.id = id
    · rw [if_pos hid] at heq
      exact .inr ⟨t, ht, hid, heq.symm⟩
    · rw [if_neg hid] at heq
      rw [← heq]
      exact .inl ⟨ht, hid⟩
  · intro h
    rcases h with ⟨ht, hid⟩ | ⟨t, ht, hid, heq⟩
    · exact ⟨t', ht, if_neg hid⟩
    · exact ⟨t, ht, by rw [if_pos hid, heq]⟩

theorem setTask_setTask {f g : TaskKey → TaskKey} (hf : ∀ t, (f t).id = t.id) :
    (v.setTask id f).setTask id g = v.setTask id fun t ↦ g (f t) := by
  unfold setTask
  dsimp only
  rw [List.map_map]
  congr 1
  apply List.map_congr_left
  intro t _
  show (if (if t.id = id then f t else t).id = id then g (if t.id = id then f t else t)
    else if t.id = id then f t else t) = if t.id = id then g (f t) else t
  by_cases hid : t.id = id
  · rw [if_pos hid, if_pos hid, hf, if_pos hid]
  · rw [if_neg hid, if_neg hid, if_neg hid]

theorem map_id_setTask {f : TaskKey → TaskKey} (hf : ∀ t, (f t).id = t.id) :
    (v.setTask id f).tasks.map TaskKey.id = v.tasks.map TaskKey.id := by
  unfold setTask
  rw [List.map_map]
  apply List.map_congr_left
  intro t _
  show (if t.id = id then f t else t).id = t.id
  by_cases hid : t.id = id
  · rw [if_pos hid, hf]
  · rw [if_neg hid]

/-- The number of active tasks moves with the task that changes. -/
theorem countP_setTask {f : TaskKey → TaskKey} {p : TaskKey → Bool} {tasks : List TaskKey}
    (hnodup : (tasks.map TaskKey.id).Nodup) (ht : t ∈ tasks) :
    (tasks.map fun x ↦ if x.id = t.id then f x else x).countP p + (if p t then 1 else 0) =
      tasks.countP p + if p (f t) then 1 else 0 := by
  induction tasks with
  | nil => cases ht
  | cons x tasks ih =>
    rw [List.map_cons, List.nodup_cons] at hnodup
    rw [List.map_cons, List.countP_cons, List.countP_cons]
    rcases List.mem_cons.mp ht with heq | ht
    · -- the other tasks have other ids
      have hrest : (tasks.map fun x ↦ if x.id = t.id then f x else x) = tasks := by
        rw [List.map_congr_left (g := fun y ↦ y), List.map_id']
        intro y hy
        have hne : y.id ≠ t.id := by
          intro hid
          apply hnodup.1
          rw [← heq, ← hid]
          exact List.mem_map_of_mem hy
        rw [if_neg hne]
      rw [hrest, ← heq, if_pos rfl]
      omega
    · have hne : x.id ≠ t.id := by
        intro hid
        rw [hid] at hnodup
        exact hnodup.1 (List.mem_map_of_mem ht)
      have hrest := ih hnodup.2 ht
      rw [if_neg hne]
      omega

/-- A task of a job that was not launched, whose parent was, may take any status, when the counters,
the queues and the retrier follow it. -/
theorem Inv.update (h : v.Inv k r) (ht : t ∈ v.tasks) (hjob : t.job ∉ v.launched)
    (hparent : ∀ j ∈ v.jobs, j.1 = t.job → j.2 ∈ v.launched) (f : TaskKey → TaskKey)
    (hid : ∀ x, (f x).id = x.id) (hsame : ∀ x, (f x).job = x.job) {running retrying : Int}
    {queued retrier : List Nat}
    (hrunning : running - k' + (if t.active then 1 else 0) =
      v.running - k + if (f t).active then 1 else 0)
    (hretrying : retrying = (retrier.length : Nat) + r') (hqnodup : queued.Nodup)
    (hqueued : ∀ id, id ∈ queued ↔
      (id ≠ t.id ∧ id ∈ v.queued) ∨ (id = t.id ∧ (f t).status = some .queued))
    (hrnodup : retrier.Nodup)
    (hretrier : ∀ id ∈ retrier, (id ≠ t.id ∧ id ∈ v.retrier) ∨
      (id = t.id ∧ (f t).status = some .terminated ∧ (f t).retval ≠ some 0)) :
    View.Inv k' r' { v.setTask t.id f with running, retrying, queued, retrier } := by
  have hmem : ∀ x, x ∈ (v.setTask t.id f).tasks ↔ (x ∈ v.tasks ∧ x.id ≠ t.id) ∨ x = f t := by
    intro x
    rw [mem_setTask]
    constructor
    · intro hx
      rcases hx with hx | ⟨y, hy, hyid, heq⟩
      · exact .inl hx
      · rw [h.task_unique hy ht hyid] at heq
        exact .inr heq
    · intro hx
      rcases hx with hx | heq
      · exact .inl hx
      · exact .inr ⟨t, ht, rfl, heq⟩
  have hbound := h.tasksBound t ht
  constructor
  case nextId => exact h.nextId
  case jobsNodup => exact h.jobsNodup
  case jobsBound => exact h.jobsBound
  case tasksNodup =>
    rw [map_id_setTask hid]
    exact h.tasksNodup
  case tasksBound =>
    intro x hx
    rcases (hmem x).mp hx with ⟨hx, -⟩ | heq
    · exact h.tasksBound x hx
    · rw [heq, hid, hsame]
      exact hbound
  case running =>
    have hcount := countP_setTask (f := f) (p := TaskKey.active) h.tasksNodup ht
    have hrun := h.running
    show running = ((v.tasks.map fun x ↦ if x.id = t.id then f x else x).countP TaskKey.active : Nat) + k'
    -- whether the task was active and whether it is now
    split at hrunning <;> split at hrunning <;> simp_all <;> omega
  case retrying => exact hretrying
  case queuedNodup => exact hqnodup
  case queued =>
    intro id
    rw [hqueued id, h.queued id]
    constructor
    · intro hin
      rcases hin with ⟨hne, x, hx, hxid, hstatus⟩ | ⟨heq, hstatus⟩
      · rw [← hxid] at hne
        exact ⟨x, (hmem x).mpr (.inl ⟨hx, hne⟩), hxid, hstatus⟩
      · exact ⟨f t, (hmem _).mpr (.inr rfl), by rw [hid, heq], hstatus⟩
    · intro hin
      rcases hin with ⟨x, hx, hxid, hstatus⟩
      rcases (hmem x).mp hx with ⟨hx, hne⟩ | heq
      · rw [hxid] at hne
        exact .inl ⟨hne, x, hx, hxid, hstatus⟩
      · rw [heq, hid] at hxid
        rw [heq] at hstatus
        exact .inr ⟨hxid.symm, hstatus⟩
  case retrierNodup => exact hrnodup
  case retrier =>
    intro id hin
    rcases hretrier id hin with ⟨hne, hin⟩ | ⟨heq, hstatus⟩
    · rcases h.retrier id hin with ⟨x, hx, hxid, hstatus⟩
      rw [← hxid] at hne
      exact ⟨x, (hmem x).mpr (.inl ⟨hx, hne⟩), hxid, hstatus⟩
    · exact ⟨f t, (hmem _).mpr (.inr rfl), by rw [hid, heq], hstatus⟩
  case launchedNodup => exact h.launchedNodup
  case launchedBound => exact h.launchedBound
  case launched =>
    intro id hin hzero
    have hold := h.launched id hin hzero
    constructor
    · rcases hold.1 with ⟨x, hx, hxjob⟩
      -- a job whose subjobs run keeps its tasks: `t` belongs to another one
      have hne : x.id ≠ t.id := by
        intro heq
        rw [h.task_unique hx ht heq] at hxjob
        rw [← hxjob] at hin
        exact hjob hin
      exact ⟨x, (hmem x).mpr (.inl ⟨hx, hne⟩), hxjob⟩
    · intro x hx hxjob
      rcases (hmem x).mp hx with ⟨hx, -⟩ | heq
      · exact hold.2 x hx hxjob
      · rw [heq, hsame] at hxjob
        rw [← hxjob] at hin
        exact absurd hin hjob
  case dormant =>
    intro j hj hout x hx hxjob
    rcases (hmem x).mp hx with ⟨hx, -⟩ | heq
    · exact h.dormant j hj hout x hx hxjob
    · rw [heq, hsame] at hxjob
      exact absurd (hparent j hj hxjob.symm) hout
  case ready => exact h.ready

theorem Inv.notMem_queued (h : v.Inv k r) (ht : t ∈ v.tasks) (hactive : t.active = false) :
    t.id ∉ v.queued := by
  intro hin
  rcases (h.queued t.id).mp hin with ⟨x, hx, hid, hstatus⟩
  rw [h.task_unique hx ht hid] at hstatus
  simp [TaskKey.active, hstatus] at hactive

theorem Inv.abort (h : v.Inv k r) (ht : v.Startable t) :
    (v.setTask t.id (TaskKey.setStatus .aborted)).Inv k r := by
  have hqueued := h.notMem_queued ht.mem ht.active
  apply h.update ht.mem ht.job ht.parent (TaskKey.setStatus .aborted) (fun _ ↦ rfl) (fun _ ↦ rfl)
  · show v.running - k + (if t.active then 1 else 0) = v.running - k + 0
    rw [ht.active]
    rfl
  · exact h.retrying
  · exact h.queuedNodup
  · intro id
    show id ∈ v.queued ↔ (id ≠ t.id ∧ id ∈ v.queued) ∨
      (id = t.id ∧ some TaskStatus.aborted = some .queued)
    grind
  · exact h.retrierNodup
  · intro id hin
    apply Or.inl
    exact ⟨fun heq ↦ ht.retrier (heq ▸ hin), hin⟩

theorem Inv.enqueue (h : v.Inv k r) (ht : v.Startable t) :
    View.Inv k r { v.setTask t.id (TaskKey.setStatus .queued) with
      running := v.running + 1
      queued := v.queued ++ [t.id] } := by
  have hqueued := h.notMem_queued ht.mem ht.active
  apply h.update ht.mem ht.job ht.parent (TaskKey.setStatus .queued) (fun _ ↦ rfl) (fun _ ↦ rfl)
  · show v.running + 1 - k + (if t.active then 1 else 0) = v.running - k + 1
    rw [ht.active, if_neg Bool.false_ne_true]
    omega
  · exact h.retrying
  · exact nodup_snoc h.queuedNodup hqueued
  · intro id
    show id ∈ v.queued ++ [t.id] ↔
      (id ≠ t.id ∧ id ∈ v.queued) ∨ (id = t.id ∧ some TaskStatus.queued = some .queued)
    rw [List.mem_append, List.mem_singleton]
    grind
  · exact h.retrierNodup
  · intro id hin
    apply Or.inl
    exact ⟨fun heq ↦ ht.retrier (heq ▸ hin), hin⟩

/-- A queued task leaves the queue: it is executed or aborted, and counted when it is executed. -/
theorem Inv.dequeue (h : v.Inv k r) (ht : t ∈ v.tasks) (hstatus : t.status = some .queued)
    (status : TaskStatus) (hno : status ≠ .queued) :
    View.Inv k r { v.setTask t.id (TaskKey.setStatus status) with
      running := v.running - if status = .executing then 0 else 1
      queued := v.queued.erase t.id } := by
  have hjob : t.job ∉ v.launched := by
    apply h.not_launched ht
    simp [TaskKey.successful, hstatus]
  have hparent := h.parent_launched ht (by rw [hstatus]; simp)
  apply h.update ht hjob hparent (TaskKey.setStatus status) (fun _ ↦ rfl) (fun _ ↦ rfl)
  · have hactive : t.active = true := by simp [TaskKey.active, hstatus]
    rw [hactive, if_pos rfl]
    cases status with
    | queued => exact absurd rfl hno
    | executing =>
      show v.running - 0 - k + 1 = v.running - k + 1
      omega
    | terminated =>
      show v.running - 1 - k + 1 = v.running - k + 0
      omega
    | aborted =>
      show v.running - 1 - k + 1 = v.running - k + 0
      omega
  · exact h.retrying
  · exact h.queuedNodup.erase _
  · intro id
    show id ∈ v.queued.erase t.id ↔
      (id ≠ t.id ∧ id ∈ v.queued) ∨ (id = t.id ∧ some status = some .queued)
    rw [h.queuedNodup.mem_erase_iff]
    grind
  · exact h.retrierNodup
  · -- a queued task is not with the retrier
    intro id hin
    have hne : id ≠ t.id := by
      intro heq
      rcases h.retrier id hin with ⟨x, hx, hid, hx', -⟩
      rw [h.task_unique hx ht (hid.trans heq), hstatus] at hx'
      cases hx'
    exact .inl ⟨hne, hin⟩

/-- What `TaskStop` writes to a task. -/
def stopped (retval : Int) (status : TaskStatus) (t : TaskKey) : TaskKey :=
  { t with
    status := some status
    retval := some retval }

/-- The task may be handed to the retrier. -/
def toRetrier (v : View) (id : Nat) (again : Bool) : View :=
  { v with
    retrying := v.retrying + if again then 1 else 0
    retrier := v.retrier ++ if again then [id] else [] }

@[simp] theorem toRetrier_false : v.toRetrier id false = v := by
  unfold toRetrier
  rw [if_neg Bool.false_ne_true, if_neg Bool.false_ne_true, Int.add_zero, List.append_nil]

/-- An executing task ends, before it is taken from the count; when it failed it may be handed to the
retrier. -/
theorem Inv.stop (h : v.Inv k r) (ht : t ∈ v.tasks) (hstatus : t.status = some .executing)
    (retval : Int) (status : TaskStatus) (hend : status = .terminated ∨ status = .aborted)
    (again : Bool) (hagain : again = true → status = .terminated ∧ retval ≠ 0) :
    ((v.setTask t.id (stopped retval status)).toRetrier t.id again).Inv (k + 1) r := by
  have hjob : t.job ∉ v.launched := by
    apply h.not_launched ht
    simp [TaskKey.successful, hstatus]
  have hparent := h.parent_launched ht (by rw [hstatus]; simp)
  -- an executing task is in no queue and waits for no retry
  have hretrier : t.id ∉ v.retrier := by
    intro hin
    rcases h.retrier t.id hin with ⟨x, hx, hid, hx', -⟩
    rw [h.task_unique hx ht hid, hstatus] at hx'
    cases hx'
  have hqueued : t.id ∉ v.queued := by
    intro hin
    rcases (h.queued t.id).mp hin with ⟨x, hx, hid, hx'⟩
    rw [h.task_unique hx ht hid, hstatus] at hx'
    cases hx'
  have hne : status ≠ .queued := by
    rcases hend with heq | heq <;> simp [heq]
  apply h.update ht hjob hparent (stopped retval status) (fun _ ↦ rfl) (fun _ ↦ rfl)
  · -- `running_tasks--`, for a task that was active and is not any more
    have hactive : t.active = true := by simp [TaskKey.active, hstatus]
    have hinactive : (stopped retval status t).active = false := by
      rcases hend with heq | heq <;> simp [stopped, TaskKey.active, heq]
    rw [hactive, hinactive, if_pos rfl, if_neg Bool.false_ne_true]
    show v.running - (k + 1) + 1 = v.running - k + 0
    omega
  · -- `retrying_tasks++` goes with the event that is inserted
    have hretrying := h.retrying
    cases again with
    | false =>
      show v.retrying + 0 = ((v.retrier ++ []).length : Nat) + r
      rw [List.append_nil]
      omega
    | true =>
      show v.retrying + 1 = ((v.retrier ++ [t.id]).length : Nat) + r
      rw [List.length_append, List.length_singleton]
      omega
  · exact h.queuedNodup
  · intro id
    show id ∈ v.queued ↔ (id ≠ t.id ∧ id ∈ v.queued) ∨ (id = t.id ∧ some status = some .queued)
    grind
  · cases again with
    | false =>
      show (v.retrier ++ []).Nodup
      rw [List.append_nil]
      exact h.retrierNodup
    | true => exact nodup_snoc h.retrierNodup hretrier
  · intro id hin
    rcases List.mem_append.mp hin with hin | hin
    · have hne : id ≠ t.id := by
        intro heq
        rw [heq] at hin
        exact hretrier hin
      exact .inl ⟨hne, hin⟩
    · cases again with
      | false => cases hin
      | true =>
        have hterminated := hagain rfl
        apply Or.inr
        refine ⟨List.mem_singleton.mp hin, ?_, ?_⟩
        · show some status = some .terminated
          rw [hterminated.1]
        · show some retval ≠ some 0
          rw [Ne, Option.some.injEq]
          exact hterminated.2

/-- A task that the retrier gives back may be started. -/
theorem Inv.restart (h : v.Inv k r) (hid : id ∈ v.retrier) :
    View.Inv k (r + 1) { v with retrier := v.retrier.erase id } ∧
      ∃ t, t.id = id ∧ View.Startable { v with retrier := v.retrier.erase id } t := by
  rcases h.retrier id hid with ⟨t, ht, htid, hstatus, hretval⟩
  have hlength := List.length_erase_of_mem hid
  have hpos := List.length_pos_of_mem hid
  constructor
  · have hretrying := h.retrying
    exact { h with
      retrying := by
        show v.retrying = ((v.retrier.erase id).length : Nat) + (r + 1)
        omega
      retrierNodup := h.retrierNodup.erase _
      retrier := fun x hx ↦ h.retrier x (List.mem_of_mem_erase hx) }
  · refine ⟨t, htid, ?_⟩
    constructor
    case mem => exact ht
    case active => simp [TaskKey.active, hstatus]
    case job =>
      apply h.not_launched ht
      simp [TaskKey.successful, hretval]
    case parent =>
      apply h.parent_launched ht
      rw [hstatus]
      simp
    case retrier =>
      show t.id ∉ v.retrier.erase id
      rw [htid, h.retrierNodup.mem_erase_iff]
      exact fun hin ↦ hin.1 rfl

theorem Inv.frame_setTask (h : v.Inv k r) (ht : t ∈ v.tasks) (f : TaskKey → TaskKey)
    (hid : ∀ x, (f x).id = x.id) (hjob : ∀ x, (f x).job = x.job) :
    Frame (fun x ↦ x.id = t.id ∧ x.job = t.job) v (v.setTask t.id f) := by
  refine ⟨rfl, rfl, Nat.le_refl _, ?_⟩
  intro x hx
  rw [mem_setTask]
  constructor
  · intro hin
    rcases hin with hin | ⟨y, hy, hyid, heq⟩
    · exact hin.1
    · rw [h.task_unique hy ht hyid] at heq
      rw [heq, hid, hjob] at hx
      exact absurd ⟨rfl, rfl⟩ hx
  · intro hin
    apply Or.inl
    refine ⟨hin, ?_⟩
    intro heq
    rw [h.task_unique hin ht heq] at hx
    exact hx ⟨rfl, rfl⟩

/-! ## New nodes, nodes that go, and jobs that are launched -/

/-- New nodes have new ids and no status, and are not in a job that was launched. -/
theorem Inv.append (h : v.Inv k r) (jobs : List (Nat × Nat)) (tasks : List TaskKey) (nextId : Nat)
    (hnext : v.nextId ≤ nextId) (hjobs : (jobs.map Prod.fst).Nodup)
    (hjobsBound : ∀ j ∈ jobs, v.nextId ≤ j.1 ∧ j.1 < nextId)
    (htasks : (tasks.map TaskKey.id).Nodup)
    (htasksBound : ∀ t ∈ tasks, v.nextId ≤ t.id ∧ t.id < nextId ∧ t.job < nextId ∧ t.job ≠ 0)
    (hnone : ∀ t ∈ tasks, t.status = none ∧ t.job ∉ v.launched) :
    View.Inv k r { v with jobs := v.jobs ++ jobs, tasks := v.tasks ++ tasks, nextId } := by
  -- the new tasks have no status
  have hinactive : tasks.countP TaskKey.active = 0 := by
    rw [List.countP_eq_zero]
    intro t ht
    simp [TaskKey.active, (hnone t ht).1]
  constructor
  case nextId => exact Nat.lt_of_lt_of_le h.nextId hnext
  case jobsNodup =>
    rw [List.map_append, List.nodup_append]
    refine ⟨h.jobsNodup, hjobs, ?_⟩
    intro a ha c hc heq
    rcases List.mem_map.mp ha with ⟨j, hj, hja⟩
    rcases List.mem_map.mp hc with ⟨j', hj', hjc⟩
    have hold := (h.jobsBound j hj).2
    have hnew := (hjobsBound j' hj').1
    omega
  case jobsBound =>
    intro j hj
    rcases List.mem_append.mp hj with hj | hj
    · have hold := h.jobsBound j hj
      exact ⟨hold.1, by show j.1 < nextId; omega⟩
    · have hnew := hjobsBound j hj
      have hpos := h.nextId
      exact ⟨by omega, hnew.2⟩
  case tasksNodup =>
    rw [List.map_append, List.nodup_append]
    refine ⟨h.tasksNodup, htasks, ?_⟩
    intro a ha c hc heq
    rcases List.mem_map.mp ha with ⟨t, ht, hta⟩
    rcases List.mem_map.mp hc with ⟨t', ht', htc⟩
    have hold := (h.tasksBound t ht).1
    have hnew := (htasksBound t' ht').1
    omega
  case tasksBound =>
    intro t ht
    rcases List.mem_append.mp ht with ht | ht
    · have hold := h.tasksBound t ht
      exact ⟨by show t.id < nextId; omega, hold.2.1, by show t.job < nextId; omega⟩
    · have hnew := htasksBound t ht
      exact ⟨hnew.2.1, hnew.2.2.2, hnew.2.2.1⟩
  case running =>
    show v.running = ((v.tasks ++ tasks).countP TaskKey.active : Nat) + k
    rw [List.countP_append, hinactive]
    exact h.running
  case retrying => exact h.retrying
  case queuedNodup => exact h.queuedNodup
  case queued =>
    intro id
    rw [h.queued id]
    constructor
    · intro hin
      rcases hin with ⟨t, ht, hin⟩
      exact ⟨t, List.mem_append_left _ ht, hin⟩
    · intro hin
      rcases hin with ⟨t, ht, hid, hstatus⟩
      rcases List.mem_append.mp ht with ht | ht
      · exact ⟨t, ht, hid, hstatus⟩
      · rw [(hnone t ht).1] at hstatus
        cases hstatus
  case retrierNodup => exact h.retrierNodup
  case retrier =>
    intro id hin
    rcases h.retrier id hin with ⟨t, ht, hin⟩
    exact ⟨t, List.mem_append_left _ ht, hin⟩
  case launchedNodup => exact h.launchedNodup
  case launchedBound =>
    intro id hin
    have hold := h.launchedBound id hin
    show id < nextId
    omega
  case launched =>
    intro id hin hzero
    have hold := h.launched id hin hzero
    constructor
    · rcases hold.1 with ⟨t, ht, hjob⟩
      exact ⟨t, List.mem_append_left _ ht, hjob⟩
    · intro t ht hjob
      rcases List.mem_append.mp ht with ht | ht
      · exact hold.2 t ht hjob
      · rw [← hjob] at hin
        exact absurd hin (hnone t ht).2
  case dormant =>
    intro j hj hout t ht hjob
    rcases List.mem_append.mp ht with ht | ht
    · rcases List.mem_append.mp hj with hj | hj
      · exact h.dormant j hj hout t ht hjob
      · -- the tasks there were have older jobs
        have hold := (h.tasksBound t ht).2.2
        have hnew := (hjobsBound j hj).1
        omega
    · exact (hnone t ht).1
  case ready => exact h.ready

/-- Nodes may go when nothing has happened to their tasks. -/
theorem Inv.filter (h : v.Inv k r) (jobs : List (Nat × Nat)) (p : TaskKey → Bool)
    (hjobs : jobs.Sublist v.jobs) (hnone : ∀ t ∈ v.tasks, p t = true ∨ t.status = none) :
    View.Inv k r { v with jobs, tasks := v.tasks.filter p } := by
  have htasks : (v.tasks.filter p).Sublist v.tasks := List.filter_sublist
  -- only tasks without a status go, and these are in no list and in no count
  have hkept : ∀ t ∈ v.tasks, t.status ≠ none → t ∈ v.tasks.filter p := by
    intro t ht hstatus
    rcases hnone t ht with hin | hno
    · exact List.mem_filter.mpr ⟨ht, hin⟩
    · exact absurd hno hstatus
  constructor
  case nextId => exact h.nextId
  case jobsNodup => exact h.jobsNodup.sublist (hjobs.map _)
  case jobsBound =>
    intro j hj
    exact h.jobsBound j (hjobs.subset hj)
  case tasksNodup => exact h.tasksNodup.sublist (htasks.map _)
  case tasksBound =>
    intro t ht
    exact h.tasksBound t (htasks.subset ht)
  case running =>
    have hcount : (v.tasks.filter p).countP TaskKey.active = v.tasks.countP TaskKey.active := by
      rw [List.countP_filter]
      apply List.countP_congr
      intro t ht
      rcases hnone t ht with hin | hno
      · simp [hin]
      · simp [TaskKey.active, hno]
    show v.running = ((v.tasks.filter p).countP TaskKey.active : Nat) + k
    rw [hcount]
    exact h.running
  case retrying => exact h.retrying
  case queuedNodup => exact h.queuedNodup
  case queued =>
    intro id
    rw [h.queued id]
    constructor
    · intro hin
      rcases hin with ⟨t, ht, hid, hstatus⟩
      exact ⟨t, hkept t ht (by rw [hstatus]; simp), hid, hstatus⟩
    · intro hin
      rcases hin with ⟨t, ht, hin⟩
      exact ⟨t, htasks.subset ht, hin⟩
  case retrierNodup => exact h.retrierNodup
  case retrier =>
    intro id hin
    rcases h.retrier id hin with ⟨t, ht, hid, hstatus, hretval⟩
    exact ⟨t, hkept t ht (by rw [hstatus]; simp), hid, hstatus, hretval⟩
  case launchedNodup => exact h.launchedNodup
  case launchedBound => exact h.launchedBound
  case launched =>
    intro id hin hzero
    have hold := h.launched id hin hzero
    constructor
    · rcases hold.1 with ⟨t, ht, hjob⟩
      have hsuccess := hold.2 t ht hjob
      refine ⟨t, hkept t ht ?_, hjob⟩
      intro hstatus
      simp [TaskKey.successful, hstatus] at hsuccess
    · intro t ht hjob
      exact hold.2 t (htasks.subset ht) hjob
  case dormant =>
    intro j hj hout t ht hjob
    exact h.dormant j (hjobs.subset hj) hout t (htasks.subset ht) hjob
  case ready => exact h.ready

/-- A job may be launched once all its tasks are successful, and so may the document element. -/
theorem Inv.launch (h : v.Inv k r) (hnot : id ∉ v.launched) (hbound : id < v.nextId)
    (hsuccess : id ≠ 0 → (∃ t ∈ v.tasks, t.job = id) ∧
      ∀ t ∈ v.tasks, t.job = id → t.successful = true) :
    View.Inv k r { v with launched := v.launched ++ [id] } := by
  constructor
  case nextId => exact h.nextId
  case jobsNodup => exact h.jobsNodup
  case jobsBound => exact h.jobsBound
  case tasksNodup => exact h.tasksNodup
  case tasksBound => exact h.tasksBound
  case running => exact h.running
  case retrying => exact h.retrying
  case queuedNodup => exact h.queuedNodup
  case queued => exact h.queued
  case retrierNodup => exact h.retrierNodup
  case retrier => exact h.retrier
  case launchedNodup => exact nodup_snoc h.launchedNodup hnot
  case launchedBound =>
    intro a ha
    rcases List.mem_append.mp ha with ha | ha
    · exact h.launchedBound a ha
    · rw [List.mem_singleton.mp ha]
      exact hbound
  case launched =>
    intro a ha hzero
    rcases List.mem_append.mp ha with ha | ha
    · exact h.launched a ha hzero
    · rw [List.mem_singleton.mp ha] at hzero ⊢
      exact hsuccess hzero
  case dormant =>
    intro j hj hout t ht hjob
    apply h.dormant j hj _ t ht hjob
    intro hin
    exact hout (List.mem_append_left _ hin)
  case ready => exact h.ready

end View

end EvQueue
