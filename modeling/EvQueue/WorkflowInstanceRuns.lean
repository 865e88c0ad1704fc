import EvQueue.Base.Runs
import EvQueue.WorkflowInstanceJobs

/-!
# WorkflowInstanceRuns — the counters and the order of the jobs, along every run

A run begins with `Start` and goes on with the calls of the engine, in any order: each call comes with
its own environment, so that expressions, queues, task names and forks may answer differently every
time.
-/

namespace EvQueue

open Runs

variable {Node : Type}

namespace WorkflowInstance

variable {env : Environment Node} {s s' : WorkflowInstance Node} {id : Nat} {task : TaskNode Node}

/-! ## `Start` -/

theorem create_inv {doc : Document Node} (h : doc.WellFormed) : (create doc).view.Inv 0 0 := by
  have hids : (create doc).view.jobs.map Prod.fst = doc.jobs.map JobNode.id := by
    show (doc.jobs.map fun j : JobNode ↦ (j.id, j.parent)).map Prod.fst = _
    rw [List.map_map]
    rfl
  -- without preset statuses nothing is counted, queued or waiting
  have hnone : ∀ t ∈ (create doc).view.tasks, t.status = none := by
    intro t ht
    rcases List.mem_map.mp ht with ⟨t', ht', heq⟩
    rw [← heq]
    exact h.noStatus t' ht'
  constructor
  case nextId => exact h.nextId
  case jobsNodup =>
    rw [hids]
    exact h.jobsNodup
  case jobsBound =>
    intro j hj
    rcases List.mem_map.mp hj with ⟨j', hj', heq⟩
    rw [← heq]
    exact h.jobsBound j' hj'
  case tasksNodup =>
    show ((doc.tasks.map TaskNode.key).map TaskKey.id).Nodup
    rw [List.map_map]
    exact h.tasksNodup
  case tasksBound =>
    intro t ht
    rcases List.mem_map.mp ht with ⟨t', ht', heq⟩
    rcases List.mem_map.mp (h.tasksBound t' ht').2 with ⟨j, hj, hid⟩
    have hbound := h.jobsBound j hj
    rw [hid] at hbound
    rw [← heq]
    exact ⟨(h.tasksBound t' ht').1, hbound⟩
  case running =>
    have hcount : (create doc).view.tasks.countP TaskKey.active = 0 := by
      rw [List.countP_eq_zero]
      intro t ht
      simp [TaskKey.active, hnone t ht]
    rw [hcount]
    rfl
  case retrying => rfl
  case queuedNodup => exact List.nodup_nil
  case queued =>
    intro id
    constructor
    · exact fun hin ↦ absurd hin List.not_mem_nil
    · intro hin
      rcases hin with ⟨t, ht, -, hstatus⟩
      rw [hnone t ht] at hstatus
      cases hstatus
  case retrierNodup => exact List.nodup_nil
  case retrier => exact fun _ hin ↦ absurd hin List.not_mem_nil
  case launchedNodup => exact List.nodup_nil
  case launchedBound => exact fun _ hin ↦ absurd hin List.not_mem_nil
  case launched => exact fun _ hin ↦ absurd hin List.not_mem_nil
  case dormant => exact fun j _ _ t ht _ ↦ hnone t ht
  case ready => rfl

theorem start_inv (env : Environment Node) {doc : Document Node} (h : doc.WellFormed) :
    ((create doc).start env).1.view.Inv 0 0 := by
  apply runSubjobs_inv env (create_inv h)
  · exact List.not_mem_nil
  · exact h.nextId
  · exact fun hne ↦ absurd rfl hne

/-! ## `TaskExecute` and `TaskRestart` -/

/-- The task leaves the queue, and is executed or aborted. -/
theorem taskExecute_inv (env : Environment Node) (h : s.view.Inv 0 0) (hid : id ∈ s.queued) :
    ({ s with queued := s.queued.erase id }.taskExecute env id).1.view.Inv 0 0 := by
  rcases (h.queued id).mp hid with ⟨t, ht, htid, hstatus⟩
  subst htid
  rcases task?_of_mem h ht with ⟨task, hfind, hkey⟩
  have habort (error : String) :
      View.Inv 0 0 { ({ s with queued := s.queued.erase t.id }.abortTask t.id error).view with
        running := s.view.running - 1 } := by
    rw [view_abortTask]
    exact h.dequeue ht hstatus .aborted (by decide)
  unfold taskExecute
  dsimp only
  rw [hfind]
  dsimp only
  by_cases hcancel : s.isCancelling = true
  · rw [if_pos hcancel]
    exact habort _
  · rw [if_neg hcancel]
    cases env.getTask task.name with
    | none => exact habort _
    | some method =>
      dsimp only
      by_cases hfork : env.fork = true
      · rw [if_pos hfork]
        show View.Inv 0 0 (setTask { s with queued := s.queued.erase t.id } t.id _).view
        rw [view_setTask (g := TaskKey.setStatus .executing) fun _ ↦ rfl]
        have hkeep := h.dequeue ht hstatus .executing (by decide)
        rw [if_pos rfl, Int.sub_zero] at hkeep
        exact hkeep
      · rw [if_neg hfork]
        exact habort _

/-- The task comes back from the retrier, and is queued or aborted. -/
theorem taskRestart_inv (env : Environment Node) (h : s.view.Inv 0 0) (hid : id ∈ s.retrier) :
    ({ s with retrier := s.retrier.erase id }.taskRestart env id).1.view.Inv 0 0 := by
  have hrestart := View.Inv.restart h hid
  rcases hrestart.2 with ⟨t, htid, ht⟩
  subst htid
  have hkeep := enqueueTask_keeps (s := { s with retrier := s.retrier.erase t.id }) env hrestart.1 ht
  exact View.Inv.retrying_sub hkeep.1

/-! ## `TaskStop` -/

/-- The task is handed to the retrier, or nothing that the view shows is done. -/
theorem view_retryTask (env : Environment Node) (s : WorkflowInstance Node) (id : Nat) :
    ∃ again, (s.retryTask env id).view = s.view.toRetrier id again := by
  have hsame {s' : WorkflowInstance Node} (hview : s'.view = s.view) :
      ∃ again, s'.view = s.view.toRetrier id again := by
    refine ⟨false, ?_⟩
    rw [hview, View.toRetrier_false]
  unfold retryTask
  cases s.doc.task? id with
  | none => exact hsame rfl
  | some task =>
    dsimp only
    cases hparameters : s.retryParameters env task with
    | none => exact hsame rfl
    | some found =>
      rcases found with ⟨s', retry⟩
      have hview := view_nextLevel (s := s') task retry
      rw [view_retryParameters hparameters] at hview
      dsimp only
      rcases hlevel : s'.nextLevel task retry with ⟨t, retryDelay, retryTimes⟩
      rw [hlevel] at hview
      dsimp only at hview ⊢
      by_cases hend : retryDelay = 0 ∨ retryTimes = 0
      · rw [if_pos hend]
        exact hsame hview
      · rw [if_neg hend]
        by_cases hretval : task.retryRetval.isSome = true ∧ task.retryRetval ≠ task.retval
        · rw [if_pos hretval]
          exact hsame hview
        · -- one more try
          rw [if_neg hretval, ← hview]
          refine ⟨true, ?_⟩
          show (t.setTask id _).view.toRetrier id true = _
          rw [view_setTask_same]
          exact fun _ ↦ rfl

/-- What `TaskStop` does to the task: it is terminated or aborted, and may be retried when it failed. -/
theorem view_recordStop (env : Environment Node) (s : WorkflowInstance Node) (task : TaskNode Node)
    (retval : Int) (output : String) :
    ∃ status again, (status = .terminated ∨ status = .aborted) ∧
      (again = true → status = .terminated ∧ retval ≠ 0) ∧
      (s.recordStop env task retval output).view =
        (s.view.setTask task.id (View.stopped retval status)).toRetrier task.id again := by
  have hstop : (s.setTask task.id fun t ↦
      { t with
        status := some .terminated
        retval := some retval }).view =
      s.view.setTask task.id (View.stopped retval .terminated) :=
    view_setTask fun _ ↦ rfl
  unfold recordStop
  dsimp only
  generalize (s.setTask task.id fun t ↦
    { t with
      status := some .terminated
      retval := some retval }) = s' at hstop
  have houtput (method : OutputMethod) : (s'.setTask task.id fun t ↦
      { t with outputs := t.outputs ++ [⟨retval, method, output⟩] }).view = s'.view :=
    view_setTask_same fun _ ↦ rfl
  -- the task was terminated before it is aborted, and only the second status is left
  have haborted (error : String) : ∃ status again, (status = .terminated ∨ status = .aborted) ∧
      (again = true → status = .terminated ∧ retval ≠ 0) ∧ (s'.abortTask task.id error).view =
        (s.view.setTask task.id (View.stopped retval status)).toRetrier task.id again := by
    refine ⟨.aborted, false, .inr rfl, nofun, ?_⟩
    rw [view_abortTask, hstop, View.toRetrier_false]
    apply View.setTask_setTask
    exact fun _ ↦ rfl
  by_cases hzero : retval = 0
  · rw [if_pos hzero]
    cases env.getTask task.name with
    | none => exact haborted _
    | some method =>
      cases method with
      | xml =>
        dsimp only
        by_cases hxml : env.isXml output = true
        · rw [if_pos hxml]
          refine ⟨.terminated, false, .inl rfl, nofun, ?_⟩
          rw [houtput, hstop, View.toRetrier_false]
        · rw [if_neg hxml]
          exact haborted _
      | text =>
        refine ⟨.terminated, false, .inl rfl, nofun, ?_⟩
        dsimp only
        rw [houtput, hstop, View.toRetrier_false]
  · rw [if_neg hzero]
    split
    · -- nothing is retried any more
      refine ⟨.terminated, false, .inl rfl, nofun, ?_⟩
      rw [view_setTask_same, houtput, hstop, View.toRetrier_false]
      exact fun _ ↦ rfl
    · rcases view_retryTask env (s'.setTask task.id fun t ↦
        { t with outputs := t.outputs ++ [⟨retval, .text, output⟩] }) task.id with ⟨again, hagain⟩
      refine ⟨.terminated, again, .inl rfl, fun _ ↦ ⟨rfl, hzero⟩, ?_⟩
      rw [hagain, houtput, hstop]

/-- The task that stopped is still counted. -/
theorem recordStop_inv (env : Environment Node) (h : s.view.Inv 0 0)
    (hfind : s.doc.task? id = some task) (hstatus : task.status = some .executing) (retval : Int)
    (output : String) : (s.recordStop env task retval output).view.Inv 1 0 := by
  rcases view_recordStop env s task retval output with ⟨status, again, hend, hagain, hview⟩
  rw [hview]
  exact h.stop (key_mem hfind) hstatus retval status hend again hagain

/-- The last task of a job that was successful: its subjobs were not launched before. -/
theorem recordStop_last (env : Environment Node) (h : s.view.Inv 0 0)
    (hfind : s.doc.task? id = some task) (hstatus : task.status = some .executing) (retval : Int)
    (output : String) {s' : WorkflowInstance Node} (hs' : s.recordStop env task retval output = s')
    (hall : (s'.doc.tasksOf task.job).length =
      (s'.doc.tasksOf task.job).countP TaskNode.successful) :
    task.job ∉ s'.view.launched ∧ task.job < s'.view.nextId ∧
      (∃ t ∈ s'.view.tasks, t.job = task.job) ∧
      ∀ t ∈ s'.view.tasks, t.job = task.job → t.successful = true := by
  have hkey := key_mem hfind
  rcases view_recordStop env s task retval output with ⟨status, again, -, -, hview⟩
  rw [hs'] at hview
  have hall := List.countP_eq_length.mp hall.symm
  refine ⟨?_, ?_, ?_, ?_⟩
  · rw [hview]
    show task.job ∉ s.view.launched
    apply h.not_launched hkey
    simp [TaskKey.successful, TaskNode.key, hstatus]
  · rw [hview]
    exact (h.tasksBound task.key hkey).2.2
  · refine ⟨View.stopped retval status task.key, ?_, rfl⟩
    rw [hview]
    exact View.mem_setTask.mpr (.inr ⟨task.key, hkey, rfl, rfl⟩)
  · intro t ht hjob
    rcases List.mem_map.mp ht with ⟨t', ht', heq⟩
    rw [← heq] at hjob ⊢
    exact hall t' (List.mem_filter.mpr ⟨ht', decide_eq_true hjob⟩)

/-- `TaskStop` of an executing task, with the jobs it launches. -/
theorem taskStop_inv (env : Environment Node) (h : s.view.Inv 0 0) (hfind : s.doc.task? id = some task)
    (hstatus : task.status = some .executing) (retval : Int) (output : String) :
    (s.taskStop env id retval output).1.view.Inv 0 0 := by
  have hinv := recordStop_inv env h hfind hstatus retval output
  have hlast {s' : WorkflowInstance Node} (hs' : s.recordStop env task retval output = s') :=
    recordStop_last env h hfind hstatus retval output hs'
  unfold taskStop
  rw [hfind]
  dsimp only
  generalize heq : s.recordStop env task retval output = s' at hinv
  by_cases hall : (s'.doc.tasksOf task.job).length =
      (s'.doc.tasksOf task.job).countP TaskNode.successful
  · -- the last task of its job
    rw [if_pos hall]
    have hready := hlast heq hall
    have hkeep := runSubjobs_inv env hinv hready.1 hready.2.1 fun _ ↦ hready.2.2
    exact View.Inv.running_sub (k := 0) hkeep
  · rw [if_neg hall]
    exact View.Inv.running_sub (k := 0) hinv

end WorkflowInstance

/-! ## Runs -/

/-- An instance, and how often it was deleted: once for every call that reported its end. -/
structure Lifetime (Node : Type) where
  workflow : WorkflowInstance Node
  deleted : Nat

/-- A call of the engine. -/
inductive Operation (Node : Type) where
  | taskExecute (env : Environment Node) (id : Nat)
  | taskStop (env : Environment Node) (id : Nat) (retval : Int) (output : String)
  | taskRestart (env : Environment Node) (id : Nat)
  | cancel

namespace Lifetime

def after (l : Lifetime Node) (result : WorkflowInstance Node × Bool) : Lifetime Node :=
  { workflow := result.1
    deleted := l.deleted + if result.2 then 1 else 0 }

def start (env : Environment Node) (doc : Document Node) : Lifetime Node :=
  after ⟨.create doc, 0⟩ ((WorkflowInstance.create doc).start env)

/-- The engine executes what it took from the queues, stops what was executing, and restarts what the
retrier gave back. -/
def offers (s : WorkflowInstance Node) : Operation Node → Bool
  | .taskExecute _ id => id ∈ s.queued
  | .taskStop _ id _ _ => (s.doc.task? id).any fun task ↦ task.status = some .executing
  | .taskRestart _ id => id ∈ s.retrier
  | .cancel => true

/-- A call of an instance that was deleted is a use after free: it is none of the steps. -/
def step (l : Lifetime Node) : Operation Node → Option (Lifetime Node)
  | .taskExecute env id =>
      if l.deleted = 0 ∧ id ∈ l.workflow.queued then
        some (l.after
          ({ l.workflow with queued := l.workflow.queued.erase id }.taskExecute env id))
      else none
  | .taskStop env id retval output =>
      match l.workflow.doc.task? id with
      | none => none
      | some task =>
          if l.deleted = 0 ∧ task.status = some .executing then
            some (l.after (l.workflow.taskStop env id retval output))
          else none
  | .taskRestart env id =>
      if l.deleted = 0 ∧ id ∈ l.workflow.retrier then
        some (l.after
          ({ l.workflow with retrier := l.workflow.retrier.erase id }.taskRestart env id))
      else none
  | .cancel => if l.deleted = 0 then some { l with workflow := l.workflow.cancel } else none

/-- The instance was deleted when its last call reported the end. -/
structure Sound (l : Lifetime Node) : Prop where
  inv : l.workflow.view.Inv 0 0
  deleted : l.deleted = if l.workflow.workflowEnded then 1 else 0

variable {l l' : Lifetime Node}

theorem countP_active (s : WorkflowInstance Node) :
    s.view.tasks.countP TaskKey.active = s.doc.tasks.countP TaskNode.active := by
  show (s.doc.tasks.map TaskNode.key).countP TaskKey.active = _
  rw [List.countP_map]
  rfl

theorem runningTasks_eq {s : WorkflowInstance Node} (h : s.view.Inv 0 0) :
    s.runningTasks = .ofInt (s.doc.tasks.countP TaskNode.active : Nat) := by
  have hrunning : s.runningTally = _ := h.running
  rw [countP_active, Int.add_zero] at hrunning
  unfold WorkflowInstance.runningTasks
  rw [hrunning]

theorem retryingTasks_eq {s : WorkflowInstance Node} (h : s.view.Inv 0 0) :
    s.retryingTasks = .ofInt (s.retrier.length : Nat) := by
  have hretrying : s.retryingTally = _ := h.retrying
  rw [Int.add_zero] at hretrying
  unfold WorkflowInstance.retryingTasks
  rw [hretrying]
  rfl

/-- An instance in which nothing is left to be done has ended. -/
theorem ended_of_nothing {s : WorkflowInstance Node} (h : s.view.Inv 0 0)
    (hactive : ∀ t ∈ s.doc.tasks, t.active = false) (hretrier : s.retrier = []) :
    s.workflowEnded = true := by
  have hnone : s.doc.tasks.countP TaskNode.active = 0 := by
    rw [List.countP_eq_zero]
    intro t ht
    rw [hactive t ht]
    exact Bool.false_ne_true
  unfold WorkflowInstance.workflowEnded
  rw [runningTasks_eq h, retryingTasks_eq h, hnone, hretrier]
  rfl

/-- `unsigned int`s can count the tasks and the events. -/
def Countable (s : WorkflowInstance Node) : Prop :=
  s.doc.tasks.countP TaskNode.active < 2 ^ 32 ∧ s.retrier.length < 2 ^ 32

instance (s : WorkflowInstance Node) : Decidable (Countable s) := inferInstanceAs (Decidable (_ ∧ _))

/-- As long as they can be counted, nothing is left to be done when the counters are zero. -/
theorem nothing_of_ended {s : WorkflowInstance Node} (h : s.view.Inv 0 0) (hcount : Countable s)
    (hended : s.workflowEnded = true) :
    (∀ t ∈ s.doc.tasks, t.active = false) ∧ s.retrier = [] := by
  have hzero := of_decide_eq_true hended
  rw [runningTasks_eq h, retryingTasks_eq h, WorkflowInstance.ofInt_eq_zero_iff hcount.1,
    WorkflowInstance.ofInt_eq_zero_iff hcount.2] at hzero
  refine ⟨?_, List.length_eq_zero_iff.mp hzero.2⟩
  intro t ht
  have hnot := List.countP_eq_zero.mp hzero.1 t ht
  rwa [Bool.not_eq_true] at hnot

theorem after_sound (hdeleted : l.deleted = 0) {result : WorkflowInstance Node × Bool}
    (hinv : result.1.view.Inv 0 0) (hresult : result.2 = result.1.workflowEnded) :
    (l.after result).Sound := by
  constructor
  case inv => exact hinv
  case deleted =>
    unfold after
    rw [hdeleted, hresult, Nat.zero_add]

theorem taskExecute_result (env : Environment Node) (s : WorkflowInstance Node) (id : Nat) :
    (s.taskExecute env id).2 = (s.taskExecute env id).1.workflowEnded := by
  unfold WorkflowInstance.taskExecute
  cases s.doc.task? id <;> rfl

theorem taskStop_result (env : Environment Node) (s : WorkflowInstance Node) (id : Nat) (retval : Int)
    (output : String) :
    (s.taskStop env id retval output).2 = (s.taskStop env id retval output).1.workflowEnded := by
  unfold WorkflowInstance.taskStop
  cases s.doc.task? id <;> rfl

theorem start_sound (env : Environment Node) {doc : Document Node} (h : doc.WellFormed) :
    (start env doc).Sound :=
  after_sound rfl (WorkflowInstance.start_inv env h) rfl

/-! ### What a call needs, and what it does -/

theorem step_taskExecute {env : Environment Node} {id : Nat}
    (hstep : l.step (.taskExecute env id) = some l') : id ∈ l.workflow.queued ∧ l' = l.after
      ({ l.workflow with queued := l.workflow.queued.erase id }.taskExecute env id) := by
  unfold step at hstep
  dsimp only at hstep
  by_cases hid : l.deleted = 0 ∧ id ∈ l.workflow.queued
  · rw [if_pos hid, Option.some.injEq] at hstep
    exact ⟨hid.2, hstep.symm⟩
  · rw [if_neg hid] at hstep
    cases hstep

theorem step_taskStop {env : Environment Node} {id : Nat} {retval : Int} {output : String}
    (hstep : l.step (.taskStop env id retval output) = some l') :
    ∃ task, l.workflow.doc.task? id = some task ∧ task.status = some .executing ∧
      l' = l.after (l.workflow.taskStop env id retval output) := by
  unfold step at hstep
  cases hfind : l.workflow.doc.task? id with
  | none => simp [hfind] at hstep
  | some task =>
    simp only [hfind] at hstep
    by_cases hstatus : l.deleted = 0 ∧ task.status = some .executing
    · rw [if_pos hstatus, Option.some.injEq] at hstep
      exact ⟨task, rfl, hstatus.2, hstep.symm⟩
    · rw [if_neg hstatus] at hstep
      cases hstep

theorem step_taskRestart {env : Environment Node} {id : Nat}
    (hstep : l.step (.taskRestart env id) = some l') : id ∈ l.workflow.retrier ∧ l' = l.after
      ({ l.workflow with retrier := l.workflow.retrier.erase id }.taskRestart env id) := by
  unfold step at hstep
  dsimp only at hstep
  by_cases hid : l.deleted = 0 ∧ id ∈ l.workflow.retrier
  · rw [if_pos hid, Option.some.injEq] at hstep
    exact ⟨hid.2, hstep.symm⟩
  · rw [if_neg hid] at hstep
    cases hstep

theorem step_cancel (hstep : l.step .cancel = some l') :
    l.deleted = 0 ∧ l' = { l with workflow := l.workflow.cancel } := by
  unfold step at hstep
  dsimp only at hstep
  by_cases hdeleted : l.deleted = 0
  · rw [if_pos hdeleted, Option.some.injEq] at hstep
    exact ⟨hdeleted, hstep.symm⟩
  · rw [if_neg hdeleted] at hstep
    cases hstep

theorem step_cases {operation : Operation Node} (hstep : l.step operation = some l') :
    (∃ env id, id ∈ l.workflow.queued ∧ l' = l.after
      ({ l.workflow with queued := l.workflow.queued.erase id }.taskExecute env id)) ∨
    (∃ env id task retval output, l.workflow.doc.task? id = some task ∧
      task.status = some .executing ∧ l' = l.after (l.workflow.taskStop env id retval output)) ∨
    (∃ env id, id ∈ l.workflow.retrier ∧ l' = l.after
      ({ l.workflow with retrier := l.workflow.retrier.erase id }.taskRestart env id)) ∨
    (l.deleted = 0 ∧ l' = { l with workflow := l.workflow.cancel }) := by
  cases operation with
  | taskExecute env id => exact .inl ⟨env, id, step_taskExecute hstep⟩
  | taskStop env id retval output =>
    rcases step_taskStop hstep with ⟨task, hfind, hstatus, heq⟩
    exact .inr (.inl ⟨env, id, task, retval, output, hfind, hstatus, heq⟩)
  | taskRestart env id => exact .inr (.inr (.inl ⟨env, id, step_taskRestart hstep⟩))
  | cancel => exact .inr (.inr (.inr (step_cancel hstep)))

/-- A call is made when there is cause for it, as long as the instance is there. -/
theorem isSome_step_iff (l : Lifetime Node) (operation : Operation Node) :
    (l.step operation).isSome ↔ l.deleted = 0 ∧ offers l.workflow operation = true := by
  cases operation with
  | taskExecute env id => simp [step, offers]
  | taskStop env id retval output =>
    cases hfind : l.workflow.doc.task? id with
    | none => simp [step, offers, hfind]
    | some task => simp [step, offers, hfind]
  | taskRestart env id => simp [step, offers]
  | cancel => simp [step, offers]

theorem deleted_of_step {operation : Operation Node} (hstep : l.step operation = some l') :
    l.deleted = 0 :=
  ((isSome_step_iff l operation).mp (by rw [hstep]; rfl)).1

theorem step_sound {operation : Operation Node} (h : l.Sound)
    (hstep : l.step operation = some l') : l'.Sound := by
  have hdeleted := deleted_of_step hstep
  rcases step_cases hstep with ⟨env, id, hid, heq⟩ |
    ⟨env, id, task, retval, output, hfind, hstatus, heq⟩ | ⟨env, id, hid, heq⟩ | ⟨-, heq⟩
  · rw [heq]
    exact after_sound hdeleted (WorkflowInstance.taskExecute_inv env h.inv hid)
      (taskExecute_result env _ id)
  · rw [heq]
    exact after_sound hdeleted (WorkflowInstance.taskStop_inv env h.inv hfind hstatus retval output)
      (taskStop_result env _ id retval output)
  · rw [heq]
    exact after_sound hdeleted (WorkflowInstance.taskRestart_inv env h.inv hid) rfl
  · -- only `is_cancelling` changes
    rw [heq]
    exact ⟨h.inv, h.deleted⟩

theorem run_sound {env : Environment Node} {doc : Document Node} (hdoc : doc.WellFormed)
    {operations : List (Operation Node)} (hrun : run step (start env doc) operations = some l) :
    l.Sound := by
  have hmeets : Meets step (fun _ _ ↦ True) (start env doc) operations :=
    Meets.of_forall fun _ _ ↦ trivial
  exact run_invariant (fun _ _ _ h _ hstep ↦ step_sound h hstep) (start_sound env hdoc) hmeets hrun

/-! ## The last call -/

/-- Before the last call there is cause for another one, and not only for `Cancel`. -/
theorem Sound.exists_offer (h : l.Sound) (hdeleted : l.deleted = 0) (env : Environment Node) :
    ∃ operation, operation ≠ .cancel ∧ offers l.workflow operation = true := by
  by_cases hretrier : l.workflow.retrier = []
  · have hended : ¬l.workflow.workflowEnded = true := by
      intro hended
      have hone := h.deleted
      rw [if_pos hended, hdeleted] at hone
      cases hone
    have hactive : ∃ t ∈ l.workflow.view.tasks, t.active = true := by
      by_contra hno
      apply hended
      apply ended_of_nothing h.inv _ hretrier
      intro t ht
      by_contra hne
      rw [Bool.not_eq_false] at hne
      exact hno ⟨t.key, List.mem_map_of_mem ht, hne⟩
    rcases hactive with ⟨t, ht, hactive⟩
    rcases of_decide_eq_true hactive with hstatus | hstatus
    · have hid : t.id ∈ l.workflow.queued := (h.inv.queued t.id).mpr ⟨t, ht, rfl, hstatus⟩
      exact ⟨.taskExecute env t.id, nofun, decide_eq_true hid⟩
    · rcases WorkflowInstance.task?_of_mem h.inv ht with ⟨task, hfind, hkey⟩
      have hstatus : task.status = some .executing := by
        rw [← hkey] at hstatus
        exact hstatus
      refine ⟨.taskStop env t.id 0 "", nofun, ?_⟩
      simp [offers, hfind, hstatus]
  · rcases List.exists_mem_of_ne_nil _ hretrier with ⟨id, hid⟩
    exact ⟨.taskRestart env id, nofun, decide_eq_true hid⟩

theorem queued_eq_nil (h : l.workflow.view.Inv 0 0)
    (hactive : ∀ t ∈ l.workflow.doc.tasks, t.active = false) : l.workflow.queued = [] := by
  apply List.eq_nil_iff_forall_not_mem.mpr
  intro id hid
  rcases (h.queued id).mp hid with ⟨key, hkey, -, hstatus⟩
  rcases List.mem_map.mp hkey with ⟨t, ht, heq⟩
  have hnot := hactive t ht
  rw [← heq] at hstatus
  have hstatus : t.status = some .queued := hstatus
  simp [TaskNode.active, hstatus] at hnot

/-- Where nothing is active and no event is pending, there is cause for no call but `Cancel`. -/
theorem offers_eq_false (h : l.workflow.view.Inv 0 0)
    (hactive : ∀ t ∈ l.workflow.doc.tasks, t.active = false) (hretrier : l.workflow.retrier = [])
    {operation : Operation Node} (hnot : operation ≠ .cancel) :
    offers l.workflow operation = false := by
  cases operation with
  | taskExecute env id => simp [offers, queued_eq_nil h hactive]
  | taskStop env id retval output =>
    cases hfind : l.workflow.doc.task? id with
    | none => simp [offers, hfind]
    | some task =>
      have hno := hactive task (WorkflowInstance.task?_spec hfind).1
      have hstatus : task.status ≠ some .executing := by
        intro hstatus
        simp [TaskNode.active, hstatus] at hno
      simp [offers, hfind, hstatus]
  | taskRestart env id => simp [offers, hretrier]
  | cancel => exact absurd rfl hnot

/-- In every state of a run the counters are the numbers of the tasks and of the events of the retrier, as
far as `unsigned int`s can count them.  The instance is deleted once, by the last call, when nothing is
left that another call could be made for. -/
theorem counters_of_run (env : Environment Node) (doc : Document Node)
    (operations : List (Operation Node)) (l : Lifetime Node) (hdoc : doc.WellFormed)
    (hrun : run step (start env doc) operations = some l) (hcount : Countable l.workflow) :
    l.workflow.runningTasks.toNat = l.workflow.doc.tasks.countP TaskNode.active ∧
      l.workflow.retryingTasks.toNat = l.workflow.retrier.length ∧
      ((l.deleted = 0 ∧ ∃ operation, operation ≠ .cancel ∧ (l.step operation).isSome) ∨
        (l.deleted = 1 ∧ (∀ t ∈ l.workflow.doc.tasks, t.active = false) ∧ l.workflow.queued = [] ∧
          l.workflow.retrier = [] ∧
          ∀ operation, operation ≠ .cancel → offers l.workflow operation = false)) := by
  have h := run_sound hdoc hrun
  have hrunning : l.workflow.runningTasks.toNat = l.workflow.doc.tasks.countP TaskNode.active := by
    rw [runningTasks_eq h.inv, WorkflowInstance.toNat_ofInt, Nat.mod_eq_of_lt hcount.1]
  have hretrying : l.workflow.retryingTasks.toNat = l.workflow.retrier.length := by
    rw [retryingTasks_eq h.inv, WorkflowInstance.toNat_ofInt, Nat.mod_eq_of_lt hcount.2]
  refine ⟨hrunning, hretrying, ?_⟩
  have hdeleted := h.deleted
  by_cases hended : l.workflow.workflowEnded = true
  · rw [if_pos hended] at hdeleted
    have hnothing := nothing_of_ended h.inv hcount hended
    exact .inr ⟨hdeleted, hnothing.1, queued_eq_nil h.inv hnothing.1, hnothing.2,
      fun _ ↦ offers_eq_false h.inv hnothing.1 hnothing.2⟩
  · rw [if_neg hended] at hdeleted
    rcases h.exists_offer hdeleted env with ⟨operation, hnot, hoffers⟩
    exact .inl ⟨hdeleted, operation, hnot, (isSome_step_iff l operation).mpr ⟨hdeleted, hoffers⟩⟩

/-- A job with a task that is retried, and a subjob with a looped task. -/
def retriedThenLooped : Document Unit where
  jobs :=
    [{ id := 1, parent := 0, condition := none, loop := none, status := none, details := none },
      { id := 3, parent := 1, condition := none, loop := none, status := none, details := none }]
  tasks :=
    [{ id := 2, job := 1, name := "fetch", queue := "default", loop := none, status := none,
       retval := none, error := none, details := none, retrySchedule := none,
       retryScheduleLevel := none, retryDelay := some 60, retryTimes := some 1, retryRetval := none,
       content := [], outputs := [] },
      { id := 4, job := 3, name := "store", queue := "default", loop := some "item", status := none,
        retval := none, error := none, details := none, retrySchedule := none,
        retryScheduleLevel := none, retryDelay := none, retryTimes := none, retryRetval := none,
        content := [], outputs := [] }]
  schedules := fun _ ↦ none
  nextId := 5

/-- One task without retries. -/
def oneTask : Document Unit where
  jobs := [{ id := 1, parent := 0, condition := none, loop := none, status := none, details := none }]
  tasks :=
    [{ id := 2, job := 1, name := "fetch", queue := "default", loop := none, status := none,
       retval := none, error := none, details := none, retrySchedule := none,
       retryScheduleLevel := none, retryDelay := none, retryTimes := none, retryRetval := none,
       content := [], outputs := [] }]
  schedules := fun _ ↦ none
  nextId := 3

theorem oneTask_wellFormed : oneTask.WellFormed where
  nextId := by decide
  jobsNodup := by decide
  jobsBound := by decide
  parents := by decide
  parentsFirst := by decide
  tasksNodup := by decide
  tasksBound := by decide
  noStatus := by decide

/-- Loops match two nodes, queues and tasks are known, and forks succeed. -/
def twoNodes : Environment Unit where
  evaluate := fun _ _ _ ↦ some [(), ()]
  evaluateFirst := fun _ _ _ ↦ none
  evaluateTest := fun _ _ _ ↦ .value 1
  enqueueTask := fun _ ↦ true
  getTask := fun _ ↦ some .text
  isXml := fun _ ↦ true
  fork := true
  uninitialised := (0, 0)

/-- The first try fails, and all others succeed. -/
def failsOnce : List (Operation Unit) :=
  [.taskExecute twoNodes 2, .taskStop twoNodes 2 1 "", .taskRestart twoNodes 2,
    .taskExecute twoNodes 2, .taskStop twoNodes 2 0 "", .taskExecute twoNodes 6,
    .taskExecute twoNodes 5, .taskStop twoNodes 5 0 "", .taskStop twoNodes 6 0 ""]

theorem retriedThenLooped_wellFormed : retriedThenLooped.WellFormed where
  nextId := by decide
  jobsNodup := by decide
  jobsBound := by decide
  parents := by decide
  parentsFirst := by decide
  tasksNodup := by decide
  tasksBound := by decide
  noStatus := by decide

theorem counters_of_failsOnce : ∃ l, run step (start twoNodes retriedThenLooped) failsOnce = some l ∧
    l.deleted = 1 ∧ l.workflow.runningTasks.toNat = l.workflow.doc.tasks.countP TaskNode.active :=
  ⟨_, rfl, rfl, (counters_of_run twoNodes retriedThenLooped failsOnce _
    retriedThenLooped_wellFormed rfl (by decide)).1⟩

/-! ### More tasks than a counter can count -/

section Wrapped

open WorkflowInstance

variable {s s' : WorkflowInstance Unit} {jobs : List JobNode} {n : Nat}

/-- Jobs and tasks without conditions, loops and values, of which none has ended. -/
structure Plain (jobs : List JobNode) (n : Nat) (s : WorkflowInstance Unit) : Prop where
  sameJobs : s.doc.jobs = jobs
  length : s.doc.tasks.length = n
  notCancelling : s.isCancelling = false
  plainJobs : ∀ j ∈ jobs, j.condition = none ∧ j.loop = none
  plainTasks : ∀ t ∈ s.doc.tasks, t.job ∈ jobs.map JobNode.id ∧ t.status ≠ some .terminated ∧
    t.loop = none ∧ t.content = []

theorem Plain.startTask (h : Plain jobs n s) (task : TaskNode Unit)
    (hfind : s.doc.task? task.id = some task) :
    Plain jobs n (s.startTask twoNodes task) ∧ (s.startTask twoNodes task).doc =
      s.doc.setTask task.id fun t ↦ { t with status := some .queued } := by
  have hstart : s.startTask twoNodes task =
      { (s.log (.enqueued task.id (s.doc.parentSuccessful task.job))).setTask task.id fun t ↦
          { t with status := some .queued } with
        queued := s.queued ++ [task.id]
        runningTally := s.runningTally + 1 } := by
    unfold WorkflowInstance.startTask enqueueTask
    rw [show (s.log _).doc.task? task.id = some task from hfind]
    dsimp only
    rw [if_neg (by rw [show (s.log _).isCancelling = false from h.notCancelling]; decide)]
    rfl
  rw [hstart]
  refine ⟨⟨h.sameJobs, ?_, h.notCancelling, h.plainJobs, ?_⟩, rfl⟩
  · exact (List.length_map _).trans h.length
  · intro t ht
    rcases List.mem_map.mp ht with ⟨t', ht', heq⟩
    have hplain := h.plainTasks t' ht'
    rw [← heq]
    by_cases hid : t'.id = task.id
    · rw [if_pos hid]
      exact ⟨hplain.1, nofun, hplain.2.2⟩
    · rw [if_neg hid]
      exact hplain

/-- `run` queues the tasks of its job one after the other. -/
theorem queues_run (context : Context Unit) (rest : List Nat) :
    SnapshotLoop.Keeps (taskLoop twoNodes context)
      (fun xs s ↦ Plain jobs n s ∧
        ∀ t ∈ s.doc.tasks, t.active = true ∨ t.id ∈ xs ∨ t.job ∈ rest)
      (fun _ _ _ ↦ False) (fun _ ↦ False) := by
  -- a plain task has no loop and nothing to replace: the visit starts it
  have hvisit (x : Nat) (s : WorkflowInstance Unit) (h : Plain jobs n s) :
      visitTask twoNodes context x s = .done s ∧ s.doc.task? x = none ∨
      ∃ task, s.doc.task? x = some task ∧
        visitTask twoNodes context x s = .done (s.startTask twoNodes task) := by
    unfold visitTask
    cases hfind : s.doc.task? x with
    | none => exact .inl ⟨rfl, rfl⟩
    | some task =>
      have hplain := h.plainTasks task (task?_spec hfind).1
      have hsame : replaceValue twoNodes x context s = (s, none) := by
        unfold replaceValue
        simp only [hfind, hplain.2.2.2, replaceValues, replaceCopies]
      refine .inr ⟨task, rfl, ?_⟩
      dsimp only
      rw [if_neg hplain.2.1, hplain.2.2.1, hsame]
  constructor
  case done =>
    rintro x xs s s' ⟨h, hleft⟩ hdone
    rcases hvisit x s h with ⟨hsame, hnone⟩ | ⟨task, hfind, hstart⟩
    · have hsame := hsame.symm.trans hdone
      rw [SnapshotLoop.Turn.done.injEq] at hsame
      rw [← hsame]
      refine ⟨h, fun t ht ↦ (hleft t ht).imp_right fun hin ↦ hin.imp_left fun hmem ↦ ?_⟩
      rcases List.mem_cons.mp hmem with heq | hmem
      · have hno := List.find?_eq_none.mp hnone t ht
        exact absurd (decide_eq_true heq) hno
      · exact hmem
    · have hid : task.id = x := (task?_spec hfind).2
      have hsame := hstart.symm.trans hdone
      rw [SnapshotLoop.Turn.done.injEq] at hsame
      rw [← hid] at hfind
      have hnext := h.startTask task hfind
      rw [← hsame]
      refine ⟨hnext.1, ?_⟩
      rw [hnext.2]
      intro t ht
      rcases List.mem_map.mp ht with ⟨t', ht', heq⟩
      rw [← heq]
      by_cases hsame : t'.id = task.id
      · rw [if_pos hsame]
        exact .inl rfl
      · rw [if_neg hsame]
        refine (hleft t' ht').imp_right fun hin ↦ hin.imp_left fun hmem ↦ ?_
        exact (List.mem_cons.mp hmem).resolve_left fun heq ↦ hsame (heq.trans hid.symm)
  -- so no visit fails and none matches
  case failed =>
    rintro x xs s s' e ⟨h, -⟩ hfailed
    rcases hvisit x s h with ⟨hsame, -⟩ | ⟨task, -, hstart⟩
    · cases hsame.symm.trans hfailed
    · cases hstart.symm.trans hfailed
  case matched =>
    rintro x xs s s' nodes ⟨h, -⟩ hmatched
    rcases hvisit x s h with ⟨hsame, -⟩ | ⟨task, -, hstart⟩
    · cases hsame.symm.trans hmatched
    · cases hstart.symm.trans hmatched
  case expand => exact fun _ _ _ _ _ h _ ↦ h
  case expandFailed => exact fun _ _ _ _ _ _ h _ ↦ h
  case finish => exact fun _ _ _ h ↦ h.elim

/-- `run_subjobs` launches the jobs one after the other. -/
theorem queues_runSubjobs :
    SnapshotLoop.Keeps (subjobLoop twoNodes 0)
      (fun xs s ↦ Plain jobs n s ∧ ∀ t ∈ s.doc.tasks, t.active = true ∨ t.job ∈ xs)
      (fun _ _ _ ↦ False) (fun _ ↦ False) := by
  -- a plain subjob has neither condition nor loop: it is run, and `run` queues its tasks
  have hvisit (x : Nat) (xs : List Nat) (s : WorkflowInstance Unit) (h : Plain jobs n s)
      (hleft : ∀ t ∈ s.doc.tasks, t.active = true ∨ t.job ∈ x :: xs) :
      ∃ s', visitSubjob twoNodes 0 x s = .done s' ∧ Plain jobs n s' ∧
        ∀ t ∈ s'.doc.tasks, t.active = true ∨ t.job ∈ xs := by
    unfold visitSubjob
    cases hfind : s.doc.job? x with
    | none =>
      refine ⟨s, rfl, h, fun t ht ↦ (hleft t ht).imp_right fun hmem ↦ ?_⟩
      apply (List.mem_cons.mp hmem).resolve_left
      intro heq
      rcases List.mem_map.mp (h.plainTasks t ht).1 with ⟨j, hj, hid⟩
      rw [← h.sameJobs] at hj
      exact List.find?_eq_none.mp hfind j hj (decide_eq_true (hid.trans heq))
    | some subjob =>
      have hmem : subjob ∈ jobs := h.sameJobs ▸ List.mem_of_find?_eq_some hfind
      have hplain := h.plainJobs subjob hmem
      dsimp only
      rw [hplain.1, hplain.2]
      dsimp only [launchSubjob]
      have hbefore : Plain jobs n (s.log (.run x)) ∧ ∀ t ∈ (s.log (.run x)).doc.tasks,
          t.active = true ∨ t.id ∈ (s.doc.tasksOf x).map TaskNode.id ∨ t.job ∈ xs := by
        refine ⟨⟨h.sameJobs, h.length, h.notCancelling, h.plainJobs, h.plainTasks⟩, ?_⟩
        intro t ht
        refine (hleft t ht).imp_right fun hin ↦ (List.mem_cons.mp hin).imp_left fun heq ↦ ?_
        exact List.mem_map_of_mem (List.mem_filter.mpr ⟨ht, decide_eq_true heq⟩)
      rcases hrun : run twoNodes x (.element 0) s with ⟨s', _ | e⟩
      · have hend := ((queues_run _ xs).iterate hbefore hrun).1 rfl
        exact ⟨s', rfl, hend.1, fun t ht ↦ (hend.2 t ht).imp_right fun hin ↦
          hin.resolve_left List.not_mem_nil⟩
      · exact (((queues_run _ xs).iterate hbefore hrun).2 nofun).elim
  constructor
  case done =>
    rintro x xs s s' ⟨h, hleft⟩ hdone
    rcases hvisit x xs s h hleft with ⟨t, hvisit, hend⟩
    have hsame := hvisit.symm.trans hdone
    rw [SnapshotLoop.Turn.done.injEq] at hsame
    rw [← hsame]
    exact hend
  case failed =>
    rintro x xs s s' e ⟨h, hleft⟩ hfailed
    rcases hvisit x xs s h hleft with ⟨t, hvisit, -⟩
    cases hvisit.symm.trans hfailed
  case matched =>
    rintro x xs s s' nodes ⟨h, hleft⟩ hmatched
    rcases hvisit x xs s h hleft with ⟨t, hvisit, -⟩
    cases hvisit.symm.trans hmatched
  case expand => exact fun _ _ _ _ _ h _ ↦ h
  case expandFailed => exact fun _ _ _ _ _ _ h _ ↦ h
  case finish => exact fun _ _ _ h ↦ h.elim

/-- Four jobs, with `n` tasks each. -/
def fourJobs (n : Nat) : Document Unit where
  jobs := [1, 2, 3, 4].map fun id ↦
    { id, parent := 0, condition := none, loop := none, status := none, details := none }
  tasks := (List.range (4 * n)).map fun i ↦
    { id := i + 5, job := i % 4 + 1, name := "fetch", queue := "default", loop := none, status := none,
      retval := none, error := none, details := none, retrySchedule := none,
      retryScheduleLevel := none, retryDelay := none, retryTimes := none, retryRetval := none,
      content := [], outputs := [] }
  schedules := fun _ ↦ none
  nextId := 4 * n + 5

theorem fourJobs_job (i : Nat) : i % 4 + 1 ∈ [1, 2, 3, 4] := by
  have hlt := Nat.mod_lt i (show 0 < 4 by decide)
  simp only [List.mem_cons, List.not_mem_nil, or_false]
  omega

theorem fourJobs_wellFormed (n : Nat) : (fourJobs n).WellFormed where
  nextId := Nat.succ_pos _
  jobsNodup := by simp [fourJobs]
  jobsBound := by simp [fourJobs]
  parents := by simp [fourJobs]
  parentsFirst := by simp [fourJobs]
  tasksNodup := by
    show (((List.range (4 * n)).map _).map TaskNode.id).Nodup
    rw [List.map_map]
    exact (List.nodup_range).map fun i j h ↦ Nat.add_right_cancel h
  tasksBound := by
    intro t ht
    rcases List.mem_map.mp ht with ⟨i, hi, heq⟩
    have hlt := List.mem_range.mp hi
    rw [← heq]
    exact ⟨Nat.add_lt_add_right hlt 5, fourJobs_job i⟩
  noStatus := by
    intro t ht
    rcases List.mem_map.mp ht with ⟨i, -, heq⟩
    rw [← heq]

/-- `Start` queues them all. -/
theorem start_fourJobs (n : Nat) :
    (∀ t ∈ (start twoNodes (fourJobs n)).workflow.doc.tasks, t.active = true) ∧
      (start twoNodes (fourJobs n)).workflow.doc.tasks.length = 4 * n := by
  have hplain : Plain (fourJobs n).jobs (4 * n) ((create (fourJobs n)).log (.runSubjobs 0)) := by
    refine ⟨rfl, ?_, rfl, by simp [fourJobs], ?_⟩
    · exact (List.length_map _).trans List.length_range
    · intro t ht
      rcases List.mem_map.mp ht with ⟨i, -, heq⟩
      rw [← heq]
      exact ⟨fourJobs_job i, nofun, rfl, rfl⟩
  have hleft : ∀ t ∈ ((create (fourJobs n)).log (.runSubjobs 0)).doc.tasks,
      t.active = true ∨ t.job ∈ ((fourJobs n).subjobsOf 0).map JobNode.id := by
    intro t ht
    exact .inr (hplain.plainTasks t ht).1
  rcases hrun : runSubjobs twoNodes 0 (create (fourJobs n)) with ⟨s, _ | e⟩
  · have hend := (queues_runSubjobs.iterate ⟨hplain, hleft⟩ hrun).1 rfl
    have hstart : (start twoNodes (fourJobs n)).workflow = s := by
      show (runSubjobs twoNodes 0 (create (fourJobs n))).1 = s
      rw [hrun]
    rw [hstart]
    exact ⟨fun t ht ↦ (hend.2 t ht).resolve_right List.not_mem_nil, hend.1.length⟩
  · exact ((queues_runSubjobs.iterate ⟨hplain, hleft⟩ hrun).2 nofun).elim

/-- An event is of a task that has ended. -/
theorem retrier_eq_nil (h : s.view.Inv 0 0) (hactive : ∀ t ∈ s.doc.tasks, t.active = true) :
    s.retrier = [] := by
  apply List.eq_nil_iff_forall_not_mem.mpr
  intro id hid
  rcases h.retrier id hid with ⟨key, hkey, -, hstatus, -⟩
  rcases List.mem_map.mp hkey with ⟨t, ht, heq⟩
  have hall := hactive t ht
  rw [← heq] at hstatus
  have hstatus : t.status = some .terminated := hstatus
  simp [TaskNode.active, hstatus] at hall

/-- With 2^32 tasks, queued by `Start`, the counter is 0 and the instance is deleted. -/
theorem counters_wrapped : ∃ (doc : Document Unit) (l : Lifetime Unit), doc.WellFormed ∧
    run step (start twoNodes doc) [] = some l ∧ l.deleted = 1 ∧ l.workflow.runningTasks = 0 ∧
    l.workflow.doc.tasks.countP TaskNode.active = 2 ^ 32 := by
  have hsound := start_sound twoNodes (fourJobs_wellFormed (2 ^ 30))
  rcases start_fourJobs (2 ^ 30) with ⟨hactive, hlength⟩
  have hcount : (start twoNodes (fourJobs (2 ^ 30))).workflow.doc.tasks.countP TaskNode.active =
      2 ^ 32 := by
    have hall := List.countP_eq_length.mpr hactive
    omega
  have hrunning : (start twoNodes (fourJobs (2 ^ 30))).workflow.runningTasks = 0 := by
    rw [runningTasks_eq hsound.inv, hcount]
    rfl
  have hretrying : (start twoNodes (fourJobs (2 ^ 30))).workflow.retryingTasks = 0 := by
    rw [retryingTasks_eq hsound.inv, retrier_eq_nil hsound.inv hactive]
    rfl
  refine ⟨fourJobs (2 ^ 30), start twoNodes (fourJobs (2 ^ 30)), fourJobs_wellFormed _, rfl, ?_,
    hrunning, hcount⟩
  rw [hsound.deleted, if_pos]
  exact decide_eq_true ⟨hrunning, hretrying⟩

end Wrapped

/-- Along every run no job is launched twice, and `run` enqueues tasks only below a job whose tasks are
all successful. -/
theorem order_of_run (env : Environment Node) (doc : Document Node)
    (operations : List (Operation Node)) (l : Lifetime Node) (hdoc : doc.WellFormed)
    (hrun : run step (start env doc) operations = some l) :
    (l.workflow.trace.filterMap Event.launched?).Nodup ∧
      ∀ task ready, .enqueued task ready ∈ l.workflow.trace → ready = true := by
  have h := run_sound hdoc hrun
  refine ⟨h.inv.launchedNodup, ?_⟩
  intro task ready hin
  exact List.all_eq_true.mp h.inv.ready _ hin

theorem order_of_failsOnce : ∃ l, run step (start twoNodes retriedThenLooped) failsOnce = some l ∧
    l.workflow.trace.filterMap Event.launched? = [0, 1, 3] ∧
      ∀ task ready, .enqueued task ready ∈ l.workflow.trace → ready = true :=
  ⟨_, rfl, rfl, (order_of_run twoNodes retriedThenLooped failsOnce _
    retriedThenLooped_wellFormed rfl).2⟩

end Lifetime

end EvQueue
