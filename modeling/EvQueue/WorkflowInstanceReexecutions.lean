import EvQueue.WorkflowInstanceFrames
import EvQueue.WorkflowInstanceRestarts

/-!
# WorkflowInstanceReexecutions — how often a task that always fails is executed again

`retry_task` counts down the retries of a task when it plans one.  `Resume` calls it again for a task that
is waiting for a retry, so that every such restart takes one of the retries.
-/

namespace EvQueue

open Runs

variable {Node : Type}

namespace TaskNode

/-! ## The retries of one task -/

/-- The tasks have the same retry parameters. -/
structure SameRetry (t t' : TaskNode Node) : Prop where
  schedule : t'.retrySchedule = t.retrySchedule
  level : t'.retryScheduleLevel = t.retryScheduleLevel
  delay : t'.retryDelay = t.retryDelay
  times : t'.retryTimes = t.retryTimes

/-- The return value is one that the task is retried on. -/
def Due (t : TaskNode Node) : Prop := t.retryRetval.isSome = true → t.retryRetval = t.retval

/-- The schedule that the task names is in the document: the constructor has imported it. -/
def ScheduleKnown (schedules : String → Option (List (Int × Int))) (t : TaskNode Node) : Prop :=
  ∀ name, t.retrySchedule = some name → schedules name ≠ none

variable {schedules : String → Option (List (Int × Int))} {t t' t'' : TaskNode Node}

theorem SameRetry.refl (t : TaskNode Node) : SameRetry t t := ⟨rfl, rfl, rfl, rfl⟩

theorem SameRetry.symm (h : SameRetry t t') : SameRetry t' t :=
  ⟨h.schedule.symm, h.level.symm, h.delay.symm, h.times.symm⟩

theorem SameRetry.trans (h : SameRetry t t') (h' : SameRetry t' t'') : SameRetry t t'' :=
  ⟨h'.schedule.trans h.schedule, h'.level.trans h.level, h'.delay.trans h.delay,
    h'.times.trans h.times⟩

/-- A known schedule gives the next level, whatever the parameters were. -/
theorem scheduleUpdate_congr (h : SameRetry t t') {name : String} (hknown : schedules name ≠ none)
    (retry retry' : Int × Int) :
    SameRetry (t.scheduleUpdate schedules name retry).1 (t'.scheduleUpdate schedules name retry').1 ∧
      (t.scheduleUpdate schedules name retry).2 = (t'.scheduleUpdate schedules name retry').2 := by
  unfold scheduleUpdate
  cases hlevels : schedules name with
  | none => exact absurd hlevels hknown
  | some levels =>
    dsimp only
    rw [h.level]
    cases levels[t.retryScheduleLevel.getD 0 + 1 - 1]? with
    | none => exact ⟨⟨h.schedule, rfl, h.delay, h.times⟩, rfl⟩
    | some level => exact ⟨⟨h.schedule, rfl, rfl, rfl⟩, rfl⟩

theorem retryParameters_congr (h : SameRetry t t') (hknown : t.ScheduleKnown schedules)
    (uninitialised uninitialised' : Int × Int) :
    (t.retryParameters uninitialised schedules = none ∧
      t'.retryParameters uninitialised' schedules = none) ∨
    ∃ a b retry, t.retryParameters uninitialised schedules = some (a, retry) ∧
      t'.retryParameters uninitialised' schedules = some (b, retry) ∧ SameRetry a b := by
  unfold retryParameters
  rw [h.schedule, h.level, h.delay, h.times]
  split
  · rename_i name hschedule _
    have hsame := scheduleUpdate_congr h (hknown name hschedule) uninitialised uninitialised'
    refine .inr ⟨_, _, (t.scheduleUpdate schedules name uninitialised).2, rfl, ?_, hsame.1⟩
    rw [hsame.2]
  · split
    · exact .inr ⟨_, _, _, rfl, rfl, h⟩
    · exact .inl ⟨rfl, rfl⟩

theorem nextLevel_congr (h : SameRetry t t') (hknown : t.ScheduleKnown schedules) (retry : Int × Int) :
    SameRetry (t.nextLevel schedules retry).1 (t'.nextLevel schedules retry).1 ∧
      (t.nextLevel schedules retry).2 = (t'.nextLevel schedules retry).2 := by
  unfold nextLevel
  rw [h.schedule]
  cases hschedule : t.retrySchedule with
  | none => exact ⟨h, rfl⟩
  | some name =>
    dsimp only
    by_cases hend : retry.2 = 0
    · rw [if_pos hend, if_pos hend]
      exact scheduleUpdate_congr h (hknown name hschedule) retry retry
    · rw [if_neg hend, if_neg hend]
      exact ⟨h, rfl⟩

/-- For a failure that is retried on, the retry parameters decide alone. -/
theorem retry_congr (h : SameRetry t t') (hknown : t.ScheduleKnown schedules) (hdue : t.Due)
    (hdue' : t'.Due) (uninitialised uninitialised' : Int × Int) :
    SameRetry (t.retry uninitialised schedules).1 (t'.retry uninitialised' schedules).1 ∧
      (t.retry uninitialised schedules).2 = (t'.retry uninitialised' schedules).2 := by
  unfold retry
  rcases retryParameters_congr h hknown uninitialised uninitialised' with
    ⟨hnone, hnone'⟩ | ⟨a, b, retry, hsome, hsome', hab⟩
  · rw [hnone, hnone']
    exact ⟨h, rfl⟩
  · have hsame := sameBut_retryParameters hsome
    have hsame' := sameBut_retryParameters hsome'
    rw [hsome, hsome']
    dsimp only
    have hknown' : a.ScheduleKnown schedules := by
      unfold ScheduleKnown
      rw [hsame.retrySchedule]
      exact hknown
    have hlevel := nextLevel_congr hab hknown' retry
    have hlater := hsame.trans (sameBut_nextLevel schedules a retry)
    have hlater' := hsame'.trans (sameBut_nextLevel schedules b retry)
    rcases hnext : a.nextLevel schedules retry with ⟨c, retryDelay, retryTimes⟩
    rcases hnext' : b.nextLevel schedules retry with ⟨c', retryDelay', retryTimes'⟩
    rw [hnext, hnext'] at hlevel
    rw [hnext] at hlater
    rw [hnext'] at hlater'
    dsimp only at hlevel hlater hlater' ⊢
    obtain ⟨rfl, rfl⟩ := Prod.mk.injEq _ _ _ _ |>.mp hlevel.2
    by_cases hend : retryDelay = 0 ∨ retryTimes = 0
    · rw [if_pos hend, if_pos hend]
      exact ⟨hlevel.1, rfl⟩
    · have hretval : ¬(c.retryRetval.isSome = true ∧ c.retryRetval ≠ c.retval) := by
        rw [hlater.retryRetval, hlater.retval]
        exact fun hno ↦ hno.2 (hdue hno.1)
      have hretval' : ¬(c'.retryRetval.isSome = true ∧ c'.retryRetval ≠ c'.retval) := by
        rw [hlater'.retryRetval, hlater'.retval]
        exact fun hno ↦ hno.2 (hdue' hno.1)
      rw [if_neg hend, if_neg hend, if_neg hretval, if_neg hretval']
      exact ⟨⟨hlevel.1.schedule, hlevel.1.level, hlevel.1.delay, rfl⟩, rfl⟩

/-- A failure that is retried on is not passed over. -/
theorem retry_of_due (hdue : t.Due) (uninitialised : Int × Int)
    (schedules : String → Option (List (Int × Int))) :
    (t.retry uninitialised schedules).2 ≠ .passedOver := by
  unfold retry
  rcases hsome : t.retryParameters uninitialised schedules with _ | ⟨a, retry⟩
  · simp
  · have hlater := (sameBut_retryParameters hsome).trans (sameBut_nextLevel schedules a retry)
    dsimp only
    rcases hnext : a.nextLevel schedules retry with ⟨c, retryDelay, retryTimes⟩
    rw [hnext] at hlater
    dsimp only at hlater ⊢
    have hretval : ¬(c.retryRetval.isSome = true ∧ c.retryRetval ≠ c.retval) := by
      rw [hlater.retryRetval, hlater.retval]
      exact fun hno ↦ hno.2 (hdue hno.1)
    rw [if_neg hretval]
    split <;> simp

/-- The task as `retry_task` sees it when the return value does not matter. -/
def bare (t : TaskNode Node) : TaskNode Node := { t with retryRetval := none }

/-- `retry_task` plans so many retries of the task, and then gives it up. -/
def Budget (schedules : String → Option (List (Int × Int))) : Nat → TaskNode Node → Prop
  | 0, t => (t.bare.retry (0, 0) schedules).2 = .exhausted
  | n + 1, t => (t.bare.retry (0, 0) schedules).2 = .planned ∧
      Budget schedules n (t.bare.retry (0, 0) schedules).1

theorem sameRetry_bare (t : TaskNode Node) : SameRetry t t.bare := ⟨rfl, rfl, rfl, rfl⟩

theorem due_bare (t : TaskNode Node) : t.bare.Due := nofun

theorem Budget.unique {n m : Nat} (h : Budget schedules n t) (h' : Budget schedules m t) : n = m := by
  induction n generalizing m t with
  | zero =>
    cases m with
    | zero => rfl
    | succ m =>
      have hplanned := h'.1
      rw [show (t.bare.retry (0, 0) schedules).2 = .exhausted from h] at hplanned
      cases hplanned
  | succ n ih =>
    cases m with
    | zero =>
      have hplanned := h.1
      rw [show (t.bare.retry (0, 0) schedules).2 = .exhausted from h'] at hplanned
      cases hplanned
    | succ m => rw [ih h.2 h'.2]

theorem ScheduleKnown.retry (hknown : t.ScheduleKnown schedules) (uninitialised : Int × Int) :
    (t.retry uninitialised schedules).1.ScheduleKnown schedules := by
  unfold ScheduleKnown
  rw [(sameBut_retry uninitialised schedules t).retrySchedule]
  exact hknown

theorem SameRetry.retry_bare (h : SameRetry t t') (hknown : t.ScheduleKnown schedules) :
    SameRetry (t.bare.retry (0, 0) schedules).1 (t'.bare.retry (0, 0) schedules).1 ∧
      (t.bare.retry (0, 0) schedules).2 = (t'.bare.retry (0, 0) schedules).2 := by
  have hbare : SameRetry t.bare t'.bare := ⟨h.schedule, h.level, h.delay, h.times⟩
  exact retry_congr hbare hknown (due_bare t) (due_bare t') (0, 0) (0, 0)

theorem Budget.congr {n : Nat} (h : Budget schedules n t) (hsame : SameRetry t t')
    (hknown : t.ScheduleKnown schedules) : Budget schedules n t' := by
  induction n generalizing t t' with
  | zero =>
    show (t'.bare.retry (0, 0) schedules).2 = .exhausted
    rw [← (hsame.retry_bare hknown).2]
    exact h
  | succ n ih =>
    have hone := hsame.retry_bare hknown
    exact ⟨hone.2.symm.trans h.1, ih h.2 hone.1 (ScheduleKnown.retry (t := t.bare) hknown (0, 0))⟩

/-- A call of `retry_task` that plans a retry takes one from the budget, and one that gives up finds it
empty. -/
theorem Budget.retry (hknown : t.ScheduleKnown schedules) (hdue : t.Due) (uninitialised : Int × Int)
    (n : Nat) :
    ((t.retry uninitialised schedules).2 = .planned →
      Budget schedules n (t.retry uninitialised schedules).1 → Budget schedules (n + 1) t) ∧
    ((t.retry uninitialised schedules).2 = .exhausted → Budget schedules 0 t) := by
  have hone := retry_congr (sameRetry_bare t) hknown hdue (due_bare t) uninitialised (0, 0)
  constructor
  · intro hplanned hrest
    exact ⟨hone.2.symm.trans hplanned, hrest.congr hone.1 (hknown.retry uninitialised)⟩
  · intro hexhausted
    exact hone.2.symm.trans hexhausted

end TaskNode

namespace WorkflowInstance

variable {env : Environment Node} {s : WorkflowInstance Node} {id : Nat} {task : TaskNode Node}

/-! ## The calls for a task that fails -/

theorem taskExecute_executing (hfind : s.doc.task? id = some task) (hcancel : s.isCancelling = false)
    (hname : (env.getTask task.name).isSome = true) (hfork : env.fork = true) :
    (s.taskExecute env id).1 = s.setTask id fun t ↦ { t with status := some .executing } := by
  unfold taskExecute
  rw [hfind]
  dsimp only
  rw [if_neg (by rw [hcancel]; exact Bool.false_ne_true)]
  rcases Option.isSome_iff_exists.mp hname with ⟨method, hmethod⟩
  rw [hmethod]
  dsimp only
  rw [if_pos hfork]

theorem enqueueTask_known (hfind : s.doc.task? id = some task) (hcancel : s.isCancelling = false)
    (hqueue : env.enqueueTask task.queue = true) :
    s.enqueueTask env id = { s.setTask id fun t ↦ { t with status := some .queued } with
      queued := s.queued ++ [id]
      runningTally := s.runningTally + 1 } := by
  unfold enqueueTask
  rw [hfind]
  dsimp only
  rw [if_neg (by rw [hcancel]; exact Bool.false_ne_true), if_pos hqueue]

/-- The task that `TaskStop` calls `retry_task` for. -/
def stopped (task : TaskNode Node) (retval : Int) (output : String) : TaskNode Node :=
  { task with
    status := some .terminated
    retval := some retval
    outputs := task.outputs ++ [⟨retval, .text, output⟩] }

theorem recordStop_failed (env : Environment Node) (hfind : s.doc.task? id = some task)
    (hcancel : s.isCancelling = false) {retval : Int} (hretval : retval ≠ 0) (output : String) :
    ∃ d, Document.Replaced id
        ((stopped task retval output).retry env.uninitialised s.doc.schedules).1 s.doc d ∧
      s.recordStop env task retval output =
        s.retried id d ((stopped task retval output).retry env.uninitialised s.doc.schedules).2 := by
  have hid := (task?_spec hfind).2
  have hfirst := Document.replaced_setTask
    (f := fun t ↦
      { t with
        status := some .terminated
        retval := some retval }) (fun _ ↦ rfl) hfind rfl
  have hsecond : Document.Replaced id (stopped task retval output) _ _ := Document.replaced_setTask
    (f := fun t ↦ { t with outputs := t.outputs ++ [⟨retval, .text, output⟩] }) (fun _ ↦ rfl)
    hfirst.task rfl
  generalize hoften : (s.setTask id fun t ↦
    { t with
      status := some .terminated
      retval := some retval }).setTask id
    (fun t ↦ { t with outputs := t.outputs ++ [⟨retval, .text, output⟩] }) = s'
  have hstopped : Document.Replaced id (stopped task retval output) s.doc s'.doc := by
    rw [← hoften]
    exact hfirst.trans hsecond
  rcases retryTask_eq env hstopped.task with ⟨d, hd, heq⟩
  rw [hstopped.schedules] at hd heq
  refine ⟨d, hstopped.trans hd, ?_⟩
  unfold recordStop
  dsimp only
  rw [if_neg hretval, hid]
  have hretry : s'.retryTask env id =
      s.retried id d ((stopped task retval output).retry env.uninitialised s.doc.schedules).2 := by
    rw [heq, ← hoften]
    -- only the document differs
    cases ((stopped task retval output).retry env.uninitialised s.doc.schedules).2 <;> rfl
  rw [← hretry, ← hoften]
  apply if_neg
  show ¬s.isCancelling = true
  rw [hcancel]
  exact Bool.false_ne_true

/-- `TaskStop` of a task that failed: `retry_task` is called, and no job is launched. -/
theorem taskStop_failed (env : Environment Node) (hfind : s.doc.task? id = some task)
    (hcancel : s.isCancelling = false) {retval : Int} (hretval : retval ≠ 0) (output : String) :
    ∃ d, Document.Replaced id
        ((stopped task retval output).retry env.uninitialised s.doc.schedules).1 s.doc d ∧
      (s.taskStop env id retval output).1 =
        { s.retried id d ((stopped task retval output).retry env.uninitialised s.doc.schedules).2 with
          runningTally := s.runningTally - 1 } := by
  have hsame := TaskNode.sameBut_retry env.uninitialised s.doc.schedules (stopped task retval output)
  rcases recordStop_failed env hfind hcancel hretval output with ⟨d, hd, heq⟩
  generalize (stopped task retval output).retry env.uninitialised s.doc.schedules = result at hd heq hsame
  refine ⟨d, hd, ?_⟩
  have hdoc : (s.retried id d result.2).doc = d := by
    cases result.2 <;> rfl
  have hrunning : (s.retried id d result.2).runningTally = s.runningTally := by
    cases result.2 <;> rfl
  unfold taskStop
  rw [hfind]
  dsimp only
  rw [heq, if_neg]
  · rw [hrunning]
  · -- the task itself was not successful
    rw [hdoc]
    intro hall
    have hmem : result.1 ∈ d.tasksOf task.job :=
      List.mem_filter.mpr ⟨List.mem_of_find?_eq_some hd.task,
        decide_eq_true (congrArg TaskKey.job hsame.key)⟩
    have hzero := (of_decide_eq_true (List.countP_eq_length.mp hall.symm _ hmem)).2
    rw [hsame.retval] at hzero
    exact hretval (Option.some.inj hzero)

end WorkflowInstance

namespace Lifetime

/-! ## Runs in which a task always fails -/

/-- The task was given up: it is terminated and waits for no retry. -/
def GivenUp (id : Nat) (l : Lifetime Node) : Prop :=
  (∃ t ∈ l.workflow.doc.task? id, t.status = some .terminated) ∧ id ∉ l.workflow.retrier

/-- The task always fails, with a value that it is retried on, until it is given up; it is not cancelled,
and can be queued and executed. -/
def AlwaysFails (id : Nat) (l : Lifetime Node) (transition : Transition Node) : Prop :=
  l.workflow.isCancelling = false ∧ ¬l.GivenUp id ∧
    match transition with
    | .call (.taskExecute env x) => x = id → env.fork = true ∧
        ∀ t ∈ l.workflow.doc.task? id, (env.getTask t.name).isSome = true
    | .call (.taskStop _ x retval _) => x = id → retval ≠ 0 ∧
        ∀ t ∈ l.workflow.doc.task? id, t.retryRetval.isSome = true → t.retryRetval = some retval
    | .call (.taskRestart env x) => x = id →
        ∀ t ∈ l.workflow.doc.task? id, env.enqueueTask t.queue = true
    | .call .cancel => True
    | .restart env _ => ∀ t ∈ l.workflow.doc.task? id, env.enqueueTask t.queue = true

def executes (id : Nat) (_ : Lifetime Node) : Transition Node → Bool
  | .call (.taskExecute _ x) => x = id
  | _ => false

/-- A restart while the task waits for a retry. -/
def restartsWaiting (id : Nat) (l : Lifetime Node) : Transition Node → Bool
  | .restart _ _ => id ∈ l.workflow.retrier
  | .call _ => false

/-- Where task `t` stands after `m` executions and `n` restarts while it was waiting; `first` is the task
when the run began.  Together with what is left to it, they make up the budget of `first`. -/
inductive Phase (schedules : String → Option (List (Int × Int))) (first : TaskNode Node) (m n : Nat)
    (t : TaskNode Node) (waiting : Prop) : Prop where
  | executing (status : t.status = some .executing) (waits : ¬waiting)
      (budget : ∀ k, TaskNode.Budget schedules k t → TaskNode.Budget schedules (k + (m + n)) first)
  | queued (status : t.status = some .queued) (waits : ¬waiting)
      (budget : ∀ k, TaskNode.Budget schedules k t → TaskNode.Budget schedules (k + 1 + (m + n)) first)
  | waiting (status : t.status = some .terminated) (retval : t.retval ≠ some 0) (due : t.Due)
      (waits : waiting)
      (budget : ∀ k, TaskNode.Budget schedules k t → TaskNode.Budget schedules (k + 1 + (m + n)) first)
  | givenUp (status : t.status = some .terminated) (waits : ¬waiting)
      (budget : TaskNode.Budget schedules (m + n) first)

/-- The invariant of such a run. -/
structure Attempt (id : Nat) (schedules : String → Option (List (Int × Int))) (first : TaskNode Node)
    (m n : Nat) (l : Lifetime Node) : Prop where
  sound : l.Sound
  task : ∃ t, l.workflow.doc.task? id = some t ∧ t.ScheduleKnown schedules ∧
    Phase schedules first m n t (id ∈ l.workflow.retrier)
  schedules : l.workflow.doc.schedules = schedules

variable {l l' : Lifetime Node} {id m n : Nat} {first t : TaskNode Node} {env : Environment Node}
variable {schedules : String → Option (List (Int × Int))} {transition : Transition Node}

theorem Phase.status_ne {waiting : Prop} (h : Phase schedules first m n t waiting) :
    t.status ≠ none := by
  cases h with
  | executing status => simp [status]
  | queued status => simp [status]
  | waiting status => simp [status]
  | givenUp status => simp [status]

/-- What leaves the task alone does not count. -/
theorem Attempt.apart (h : Attempt id schedules first m n l) (hsound : l'.Sound)
    (hapart : WorkflowInstance.Apart id l.workflow l'.workflow) :
    Attempt id schedules first m n l' := by
  rcases h.task with ⟨t, hfind, hknown, hphase⟩
  refine ⟨hsound, ⟨t, hapart.task.trans hfind, hknown, ?_⟩, hapart.schedules.trans h.schedules⟩
  rw [show (id ∈ l'.workflow.retrier) = (id ∈ l.workflow.retrier) from propext hapart.retrier]
  exact hphase

/-- `retry_task`, called for a task that failed: it waits for the retry, or it is given up. -/
theorem phase_retry (hstatus : t.status = some .terminated) (hretval : t.retval ≠ some 0)
    (hdue : t.Due) (hknown : t.ScheduleKnown schedules) (uninitialised : Int × Int) {waiting : Prop}
    (hwaiting : waiting ↔ (t.retry uninitialised schedules).2 = .planned)
    (hbudget : ∀ k, TaskNode.Budget schedules k t → TaskNode.Budget schedules (k + (m + n)) first) :
    Phase schedules first m n (t.retry uninitialised schedules).1 waiting := by
  have hsame := TaskNode.sameBut_retry uninitialised schedules t
  have hstatus' : (t.retry uninitialised schedules).1.status = some .terminated :=
    (congrArg TaskKey.status hsame.key).trans hstatus
  have htake := TaskNode.Budget.retry hknown hdue uninitialised
  cases houtcome : (t.retry uninitialised schedules).2 with
  | exhausted =>
    refine .givenUp hstatus' ?_ ?_
    · rw [hwaiting, houtcome]
      exact nofun
    · have hempty := hbudget 0 ((htake 0).2 houtcome)
      rw [Nat.zero_add] at hempty
      exact hempty
  | passedOver => exact absurd houtcome (TaskNode.retry_of_due hdue uninitialised schedules)
  | planned =>
    refine .waiting hstatus' ?_ ?_ (hwaiting.mpr houtcome) ?_
    · rw [hsame.retval]
      exact hretval
    · unfold TaskNode.Due
      rw [hsame.retryRetval, hsame.retval]
      exact hdue
    · exact fun k hk ↦ hbudget (k + 1) ((htake k).1 houtcome hk)

/-- The task that `TaskExecute` is called for is queued. -/
theorem Sound.status_queued (h : l.Sound) (hfind : l.workflow.doc.task? id = some t)
    (hid : id ∈ l.workflow.queued) : t.status = some .queued := by
  rcases (h.inv.queued id).mp hid with ⟨key, hkey, hkid, hstatus⟩
  have hsame := h.inv.task_unique hkey (WorkflowInstance.key_mem hfind)
    (hkid.trans (WorkflowInstance.task?_spec hfind).2.symm)
  rw [hsame] at hstatus
  exact hstatus

theorem attempt_taskExecute {x : Nat} (h : Attempt id schedules first m n l)
    (hok : AlwaysFails id l (.call (.taskExecute env x)))
    (hstep : l.step (.taskExecute env x) = some l') :
    Attempt id schedules first (m + (decide (x = id)).toNat) n l' := by
  have hsound := step_sound h.sound hstep
  rcases step_taskExecute hstep with ⟨hqueued, heq⟩
  by_cases hx : x = id
  · rw [hx] at hqueued heq
    rcases h.task with ⟨t, hfind, hknown, hphase⟩
    have hstatus := h.sound.status_queued hfind hqueued
    have hcall := hok.2.2 hx
    have hdo := WorkflowInstance.taskExecute_executing
      (s := { l.workflow with queued := l.workflow.queued.erase id }) hfind hok.1
      (hcall.2 t hfind) hcall.1
    have hreplaced := Document.replaced_setTask (f := fun t ↦ { t with status := some .executing })
      (fun _ ↦ rfl) hfind rfl
    rw [decide_eq_true hx]
    cases hphase with
    | executing status => simp [hstatus] at status
    | waiting status => simp [hstatus] at status
    | givenUp status => simp [hstatus] at status
    | queued status waits budget =>
      refine ⟨hsound, ⟨{ t with status := some .executing }, ?_, hknown, ?_⟩, ?_⟩
      · rw [heq]
        unfold after
        rw [hdo]
        exact hreplaced.task
      · refine .executing rfl ?_ ?_
        · rw [heq]
          unfold after
          rw [hdo]
          exact waits
        · intro k hk
          have hlater := budget k (hk.congr ⟨rfl, rfl, rfl, rfl⟩ hknown)
          rw [show k + (m + true.toNat + n) = k + 1 + (m + n) from by
            rw [Bool.toNat_true]
            omega]
          exact hlater
      · rw [heq]
        unfold after
        rw [hdo]
        exact h.schedules
  · rw [decide_eq_false hx]
    have hapart := WorkflowInstance.apart_taskExecute env
      { l.workflow with queued := l.workflow.queued.erase x } (Ne.symm hx)
    rw [heq] at hsound ⊢
    exact h.apart hsound ⟨hapart.task, hapart.retrier, hapart.schedules⟩

theorem attempt_taskStop {x : Nat} {retval : Int} {output : String}
    (h : Attempt id schedules first m n l)
    (hok : AlwaysFails id l (.call (.taskStop env x retval output)))
    (hstep : l.step (.taskStop env x retval output) = some l') :
    Attempt id schedules first m n l' := by
  have hsound := step_sound h.sound hstep
  rcases step_taskStop hstep with ⟨other, hother, hexecuting, heq⟩
  rcases h.task with ⟨t, hfind, hknown, hphase⟩
  by_cases hx : x = id
  · rw [hx] at hother heq
    rw [hother, Option.some.injEq] at hfind
    rw [← hfind] at hknown hphase
    have hcall := hok.2.2 hx
    have hdue : (WorkflowInstance.stopped other retval output).Due := hcall.2 other hother
    rcases WorkflowInstance.taskStop_failed env hother hok.1 hcall.1 output with ⟨d, hd, hdo⟩
    rw [h.schedules] at hd hdo
    cases hphase with
    | queued status => simp [hexecuting] at status
    | waiting status => simp [hexecuting] at status
    | givenUp status => simp [hexecuting] at status
    | executing status waits budget =>
      have hwaiting : id ∈ l'.workflow.retrier ↔
          ((WorkflowInstance.stopped other retval output).retry env.uninitialised schedules).2 =
            .planned := by
        rw [heq]
        unfold after
        rw [hdo]
        cases ((WorkflowInstance.stopped other retval output).retry env.uninitialised schedules).2 with
        | exhausted => exact iff_of_false waits nofun
        | passedOver => exact iff_of_false waits nofun
        | planned => exact iff_of_true (List.mem_append_right _ (List.mem_singleton.mpr rfl)) rfl
      have hdoc : l'.workflow.doc = d := by
        rw [heq]
        unfold after
        rw [hdo]
        cases ((WorkflowInstance.stopped other retval output).retry env.uninitialised schedules).2 <;>
          rfl
      refine ⟨hsound, ⟨_, (by rw [hdoc]; exact hd.task), ?_, ?_⟩, ?_⟩
      · exact TaskNode.ScheduleKnown.retry (t := WorkflowInstance.stopped other retval output) hknown _
      · apply phase_retry rfl _ hdue hknown _ hwaiting
        · exact fun k hk ↦ budget k (hk.congr ⟨rfl, rfl, rfl, rfl⟩ hknown)
        · exact fun hzero ↦ hcall.1 (Option.some.inj hzero)
      · rw [hdoc, hd.schedules, h.schedules]
  · have hapart := WorkflowInstance.apart_taskStop env h.sound.inv hfind hphase.status_ne (Ne.symm hx)
      hother hexecuting retval output
    rw [heq] at hsound ⊢
    exact h.apart hsound hapart

theorem attempt_taskRestart {x : Nat} (h : Attempt id schedules first m n l)
    (hok : AlwaysFails id l (.call (.taskRestart env x)))
    (hstep : l.step (.taskRestart env x) = some l') : Attempt id schedules first m n l' := by
  have hsound := step_sound h.sound hstep
  rcases step_taskRestart hstep with ⟨hin, heq⟩
  rcases h.task with ⟨t, hfind, hknown, hphase⟩
  by_cases hx : x = id
  · rw [hx] at hin heq
    have hdo := WorkflowInstance.enqueueTask_known
      (s := { l.workflow with retrier := l.workflow.retrier.erase id }) hfind hok.1
      (hok.2.2 hx t hfind)
    have hreplaced := Document.replaced_setTask (f := fun t ↦ { t with status := some .queued })
      (fun _ ↦ rfl) hfind rfl
    have hgone : id ∉ l.workflow.retrier.erase id := h.sound.inv.retrierNodup.not_mem_erase
    cases hphase with
    | executing status waits => exact absurd hin waits
    | queued status waits => exact absurd hin waits
    | givenUp status waits => exact absurd hin waits
    | waiting status retval due waits budget =>
      refine ⟨hsound, ⟨{ t with status := some .queued }, ?_, hknown, .queued rfl ?_ ?_⟩, ?_⟩
      · rw [heq]
        unfold after WorkflowInstance.taskRestart
        rw [hdo]
        exact hreplaced.task
      · rw [heq]
        unfold after WorkflowInstance.taskRestart
        rw [hdo]
        exact hgone
      · exact fun k hk ↦ budget k (hk.congr ⟨rfl, rfl, rfl, rfl⟩ hknown)
      · rw [heq]
        unfold after WorkflowInstance.taskRestart
        rw [hdo]
        exact h.schedules
  · have hapart := WorkflowInstance.apart_taskRestart env l.workflow (Ne.symm hx)
    rw [heq] at hsound ⊢
    exact h.apart hsound hapart

/-- `Resume` calls `retry_task` again for a task that was waiting. -/
theorem attempt_restart {order : List Nat} (h : Attempt id schedules first m n l)
    (hok : AlwaysFails id l (.restart env order)) (hstep : l.restart env order = some l') :
    Attempt id schedules first m (n + (decide (id ∈ l.workflow.retrier)).toNat) l' := by
  have hsound := restart_sound h.sound hstep
  rcases restart_cases hstep with ⟨-, horder, heq⟩
  rcases h.task with ⟨t, hfind, hknown, hphase⟩
  have hmem := List.mem_of_find?_eq_some hfind
  have hid := (WorkflowInstance.task?_spec hfind).2
  have hnodup := horder.nodup_iff.mpr
    (WorkflowInstance.found_nodup (WorkflowInstance.tasksNodup_of_inv h.sound.inv))
  have hloop : WorkflowInstance.Resumption env order
      (WorkflowInstance.fromSavepoint l.workflow.doc l.workflow.trace) _ :=
    WorkflowInstance.resumption_foldl hnodup rfl
  -- the task is one that `Resume` finds
  have hin : id ∈ order := by
    rw [horder.mem_iff, ← hid]
    apply List.mem_map_of_mem
    apply List.mem_filter.mpr
    refine ⟨hmem, ?_⟩
    unfold TaskNode.resumable
    cases hphase with
    | executing status => simp [status]
    | queued status => simp [status]
    | waiting status => simp [status]
    | givenUp status => simp [status]
  have hfound : l'.workflow.doc.task? id = some (t.resumed env schedules).1 := by
    rw [heq, ← h.schedules]
    exact hloop.found id hin t hfind
  have hretrier : id ∈ l'.workflow.retrier ↔ (t.resumed env schedules).2.retrying = true := by
    rw [heq, ← h.schedules]
    show id ∈ (order.foldl (WorkflowInstance.resumeTask env) _).retrier ↔ _
    rw [hloop.retrier]
    show id ∈ [] ++ order.filter (fun x ↦ (l.workflow.doc.resumed env x).retrying) ↔ _
    rw [List.nil_append, List.mem_filter, and_iff_right hin]
    unfold Document.resumed
    rw [hfind]
  have hschedules : l'.workflow.doc.schedules = schedules := by
    rw [heq, ← h.schedules]
    exact hloop.schedules
  unfold TaskNode.resumed at hfound hretrier
  cases hphase with
  | executing status waits budget =>
    rw [status] at hfound hretrier
    rw [decide_eq_false waits]
    exact ⟨hsound, ⟨t, hfound, hknown, .executing status (by rw [hretrier]; exact nofun) budget⟩,
      hschedules⟩
  | queued status waits budget =>
    rw [status] at hfound hretrier
    rw [decide_eq_false waits]
    dsimp only at hfound hretrier
    rw [if_pos (hok.2.2 t hfind)] at hfound hretrier
    refine ⟨hsound, ⟨_, hfound, hknown, .queued rfl (by rw [hretrier]; exact nofun) ?_⟩, hschedules⟩
    exact fun k hk ↦ budget k (hk.congr ⟨rfl, rfl, rfl, rfl⟩ hknown)
  | waiting status retval due waits budget =>
    rw [status] at hfound hretrier
    -- it waited for a retry, which `Resume` plans anew
    rw [decide_eq_true waits]
    dsimp only at hfound hretrier
    rw [if_neg retval] at hfound hretrier
    refine ⟨hsound, ⟨_, hfound, hknown.retry _, ?_⟩, hschedules⟩
    apply phase_retry status retval due hknown
    · rw [hretrier]
      unfold Resumed.retrying
      rw [decide_eq_true_eq, Resumed.retried.injEq]
    · intro k hk
      have hlater := budget k hk
      rw [show k + (m + (n + true.toNat)) = k + 1 + (m + n) from by
        rw [Bool.toNat_true]
        omega]
      exact hlater
  | givenUp status waits =>
    -- the run has ended before
    exact absurd ⟨⟨t, hfind, status⟩, waits⟩ hok.2.1

/-- One call or restart. -/
theorem attempt_proceed (h : Attempt id schedules first m n l) (hok : AlwaysFails id l transition)
    (hstep : l.proceed transition = some l') :
    Attempt id schedules first (m + (executes id l transition).toNat)
      (n + (restartsWaiting id l transition).toNat) l' := by
  cases transition with
  | restart env order => exact attempt_restart h hok hstep
  | call operation =>
    cases operation with
    | taskExecute env x => exact attempt_taskExecute h hok hstep
    | taskStop env x retval output => exact attempt_taskStop h hok hstep
    | taskRestart env x => exact attempt_taskRestart h hok hstep
    | cancel =>
      have hsound := step_sound h.sound (show l.step .cancel = some l' from hstep)
      rcases step_cancel hstep with ⟨-, heq⟩
      rw [heq] at hsound ⊢
      exact h.apart hsound ⟨rfl, Iff.rfl, rfl⟩

/-- When the task is given up, its executions and the restarts while it was waiting make up its budget. -/
theorem budget_of_run {transitions : List (Transition Node)} (hsound : l.Sound)
    (hfind : l.workflow.doc.task? id = some t) (hstatus : t.status = some .executing)
    (hknown : t.ScheduleKnown l.workflow.doc.schedules)
    (hok : Meets proceed (AlwaysFails id) l transitions)
    (hrun : run proceed l transitions = some l') (hgiven : l'.GivenUp id) :
    TaskNode.Budget l.workflow.doc.schedules
      (count proceed (executes id) l transitions + count proceed (restartsWaiting id) l transitions)
      t := by
  have hwaits : id ∉ l.workflow.retrier := by
    intro hin
    rcases hsound.inv.retrier id hin with ⟨key, hkey, hid, hterminated, -⟩
    have hsame := hsound.inv.task_unique hkey (WorkflowInstance.key_mem hfind)
      (hid.trans (WorkflowInstance.task?_spec hfind).2.symm)
    rw [hsame, show t.key.status = t.status from rfl, hstatus] at hterminated
    cases hterminated
  have hstart : Attempt id l.workflow.doc.schedules t 0 0 l :=
    ⟨hsound, ⟨t, hfind, hknown, .executing hstatus hwaits fun _ hk ↦ hk⟩, rfl⟩
  have hstep : ∀ m n s transition s', Attempt id l.workflow.doc.schedules t m n s →
      AlwaysFails id s transition → s.proceed transition = some s' →
      Attempt id l.workflow.doc.schedules t (m + (executes id s transition).toNat)
        (n + (restartsWaiting id s transition).toNat) s' :=
    fun _ _ _ _ _ h hok hstep ↦ attempt_proceed h hok hstep
  have hend := run_counted hstep hstart hok hrun
  rw [Nat.zero_add, Nat.zero_add] at hend
  rcases hend.task with ⟨t', hfind', -, hphase⟩
  rcases hgiven with ⟨⟨u, hu, hterminated⟩, hnot⟩
  rw [show l'.workflow.doc.task? id = some u from hu, Option.some.injEq] at hfind'
  rw [hfind'] at hterminated
  cases hphase with
  | executing status => simp [hterminated] at status
  | queued status => simp [hterminated] at status
  | waiting _ _ _ waits => exact absurd waits hnot
  | givenUp _ _ budget => exact budget

/-- Two runs from the first execution of a task until it is given up, the second one without a restart while
the task waits for a retry: it is executed again as often in the first one exactly when there was no such
restart either. -/
theorem reexecutions_eq_iff (env : Environment Node) (doc : Document Node)
    (before as bs : List (Transition Node)) (l la lb : Lifetime Node) (id : Nat) (t : TaskNode Node)
    (hdoc : doc.WellFormed) (hbefore : run proceed (start env doc) before = some l)
    (hfind : l.workflow.doc.task? id = some t) (hstatus : t.status = some .executing)
    (hknown : t.ScheduleKnown l.workflow.doc.schedules)
    (hfails : Meets proceed (AlwaysFails id) l as) (hrun : run proceed l as = some la)
    (hgiven : la.GivenUp id)
    (hfails' : Meets proceed (AlwaysFails id) l bs) (hrun' : run proceed l bs = some lb)
    (hgiven' : lb.GivenUp id)
    (hnever : Meets proceed (fun l transition ↦ restartsWaiting id l transition = false) l bs) :
    count proceed (executes id) l as = count proceed (executes id) l bs ↔
      Meets proceed (fun l transition ↦ restartsWaiting id l transition = false) l as := by
  have hsound := proceed_run_sound hdoc hbefore
  have hbudget := budget_of_run hsound hfind hstatus hknown hfails hrun hgiven
  have hbudget' := budget_of_run hsound hfind hstatus hknown hfails' hrun' hgiven'
  have hsame := hbudget.unique hbudget'
  rw [(count_eq_zero_iff hrun').mpr hnever] at hsame
  rw [← count_eq_zero_iff hrun]
  omega

instance (id : Nat) (l : Lifetime Node) : Decidable (l.GivenUp id) :=
  inferInstanceAs (Decidable (_ ∧ _))

instance (id : Nat) (l : Lifetime Node) :
    (transition : Transition Node) → Decidable (AlwaysFails id l transition)
  | .call (.taskExecute _ _) => inferInstanceAs (Decidable (_ ∧ _ ∧ (_ → _ ∧ ∀ t ∈ _, _)))
  | .call (.taskStop _ _ _ _) => inferInstanceAs (Decidable (_ ∧ _ ∧ (_ → _ ∧ ∀ t ∈ _, _)))
  | .call (.taskRestart _ _) => inferInstanceAs (Decidable (_ ∧ _ ∧ (_ → ∀ t ∈ _, _)))
  | .call .cancel => inferInstanceAs (Decidable (_ ∧ _ ∧ True))
  | .restart _ _ => inferInstanceAs (Decidable (_ ∧ _ ∧ ∀ t ∈ _, _))

/-- The first execution of a task that has one retry. -/
def fetchExecutes : List (Transition Unit) := [.call (.taskExecute twoNodes 2)]

def failsTwice : List (Transition Unit) :=
  [.call (.taskStop twoNodes 2 1 ""), .call (.taskRestart twoNodes 2),
    .call (.taskExecute twoNodes 2), .call (.taskStop twoNodes 2 1 "")]

/-- A restart while the task is executing takes no retry. -/
theorem reexecutions_restartedExecuting : ∃ l,
    run proceed (start twoNodes retriedThenLooped) fetchExecutes = some l ∧
      (count proceed (executes 2) l (.restart twoNodes [2] :: failsTwice) =
          count proceed (executes 2) l failsTwice ↔
        Meets proceed (fun l transition ↦ restartsWaiting 2 l transition = false) l
          (.restart twoNodes [2] :: failsTwice)) := by
  refine ⟨_, rfl, ?_⟩
  apply reexecutions_eq_iff twoNodes retriedThenLooped fetchExecutes _ _ _ _ _ 2 _
    retriedThenLooped_wellFormed rfl rfl rfl nofun
  · decide
  · rfl
  · decide
  · decide
  · rfl
  · decide
  · decide

/-- A restart while the task waits for its retry: it is given up at once. -/
theorem reexecutions_lost : ∃ l la lb,
    run proceed (start twoNodes retriedThenLooped) fetchExecutes = some l ∧
      Meets proceed (AlwaysFails 2) l [.call (.taskStop twoNodes 2 1 ""), .restart twoNodes [2]] ∧
      run proceed l [.call (.taskStop twoNodes 2 1 ""), .restart twoNodes [2]] = some la ∧
      la.GivenUp 2 ∧ la.workflow.errorTally = 1 ∧
      Meets proceed (AlwaysFails 2) l failsTwice ∧ run proceed l failsTwice = some lb ∧
      lb.GivenUp 2 ∧ lb.workflow.errorTally = 1 ∧
      count proceed (executes 2) l [.call (.taskStop twoNodes 2 1 ""), .restart twoNodes [2]] = 0 ∧
      count proceed (executes 2) l failsTwice = 1 := by
  refine ⟨_, _, _, rfl, ?_, rfl, ?_, rfl, ?_, rfl, ?_, rfl, rfl, rfl⟩
  · decide
  · decide
  · decide
  · decide

end Lifetime

end EvQueue
