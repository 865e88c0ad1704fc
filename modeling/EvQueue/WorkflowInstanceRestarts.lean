import EvQueue.WorkflowInstanceChanges
import EvQueue.WorkflowInstanceResume

/-!
# WorkflowInstanceRestarts — what a restart of the engine keeps of the outcome

A restart of the engine writes the savepoint of the instance, constructs the instance from it and resumes
it.  The number of failed tasks and the flag of `Cancel` are not in the savepoint: `Resume` counts again
what it finds failed, and `init` takes the flag back.
-/

namespace EvQueue

open Runs

variable {Node : Type}

/-- A call, or a shutdown of the engine with the start that follows it. -/
inductive Transition (Node : Type) where
  | call (operation : Operation Node)
  | restart (env : Environment Node) (order : List Nat)

namespace Lifetime

variable {l l' : Lifetime Node}

def restart (env : Environment Node) (order : List Nat) (l : Lifetime Node) : Option (Lifetime Node) :=
  if l.deleted = 0 ∧ order.Perm l.workflow.doc.found then
    some (l.after ((WorkflowInstance.fromSavepoint l.workflow.doc l.workflow.trace).resume env order))
  else none

def proceed (l : Lifetime Node) : Transition Node → Option (Lifetime Node)
  | .call operation => l.step operation
  | .restart env order => l.restart env order

theorem restart_cases {env : Environment Node} {order : List Nat}
    (hstep : l.restart env order = some l') : l.deleted = 0 ∧ order.Perm l.workflow.doc.found ∧
      l' = l.after
        ((WorkflowInstance.fromSavepoint l.workflow.doc l.workflow.trace).resume env order) := by
  unfold restart at hstep
  split at hstep
  · rename_i h
    rw [Option.some.injEq] at hstep
    exact ⟨h.1, h.2, hstep.symm⟩
  · cases hstep

theorem restart_sound {env : Environment Node} {order : List Nat} (h : l.Sound)
    (hstep : l.restart env order = some l') : l'.Sound := by
  rcases restart_cases hstep with ⟨hdeleted, horder, heq⟩
  rw [heq]
  exact after_sound hdeleted (WorkflowInstance.resume_inv env h.inv horder) rfl

theorem proceed_sound {transition : Transition Node} (h : l.Sound)
    (hstep : l.proceed transition = some l') : l'.Sound := by
  cases transition with
  | call operation => exact step_sound h hstep
  | restart env order => exact restart_sound h hstep

/-- The counters are right along every run with restarts. -/
theorem proceed_run_sound {env : Environment Node} {doc : Document Node} (hdoc : doc.WellFormed)
    {transitions : List (Transition Node)}
    (hrun : run proceed (start env doc) transitions = some l) : l.Sound := by
  have hmeets : Meets proceed (fun _ _ ↦ True) (start env doc) transitions :=
    Meets.of_forall fun _ _ ↦ trivial
  exact run_invariant (fun _ _ _ h _ hstep ↦ proceed_sound h hstep) (start_sound env hdoc) hmeets hrun

end Lifetime

namespace WorkflowInstance

variable {env : Environment Node} {s s' s'' : WorkflowInstance Node} {id : Nat} {order : List Nat}

/-! ## Within one run of the engine -/

/-- Failed tasks stay counted, and the flag of `Cancel` stays. -/
structure Onward (s s' : WorkflowInstance Node) : Prop where
  errors : s.errorTally ≤ s'.errorTally
  isCancelling : s'.isCancelling = s.isCancelling

theorem Onward.refl (s : WorkflowInstance Node) : Onward s s := ⟨Int.le_refl _, rfl⟩

theorem Onward.trans (h : Onward s s') (h' : Onward s' s'') : Onward s s'' :=
  ⟨Int.le_trans h.errors h'.errors, h'.isCancelling.trans h.isCancelling⟩

theorem onward_abortTask (s : WorkflowInstance Node) (id : Nat) (error : String) :
    Onward s (s.abortTask id error) := by
  refine ⟨?_, rfl⟩
  show s.errorTally ≤ s.errorTally + 1
  omega

theorem onward_enqueueTask (env : Environment Node) (s : WorkflowInstance Node) (id : Nat) :
    Onward s (s.enqueueTask env id) := by
  rcases enqueueTask_cases env s id with heq | ⟨error, heq⟩ | heq
  · rw [heq]
    exact Onward.refl s
  · rw [heq]
    exact onward_abortTask s id error
  · rw [heq]
    exact ⟨Int.le_refl _, rfl⟩

theorem onward_closed (env : Environment Node) (before : WorkflowInstance Node) :
    Closed env (Onward before) where
  log _ _ h := ⟨h.errors, h.isCancelling⟩
  setTask _ _ _ _ h := ⟨h.errors, h.isCancelling⟩
  enqueueTask s id h := h.trans (onward_enqueueTask env s id)
  cloneTask _ _ h := ⟨h.errors, h.isCancelling⟩
  removeTask _ _ h := ⟨h.errors, h.isCancelling⟩
  setJob _ _ _ h := ⟨h.errors, h.isCancelling⟩
  failJob s _ _ h := by
    refine ⟨?_, h.isCancelling⟩
    have hle := h.errors
    show before.errorTally ≤ s.errorTally + 1
    omega
  cloneJob _ _ h := ⟨h.errors, h.isCancelling⟩
  removeJob _ _ h := ⟨h.errors, h.isCancelling⟩

theorem onward_retryTask (env : Environment Node) (s : WorkflowInstance Node) (id : Nat) :
    Onward s (s.retryTask env id) := by
  cases hfind : s.doc.task? id with
  | none =>
    unfold retryTask
    rw [hfind]
    exact Onward.refl s
  | some task =>
    rcases retryTask_eq env hfind with ⟨d, -, heq⟩
    rw [heq]
    cases (task.retry env.uninitialised s.doc.schedules).2 with
    | exhausted =>
      refine ⟨?_, rfl⟩
      show s.errorTally ≤ s.errorTally + 1
      omega
    | passedOver => exact ⟨Int.le_refl _, rfl⟩
    | planned => exact ⟨Int.le_refl _, rfl⟩

theorem onward_recordStop (env : Environment Node) (s : WorkflowInstance Node) (task : TaskNode Node)
    (retval : Int) (output : String) : Onward s (s.recordStop env task retval output) := by
  unfold recordStop
  dsimp only
  have hstop : Onward s (s.setTask task.id fun t ↦
      { t with
        status := some .terminated
        retval := some retval }) := ⟨Int.le_refl _, rfl⟩
  generalize (s.setTask task.id fun t ↦
      { t with
        status := some .terminated
        retval := some retval }) = t at hstop
  by_cases hzero : retval = 0
  · rw [if_pos hzero]
    cases env.getTask task.name with
    | none => exact hstop.trans (onward_abortTask t _ _)
    | some method =>
      cases method with
      | text => exact ⟨hstop.errors, hstop.isCancelling⟩
      | xml =>
        dsimp only
        by_cases hxml : env.isXml output = true
        · rw [if_pos hxml]
          exact ⟨hstop.errors, hstop.isCancelling⟩
        · rw [if_neg hxml]
          exact hstop.trans (onward_abortTask t _ _)
  · rw [if_neg hzero]
    split
    · exact ⟨hstop.errors, hstop.isCancelling⟩
    · have houtput : Onward s (t.setTask task.id fun x ↦
          { x with outputs := x.outputs ++ [⟨retval, .text, output⟩] }) :=
        ⟨hstop.errors, hstop.isCancelling⟩
      exact houtput.trans (onward_retryTask env _ _)

theorem onward_taskStop (env : Environment Node) (s : WorkflowInstance Node) (id : Nat) (retval : Int)
    (output : String) : Onward s (s.taskStop env id retval output).1 := by
  unfold taskStop
  cases s.doc.task? id with
  | none => exact Onward.refl s
  | some task =>
    have hstop := onward_recordStop env s task retval output
    dsimp only
    generalize s.recordStop env task retval output = t at hstop
    split
    · have hjobs := (onward_closed env s).runSubjobs task.job hstop
      exact ⟨hjobs.errors, hjobs.isCancelling⟩
    · exact ⟨hstop.errors, hstop.isCancelling⟩

theorem onward_taskExecute (env : Environment Node) (s : WorkflowInstance Node) (id : Nat) :
    Onward s (s.taskExecute env id).1 := by
  unfold taskExecute
  have habort (error : String) : Onward s { s.abortTask id error with
      runningTally := s.runningTally - 1 } :=
    ⟨(onward_abortTask s id error).errors, rfl⟩
  cases s.doc.task? id with
  | none => exact Onward.refl s
  | some task =>
    dsimp only
    split
    · exact habort _
    · cases env.getTask task.name with
      | none => exact habort _
      | some method =>
        dsimp only
        split
        · exact ⟨Int.le_refl _, rfl⟩
        · exact habort _

theorem onward_taskRestart (env : Environment Node) (s : WorkflowInstance Node) (id : Nat) :
    Onward s (s.taskRestart env id).1 :=
  ⟨(onward_enqueueTask env s id).errors, (onward_enqueueTask env s id).isCancelling⟩

end WorkflowInstance

namespace Lifetime

variable {l l' : Lifetime Node}

/-- No call takes back a failure or the flag. -/
theorem onward_step {operation : Operation Node} (hstep : l.step operation = some l') :
    l.workflow.errorTally ≤ l'.workflow.errorTally ∧
      (l.workflow.isCancelling = true → l'.workflow.isCancelling = true) := by
  have honward {s s' : WorkflowInstance Node} (h : WorkflowInstance.Onward s s') :
      s.errorTally ≤ s'.errorTally ∧ (s.isCancelling = true → s'.isCancelling = true) :=
    ⟨h.errors, fun hcancel ↦ h.isCancelling.trans hcancel⟩
  rcases step_cases hstep with ⟨env, id, -, heq⟩ | ⟨env, id, task, retval, output, -, -, heq⟩ |
    ⟨env, id, -, heq⟩ | ⟨-, heq⟩
  · have h := WorkflowInstance.onward_taskExecute env
      { l.workflow with queued := l.workflow.queued.erase id } id
    rw [heq]
    exact honward ⟨h.errors, h.isCancelling⟩
  · rw [heq]
    exact honward (WorkflowInstance.onward_taskStop env l.workflow id retval output)
  · have h := WorkflowInstance.onward_taskRestart env
      { l.workflow with retrier := l.workflow.retrier.erase id } id
    rw [heq]
    exact honward ⟨h.errors, h.isCancelling⟩
  · rw [heq]
    exact ⟨Int.le_refl _, fun _ ↦ rfl⟩

end Lifetime

/-! ## Over a restart -/

/-- `Resume` finds a failure that it counts: a failed task without another retry, or a queued task whose
queue is not known. -/
def Document.FailsAgain (env : Environment Node) (d : Document Node) : Prop :=
  ∃ id t, d.task? id = some t ∧
    ((t.status = some .queued ∧ env.enqueueTask t.queue = false) ∨
      (t.status = some .terminated ∧ t.retval ≠ some 0 ∧
        (t.retry env.uninitialised d.schedules).2 = .exhausted))

namespace WorkflowInstance

variable {env : Environment Node} {d : Document Node} {order : List Nat}

theorem failsAgain_iff (env : Environment Node) (d : Document Node) : d.FailsAgain env ↔
    ∃ id ∈ d.found, (d.resumed env id).error = true := by
  constructor
  · intro h
    rcases h with ⟨id, t, hfind, hstatus⟩
    have hid : t.id = id := by simpa using List.find?_some hfind
    have hmem := List.mem_of_find?_eq_some hfind
    refine ⟨id, ?_, ?_⟩
    · rw [← hid]
      apply List.mem_map_of_mem
      apply List.mem_filter.mpr
      refine ⟨hmem, ?_⟩
      rcases hstatus with ⟨hstatus, -⟩ | ⟨hstatus, -⟩ <;> simp [TaskNode.resumable, hstatus]
    · unfold Document.resumed TaskNode.resumed
      rw [hfind]
      rcases hstatus with ⟨hstatus, hqueue⟩ | ⟨hstatus, hretval, hretry⟩
      · simp [hstatus, hqueue, Resumed.error]
      · simp [hstatus, hretval, hretry, Resumed.error]
  · intro h
    rcases h with ⟨id, -, hresumed⟩
    unfold Document.resumed at hresumed
    cases hfind : d.task? id with
    | none => simp [hfind, Resumed.error] at hresumed
    | some t =>
      refine ⟨id, t, hfind, ?_⟩
      rw [hfind] at hresumed
      unfold TaskNode.resumed at hresumed
      rcases hstatus : t.status with _ | status
      · simp [hstatus, Resumed.error] at hresumed
      · cases status with
        | queued =>
          by_cases hqueue : env.enqueueTask t.queue = true
          · simp [hstatus, hqueue, Resumed.error] at hresumed
          · rw [Bool.not_eq_true] at hqueue
            exact .inl ⟨rfl, hqueue⟩
        | executing => simp [hstatus, Resumed.error] at hresumed
        | terminated =>
          by_cases hzero : t.retval = some 0
          · simp [hstatus, hzero, Resumed.error] at hresumed
          · refine .inr ⟨rfl, hzero, ?_⟩
            cases hretry : (t.retry env.uninitialised d.schedules).2 <;>
              simp [hstatus, hzero, hretry, Resumed.error] at hresumed ⊢
        | aborted => simp [hstatus, Resumed.error] at hresumed

/-- The failures that were counted, as long as `error_tasks` can count them. -/
theorem errorTasks_pos_iff {s : WorkflowInstance Node} (hnonneg : 0 ≤ s.errorTally)
    (hfew : s.errorTally < 2 ^ 32) : 0 < s.errorTasks ↔ 0 < s.errorTally := by
  obtain ⟨n, hn⟩ := Int.eq_ofNat_of_zero_le hnonneg
  unfold errorTasks
  rw [hn] at hfew ⊢
  rw [UInt32.lt_iff_toNat_lt, toNat_ofInt, UInt32.toNat_zero]
  omega

/-- `Resume` counts anew. -/
theorem resume_errors_nonneg (trace : List (Event Node)) (hnodup : order.Nodup) :
    0 ≤ ((fromSavepoint d trace).resume env order).1.errorTally := by
  have hloop : Resumption env order (fromSavepoint d trace) _ :=
    resumption_foldl hnodup (s := fromSavepoint d trace) rfl
  have herrors : _ = 0 + ((order.countP fun x ↦ (d.resumed env x).error : Nat) : Int) := hloop.errors
  unfold resume
  dsimp only
  omega

/-- Behind `Resume` a failure is counted exactly when one is found in the savepoint. -/
theorem resume_errors_iff (trace : List (Event Node)) (hnodup : order.Nodup)
    (horder : order.Perm d.found) :
    0 < ((fromSavepoint d trace).resume env order).1.errorTally ↔ d.FailsAgain env := by
  have hloop : Resumption env order (fromSavepoint d trace) _ :=
    resumption_foldl hnodup (s := fromSavepoint d trace) rfl
  have herrors : _ = 0 + ((order.countP fun x ↦ (d.resumed env x).error : Nat) : Int) := hloop.errors
  have hcount : 0 < ((fromSavepoint d trace).resume env order).1.errorTally ↔
      0 < order.countP fun x ↦ (d.resumed env x).error := by
    unfold resume
    dsimp only
    omega
  rw [hcount, List.countP_pos_iff, failsAgain_iff]
  constructor
  · intro h
    rcases h with ⟨id, hid, herror⟩
    exact ⟨id, horder.mem_iff.mp hid, herror⟩
  · intro h
    rcases h with ⟨id, hid, herror⟩
    exact ⟨id, horder.mem_iff.mpr hid, herror⟩

end WorkflowInstance

namespace Lifetime

variable {l l' : Lifetime Node}

/-- Since the last start fewer failures were counted than an `unsigned int` can count. -/
def FewErrors (l : Lifetime Node) : Prop := l.workflow.errorTally < 2 ^ 32

/-- The failures can be counted; the engine is not restarted while the instance is being cancelled, nor when
it has failures none of which `Resume` finds again. -/
def KeepsOutcome (l : Lifetime Node) (transition : Transition Node) : Prop :=
  l.FewErrors ∧
    match transition with
    | .restart env _ => l.workflow.isCancelling = false ∧
        (l.workflow.errorTasks = 0 ∨ l.workflow.doc.FailsAgain env)
    | .call _ => True

theorem errors_start (env : Environment Node) (doc : Document Node) :
    0 ≤ (start env doc).workflow.errorTally :=
  ((WorkflowInstance.onward_closed env (.create doc)).runSubjobs 0 (.refl _)).errors

theorem errors_proceed (hsound : l.Sound) (hnonneg : 0 ≤ l.workflow.errorTally)
    {transition : Transition Node} (hstep : l.proceed transition = some l') :
    0 ≤ l'.workflow.errorTally := by
  cases transition with
  | call operation =>
    exact Int.le_trans hnonneg (onward_step (show l.step operation = some l' from hstep)).1
  | restart env order =>
    rcases restart_cases hstep with ⟨-, horder, heq⟩
    have hnodup := horder.nodup_iff.mpr
      (WorkflowInstance.found_nodup (WorkflowInstance.tasksNodup_of_inv hsound.inv))
    rw [heq]
    exact WorkflowInstance.resume_errors_nonneg l.workflow.trace hnodup

/-- What one call or restart keeps. -/
theorem outcome_proceed (hsound : l.Sound) {transition : Transition Node}
    (hok : KeepsOutcome l transition) (hstep : l.proceed transition = some l') :
    (0 < l.workflow.errorTally → 0 < l'.workflow.errorTally) ∧
      (l.workflow.isCancelling = true → l'.workflow.isCancelling = true) := by
  cases transition with
  | call operation =>
    have honward := onward_step (show l.step operation = some l' from hstep)
    exact ⟨fun hpos ↦ by omega, honward.2⟩
  | restart env order =>
    rcases restart_cases hstep with ⟨-, horder, heq⟩
    constructor
    · intro hpos
      have hcounted := (WorkflowInstance.errorTasks_pos_iff (Int.le_of_lt hpos) hok.1).mpr hpos
      have hfails := hok.2.2.resolve_left fun hzero ↦ by
        rw [hzero] at hcounted
        exact absurd hcounted (by decide)
      have hnodup := horder.nodup_iff.mpr
        (WorkflowInstance.found_nodup (WorkflowInstance.tasksNodup_of_inv hsound.inv))
      rw [heq]
      exact (WorkflowInstance.resume_errors_iff l.workflow.trace hnodup horder).mpr hfails
    · intro hcancel
      rw [hok.2.1] at hcancel
      cases hcancel

/-- A later state that tells of the failures and of the cancellation of `l`. -/
structure OutcomeKept (l l' : Lifetime Node) : Prop where
  sound : l'.Sound
  nonneg : 0 ≤ l'.workflow.errorTally
  errors : 0 < l.workflow.errorTally → 0 < l'.workflow.errorTally
  isCancelling : l.workflow.isCancelling = true → l'.workflow.isCancelling = true

/-- In every run whose restarts keep the outcome, an instance that has failed, or is being cancelled, is so
in every later state, whatever calls and restarts follow, as long as its failures can be counted. -/
theorem outcome_of_run (env : Environment Node) (doc : Document Node)
    (first rest : List (Transition Node)) (l l' : Lifetime Node) (hdoc : doc.WellFormed)
    (hfirst : run proceed (start env doc) first = some l) (hok : Meets proceed KeepsOutcome l rest)
    (hrest : run proceed l rest = some l') (hfew : l.FewErrors) (hfew' : l'.FewErrors) :
    (0 < l.workflow.errorTasks → 0 < l'.workflow.errorTasks) ∧
      (l.workflow.isCancelling = true → l'.workflow.isCancelling = true) := by
  have hbegun : l.Sound ∧ 0 ≤ l.workflow.errorTally := by
    have hmeets : Meets proceed (fun _ _ ↦ True) (start env doc) first := Meets.of_forall fun _ _ ↦ trivial
    have hstep : ∀ (s : Lifetime Node) transition s', s.Sound ∧ 0 ≤ s.workflow.errorTally → True →
        s.proceed transition = some s' → s'.Sound ∧ 0 ≤ s'.workflow.errorTally :=
      fun _ _ _ h _ hstep ↦ ⟨proceed_sound h.1 hstep, errors_proceed h.1 h.2 hstep⟩
    have hall := run_invariant hstep ⟨start_sound env hdoc, errors_start env doc⟩ hmeets hfirst
    exact hall
  have hstep : ∀ s transition s', OutcomeKept l s → KeepsOutcome s transition →
      s.proceed transition = some s' → OutcomeKept l s' := by
    intro s transition s' h hguard hstep
    have hone := outcome_proceed h.sound hguard hstep
    exact ⟨proceed_sound h.sound hstep, errors_proceed h.sound h.nonneg hstep,
      fun hpos ↦ hone.1 (h.errors hpos), fun hcancel ↦ hone.2 (h.isCancelling hcancel)⟩
  have hkept : OutcomeKept l l' :=
    run_invariant hstep ⟨hbegun.1, hbegun.2, fun hpos ↦ hpos, fun hcancel ↦ hcancel⟩ hok hrest
  rw [WorkflowInstance.errorTasks_pos_iff hbegun.2 hfew,
    WorkflowInstance.errorTasks_pos_iff hkept.nonneg hfew']
  exact ⟨hkept.errors, hkept.isCancelling⟩

/-- A job with two tasks without retries. -/
def twoTasks : Document Unit where
  jobs := [{ id := 1, parent := 0, condition := none, loop := none, status := none, details := none }]
  tasks :=
    [{ id := 2, job := 1, name := "fetch", queue := "default", loop := none, status := none,
       retval := none, error := none, details := none, retrySchedule := none,
       retryScheduleLevel := none, retryDelay := none, retryTimes := none, retryRetval := none,
       content := [], outputs := [] },
      { id := 3, job := 1, name := "store", queue := "default", loop := none, status := none,
        retval := none, error := none, details := none, retrySchedule := none,
        retryScheduleLevel := none, retryDelay := none, retryTimes := none, retryRetval := none,
        content := [], outputs := [] }]
  schedules := fun _ ↦ none
  nextId := 4

theorem twoTasks_wellFormed : twoTasks.WellFormed where
  nextId := by decide
  jobsNodup := by decide
  jobsBound := by decide
  parents := by decide
  parentsFirst := by decide
  tasksNodup := by decide
  tasksBound := by decide
  noStatus := by decide

def firstFails : List (Transition Unit) :=
  [.call (.taskExecute twoNodes 2), .call (.taskStop twoNodes 2 1 "")]

def restartedAndEnded : List (Transition Unit) :=
  [.restart twoNodes [2, 3], .call (.taskExecute twoNodes 3), .call (.taskStop twoNodes 3 0 "")]

/-- `Resume` finds the first task, which has failed. -/
theorem outcome_firstFails : ∃ l l', run proceed (start twoNodes twoTasks) firstFails = some l ∧
    run proceed l restartedAndEnded = some l' ∧ l'.deleted = 1 ∧ 0 < l'.workflow.errorTasks := by
  refine ⟨_, _, rfl, rfl, rfl, ?_⟩
  refine (outcome_of_run twoNodes twoTasks firstFails restartedAndEnded _ _ twoTasks_wellFormed rfl
    ?_ rfl (show (1 : Int) < 2 ^ 32 by decide) (show (1 : Int) < 2 ^ 32 by decide)).1 ?_
  · have hone : (1 : Int) < 2 ^ 32 := by decide
    refine Meets.cons ⟨hone, rfl, .inr ⟨2, _, rfl, .inr ⟨rfl, by decide, rfl⟩⟩⟩ rfl ?_
    exact Meets.cons ⟨hone, trivial⟩ rfl (Meets.cons ⟨hone, trivial⟩ rfl trivial)
  · decide

/-- The first task is not known any more. -/
def fetchUnknown : Environment Unit :=
  { twoNodes with getTask := fun name ↦ if name = "fetch" then none else some .text }

/-- An aborted task, and a cancellation, are forgotten by a restart. -/
theorem outcome_lost :
    (∃ l l', run proceed (start twoNodes twoTasks) [.call (.taskExecute fetchUnknown 2)] = some l ∧
      0 < l.workflow.errorTasks ∧
      run proceed l [.restart twoNodes [3], .call (.taskExecute twoNodes 3),
        .call (.taskStop twoNodes 3 0 "")] = some l' ∧
      l'.deleted = 1 ∧ l'.workflow.errorTasks = 0) ∧
    ∃ l l', run proceed (start twoNodes twoTasks) [.call .cancel] = some l ∧
      l.workflow.isCancelling = true ∧
      run proceed l [.restart twoNodes [2, 3]] = some l' ∧ l'.workflow.isCancelling = false :=
  ⟨⟨_, _, rfl, by decide, rfl, rfl, rfl⟩, ⟨_, _, rfl, rfl, rfl, rfl⟩⟩

end Lifetime

end EvQueue
