import EvQueue.WorkflowInstanceOutcomeRuns

/-!
# WorkflowInstanceOutcomeRestarts — restarts of the engine that a workflow does not notice

`Resume` takes up what it finds in the savepoint.  A task that is queued is queued again, one that is executing
is waited for, and one that failed for good is counted again.  What the savepoint does not hold is lost: an
aborted task is not counted any more, and a task that waits for its retry loses the retry that it waits for.
Where neither is there, the workflow comes to the outcome that it would have come to without the restart.
-/

namespace EvQueue

open Runs

variable {Node : Type}

namespace TaskNode

variable {uninitialised : Int × Int} {schedules : String → Option (List (Int × Int))} {t : TaskNode Node}

theorem retryParameters_unscheduled (hschedule : t.retrySchedule = none) {t' : TaskNode Node}
    {retry : Int × Int} (h : t.retryParameters uninitialised schedules = some (t', retry)) : t' = t := by
  unfold retryParameters at h
  rw [hschedule] at h
  dsimp only at h
  split at h
  · rw [Option.some.injEq, Prod.mk.injEq] at h
    exact h.1.symm
  · cases h

theorem nextLevel_unscheduled (hschedule : t.retrySchedule = none) (retry : Int × Int) :
    t.nextLevel schedules retry = (t, retry) := by
  unfold nextLevel
  rw [hschedule]

/-- Without a schedule, a task is changed by `retry_task` only when its retry is planned. -/
theorem retry_unplanned (hschedule : t.retrySchedule = none)
    (hnot : (t.retry uninitialised schedules).2 ≠ .planned) : (t.retry uninitialised schedules).1 = t := by
  unfold retry at hnot ⊢
  cases hparameters : t.retryParameters uninitialised schedules with
  | none => rfl
  | some found =>
    rcases found with ⟨t', retry⟩
    have hsame := retryParameters_unscheduled hschedule hparameters
    rw [hparameters, hsame] at hnot
    rw [hsame]
    dsimp only at hnot ⊢
    rw [nextLevel_unscheduled hschedule] at hnot ⊢
    dsimp only at hnot ⊢
    by_cases hzero : retry.1 = 0 ∨ retry.2 = 0
    · rw [if_pos hzero]
    · rw [if_neg hzero] at hnot ⊢
      by_cases hpassed : t.retryRetval.isSome ∧ t.retryRetval ≠ t.retval
      · rw [if_pos hpassed]
      · rw [if_neg hpassed] at hnot
        exact absurd rfl hnot

end TaskNode

namespace Standing

variable {env : Environment Node} {schedules : String → Option (List (Int × Int))}
variable {results : Nat → Nat → Int × String} {e : Standing Node} {t : TaskNode Node}

/-- A task that `Resume` finds as it is to be found: it was not aborted, and a schedule is not asked again. -/
structure Resumable (t : TaskNode Node) : Prop where
  aborted : t.status ≠ some .aborted
  schedule : t.status = some .terminated → t.retval ≠ some 0 → t.retrySchedule = none

/-- `Resume` leaves the task as it is, plans no retry, and counts an error if one was counted. -/
structure Survives (env : Environment Node) (schedules : String → Option (List (Int × Int)))
    (e : Standing Node) : Prop where
  task : (e.task.resumed env schedules).1 = e.task
  error : (e.task.resumed env schedules).2.error = e.failed
  retrying : (e.task.resumed env schedules).2.retrying = false

theorem survives_fresh (hstatus : t.status = none) : Survives env schedules (fresh t) := by
  have hleft : t.resumed env schedules = (t, .left) := by
    unfold TaskNode.resumed
    rw [hstatus]
  exact ⟨congrArg Prod.fst hleft, congrArg (fun r ↦ r.2.error) hleft,
    congrArg (fun r ↦ r.2.retrying) hleft⟩

theorem survives_enqueue (hnot : (t.enqueue env false).task.status ≠ some .aborted) :
    Survives env schedules (t.enqueue env false) := by
  unfold TaskNode.enqueue at hnot ⊢
  rw [if_neg Bool.false_ne_true] at hnot ⊢
  by_cases hqueue : env.enqueueTask t.queue = true
  · rw [if_pos hqueue]
    have hqueued : (t.setStatus .queued).task.resumed env schedules = ((t.setStatus .queued).task, .queued) :=
      if_pos hqueue
    exact ⟨congrArg Prod.fst hqueued, congrArg (fun r ↦ r.2.error) hqueued,
      congrArg (fun r ↦ r.2.retrying) hqueued⟩
  · rw [if_neg hqueue] at hnot
    exact absurd rfl hnot

theorem survives_execute (hnot : (t.execute env false).task.status ≠ some .aborted) :
    Survives env schedules (t.execute env false) := by
  unfold TaskNode.execute at hnot ⊢
  rw [if_neg Bool.false_ne_true] at hnot ⊢
  cases hknown : env.getTask t.name with
  | none =>
    rw [hknown] at hnot
    exact absurd rfl hnot
  | some method =>
    rw [hknown] at hnot
    dsimp only at hnot ⊢
    by_cases hfork : env.fork = true
    · rw [if_pos hfork]
      exact ⟨rfl, rfl, rfl⟩
    · rw [if_neg hfork] at hnot
      exact absurd rfl hnot

theorem survives_stop {retval : Int} {output : String}
    (hwaits : (t.stop env false schedules retval output).waits = false)
    (h : Resumable (t.stop env false schedules retval output).task) :
    Survives env schedules (t.stop env false schedules retval output) := by
  have hnot := h.aborted
  unfold TaskNode.stop at hwaits h hnot ⊢
  dsimp only at hwaits h hnot ⊢
  by_cases hzero : retval = 0
  · rw [if_pos hzero] at hnot ⊢
    rw [hzero] at hnot ⊢
    cases hmethod : env.getTask t.name with
    | none =>
      rw [hmethod] at hnot
      exact absurd rfl hnot
    | some method =>
      rw [hmethod] at hnot
      cases method with
      | text => exact ⟨rfl, rfl, rfl⟩
      | xml =>
        dsimp only at hnot ⊢
        by_cases hxml : env.isXml output = true
        · rw [if_pos hxml]
          exact ⟨rfl, rfl, rfl⟩
        · rw [if_neg hxml] at hnot
          exact absurd rfl hnot
  · rw [if_neg hzero, if_neg Bool.false_ne_true] at hwaits h ⊢
    dsimp only at hwaits h ⊢
    generalize hended : t.terminate retval .text output = ended at hwaits h ⊢
    have hsame := TaskNode.sameBut_retry env.uninitialised schedules ended
    have hstatus : (ended.retry env.uninitialised schedules).1.status = some .terminated := by
      rw [← hended] at hsame ⊢
      exact congrArg TaskKey.status hsame.key
    have hretval : (ended.retry env.uninitialised schedules).1.retval ≠ some 0 := by
      have heq : ended.retval = some retval := by
        rw [← hended]
        rfl
      rw [hsame.retval, heq, ne_eq, Option.some.injEq]
      exact hzero
    -- nothing was planned, so `retry_task` says again what it has said
    have hplanned : (ended.retry env.uninitialised schedules).2 ≠ .planned := of_decide_eq_false hwaits
    have hschedule := h.schedule hstatus hretval
    rw [hsame.retrySchedule] at hschedule
    have hkept := TaskNode.retry_unplanned hschedule hplanned
    rw [hkept] at hstatus hretval ⊢
    have hagain : ended.resumed env schedules =
        ((ended.retry env.uninitialised schedules).1,
          .retried (ended.retry env.uninitialised schedules).2) := by
      unfold TaskNode.resumed
      rw [hstatus]
      exact if_neg hretval
    constructor
    case task => rw [hagain, hkept]
    case error =>
      rw [hagain]
      cases hverdict : (ended.retry env.uninitialised schedules).2 <;> rfl
    case retrying =>
      rw [hagain]
      exact decide_eq_false fun heq ↦ hplanned (Resumed.retried.inj heq)

/-- **Where a task stands on its course, `Resume` takes it up.** -/
theorem Course.survives (hcourse : Course env schedules results t e) (hfresh : t.status = none)
    (hwaits : e.waits = false) (h : Resumable e.task) : Survives env schedules e := by
  rcases hcourse with heq | hleads
  · rw [heq]
    exact survives_fresh hfresh
  · cases hleads with
    | refl => exact survives_enqueue h.aborted
    | tail _ hnext =>
      unfold next at hnext
      split at hnext
      · rw [← Option.some.inj hnext] at h ⊢
        exact survives_enqueue h.aborted
      · split at hnext
        · rw [← Option.some.inj hnext] at h ⊢
          exact survives_execute h.aborted
        · rw [← Option.some.inj hnext] at h hwaits ⊢
          exact survives_stop hwaits h
        · cases hnext

end Standing

namespace WorkflowInstance

variable {env : Environment Node} {results : Nat → Nat → Int × String} {doc : Document Node}
variable {standings : Nat → Standing Node} {s : WorkflowInstance Node} {order : List Nat}

/-- The tasks of the document are those that the standings say. -/
theorem Tracks.tasks (hdoc : doc.WellFormed) (h : Tracks env results doc standings s) :
    s.doc.tasks = doc.tasks.map fun t ↦ (standings t.id).task :=
  tasks_eq_map h.ids hdoc.tasksNodup h.task

/-- `Resume` takes all tasks up where they stand. -/
theorem Progress.resume (hdoc : doc.WellFormed) (h : Progress env results doc standings s)
    (hinv : s.view.Inv 0 0) (horder : order.Perm s.doc.found) (hretrier : s.retrier = [])
    (hresumable : ∀ t ∈ s.doc.tasks, Standing.Resumable t) :
    Progress env results doc standings ((fromSavepoint s.doc s.trace).resume env order).1 := by
  have htracks := h.tracks
  have hnodup := tasksNodup_of_inv hinv
  have hloop : Resumption env order (fromSavepoint s.doc s.trace)
      ((fromSavepoint s.doc s.trace).resume env order).1 :=
    resumption_foldl (horder.nodup_iff.mpr (found_nodup hnodup)) rfl
  have hwaits (t : TaskNode Node) (ht : t ∈ doc.tasks) : (standings t.id).waits = false := by
    rw [Bool.eq_false_iff, ne_eq, ← htracks.waits t ht, hretrier]
    exact List.not_mem_nil
  -- no task waits for its retry, and none is one that `Resume` changes
  have hsurvives (t : TaskNode Node) (ht : t ∈ doc.tasks) :
      Standing.Survives env s.doc.schedules (standings t.id) := by
    rw [htracks.schedules]
    exact (htracks.course t ht).survives (hdoc.noStatus t ht) (hwaits t ht)
      (hresumable _ (task?_spec (htracks.task t ht)).1)
  have htasks : ((fromSavepoint s.doc s.trace).resume env order).1.doc.tasks = s.doc.tasks := by
    rw [hloop.tasks hnodup horder]
    show s.doc.tasks.map _ = _
    rw [htracks.tasks hdoc, List.map_map]
    apply List.map_congr_left
    intro t ht
    exact (hsurvives t ht).task
  have hfind (id : Nat) :
      ((fromSavepoint s.doc s.trace).resume env order).1.doc.task? id = s.doc.task? id := by
    unfold Document.task?
    rw [htasks]
  have hlaunched : ((fromSavepoint s.doc s.trace).resume env order).1.view.launched =
      s.view.launched := congrArg (List.filterMap Event.launched?) hloop.trace
  -- no retry is planned, so nothing is in the retrier again
  have hempty : ((fromSavepoint s.doc s.trace).resume env order).1.retrier = [] := by
    rw [hloop.retrier]
    show [] ++ order.filter _ = []
    rw [List.nil_append, List.filter_eq_nil_iff]
    intro x hx
    have hfound := horder.mem_iff.mp hx
    rcases List.mem_map.mp hfound with ⟨t', ht', hid⟩
    have ht' := (List.mem_filter.mp ht').1
    have hin := ht'
    rw [htracks.tasks hdoc] at hin
    rcases List.mem_map.mp hin with ⟨t, ht, heq⟩
    have hretrying := (hsurvives t ht).retrying
    rw [heq] at hretrying
    show ¬(s.doc.resumed env x).retrying = true
    unfold Document.resumed
    rw [← hid, task?_of_nodup hnodup ht']
    exact Bool.eq_false_iff.mp hretrying
  -- the failures are counted again
  have herrors : ((fromSavepoint s.doc s.trace).resume env order).1.errorTally =
      (doc.tasks.countP fun t ↦ (standings t.id).failed : Nat) := by
    rw [hloop.errors]
    show 0 + ((order.countP fun x ↦ (s.doc.resumed env x).error : Nat) : Int) = _
    rw [countP_found hnodup horder env (p := Resumed.error) rfl, htracks.tasks hdoc, List.countP_map,
      Int.zero_add]
    congr 1
    apply List.countP_congr
    intro t ht
    show ((standings t.id).task.resumed env s.doc.schedules).2.error = true ↔ _
    rw [(hsurvives t ht).error]
  constructor
  case tracks =>
    constructor
    case jobs => exact hloop.jobs.trans htracks.jobs
    case ids => exact hloop.ids.trans htracks.ids
    case nextId => exact hloop.nextId.trans htracks.nextId
    case schedules => exact hloop.schedules.trans htracks.schedules
    case isCancelling => exact hloop.isCancelling
    case task =>
      intro t ht
      rw [hfind]
      exact htracks.task t ht
    case waits =>
      intro t ht
      rw [hempty, hwaits t ht]
      exact iff_of_false List.not_mem_nil Bool.false_ne_true
    case course => exact htracks.course
    case errors => exact herrors
  case top =>
    rw [hlaunched]
    exact h.top
  case started =>
    intro j hj hparent
    rw [hlaunched] at hparent
    exact h.started j hj hparent
  case launched =>
    intro job hall
    rw [hlaunched]
    exact h.launched job hall

end WorkflowInstance

/-! ## Runs -/

namespace Lifetime

variable {env : Environment Node} {results : Nat → Nat → Int × String} {doc : Document Node}
variable {l l' : Lifetime Node}

/-- A call answers what `env` and `results` say, and is not `Cancel`.  A restart finds the same environment, no
task that waits for its retry, none that was aborted, and none that failed along a schedule. -/
def Unnoticed (env : Environment Node) (results : Nat → Nat → Int × String) (l : Lifetime Node) :
    Transition Node → Prop
  | .call operation => l.Answers env results operation
  | .restart env' _ => env' = env ∧ l.workflow.retrier = [] ∧
      ∀ t ∈ l.workflow.doc.tasks, t.status ≠ some .aborted ∧
        (t.status = some .terminated → t.retval ≠ some 0 → t.retrySchedule = none)

theorem proceed_progress (hdoc : doc.WellFormed) (hplain : doc.Plain) {transition : Transition Node}
    (h : l.Progress env results doc) (hok : l.Unnoticed env results transition)
    (hstep : l.proceed transition = some l') : l'.Progress env results doc := by
  cases transition with
  | call operation => exact step_progress hdoc hplain h hok hstep
  | restart env' order =>
    rcases h with ⟨hsound, standings, hprogress⟩
    rcases hok with ⟨henv, hretrier, hresumable⟩
    refine ⟨restart_sound hsound hstep, standings, ?_⟩
    rcases restart_cases hstep with ⟨-, horder, heq⟩
    rw [heq, henv]
    exact hprogress.resume hdoc hsound.inv horder hretrier fun t ht ↦
      ⟨(hresumable t ht).1, (hresumable t ht).2⟩

/-- **A workflow does not notice the restarts of the engine.**  However often the engine is shut down and
started again in between, with the same queues and tasks, a workflow of this kind that is not cancelled comes to
the outcome that it would have come to in one go, when no restart finds an aborted task, a task that waits for its
retry or one that failed along a schedule. -/
theorem doc_eq_outcome_of_restarts (env : Environment Node) (results : Nat → Nat → Int × String)
    (doc : Document Node) (transitions : List (Transition Node)) (l : Lifetime Node)
    (hdoc : doc.WellFormed) (hplain : doc.Plain) (hlimited : doc.Limited)
    (hok : Meets proceed (Unnoticed env results) (start env doc) transitions)
    (hrun : run proceed (start env doc) transitions = some l) (hend : l.deleted = 1)
    (hcount : Countable l.workflow) :
    l.workflow.doc = doc.outcome env results ∧
      l.workflow.errorTasks = .ofNat (doc.errors env results) := by
  rcases run_invariant (fun _ _ _ ↦ proceed_progress hdoc hplain)
    (start_progress env results hdoc hplain) hok hrun with ⟨hsound, standings, hprogress⟩
  have hended : l.workflow.workflowEnded = true := by
    by_contra hno
    have hzero := hsound.deleted
    rw [if_neg hno, hend] at hzero
    cases hzero
  have hover := nothing_of_ended hsound.inv hcount hended
  exact hprogress.doc_eq hdoc hlimited hsound.inv (hprogress.tracks.idle hover.1 hover.2)

/-- The engine is restarted while the first task is executed and the second one has failed for good. -/
def restartedMeanwhile : List (Transition Unit) :=
  [.call (.taskExecute twoNodes 2), .call (.taskExecute twoNodes 3), .call (.taskStop twoNodes 3 1 ""),
    .restart twoNodes [3, 2], .call (.taskStop twoNodes 2 0 "")]

def storeFails (id _ : Nat) : Int × String := (if id = 3 then 1 else 0, "")

theorem twoTasks_plain : twoTasks.Plain := by
  refine ⟨by decide, ?_⟩
  intro t ht
  simp only [twoTasks, List.mem_cons, List.not_mem_nil, or_false] at ht
  rcases ht with rfl | rfl <;> exact ⟨rfl, nofun⟩

theorem twoTasks_limited : twoTasks.Limited := by
  intro t ht
  simp only [twoTasks, List.mem_cons, List.not_mem_nil, or_false] at ht
  rcases ht with rfl | rfl <;> exact ⟨nofun, nofun, nofun⟩

theorem doc_eq_outcome_restartedMeanwhile : ∃ l,
    run proceed (start twoNodes twoTasks) restartedMeanwhile = some l ∧
    l.workflow.doc = twoTasks.outcome twoNodes storeFails ∧
    l.workflow.errorTasks = .ofNat (twoTasks.errors twoNodes storeFails) := by
  refine ⟨_, rfl, doc_eq_outcome_of_restarts twoNodes storeFails twoTasks restartedMeanwhile _
    twoTasks_wellFormed twoTasks_plain twoTasks_limited ?_ rfl rfl (by decide)⟩
  have hresumable {tasks : List (TaskNode Unit)}
      (hall : tasks.all (fun t ↦ t.status ≠ some .aborted ∧ t.retrySchedule.isNone) = true) :
      ∀ t ∈ tasks, t.status ≠ some .aborted ∧
        (t.status = some .terminated → t.retval ≠ some 0 → t.retrySchedule = none) := by
    intro t ht
    have hone := of_decide_eq_true (List.all_eq_true.mp hall t ht)
    exact ⟨hone.1, fun _ _ ↦ Option.isNone_iff_eq_none.mp hone.2⟩
  exact .cons rfl rfl (.cons rfl rfl (.cons ⟨rfl, fun _ _ ↦ rfl⟩ rfl
    (.cons ⟨rfl, rfl, hresumable rfl⟩ rfl (.cons ⟨rfl, fun _ _ ↦ rfl⟩ rfl trivial))))

end Lifetime

end EvQueue
