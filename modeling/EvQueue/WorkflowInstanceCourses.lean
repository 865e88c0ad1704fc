import Mathlib.Algebra.Order.Ring.Nat
import EvQueue.WorkflowInstanceReexecutions

/-!
# WorkflowInstanceCourses — what the calls of the engine do to the task they are made for

A call that launches no job changes one task.  What becomes of the task depends on the task alone, on the
environment and on the flag of `Cancel`: the definitions below say it for one task, and the calls of the
instance are compared with them.
-/

namespace EvQueue

variable {Node : Type}

/-- Where a task stands behind a call: its node, whether it waits in the retrier, and whether the call has
counted an error for it. -/
structure Standing (Node : Type) where
  task : TaskNode Node
  waits : Bool
  failed : Bool

namespace TaskNode

variable (env : Environment Node) (isCancelling : Bool)

/-- The task is aborted, and an error is counted. -/
def abort (t : TaskNode Node) (error : String) : Standing Node where
  task :=
    { t with
      status := some .aborted
      error := some error }
  waits := false
  failed := true

def setStatus (t : TaskNode Node) (status : TaskStatus) : Standing Node where
  task := { t with status := some status }
  waits := false
  failed := false

/-- `enqueue_task`, also as `TaskRestart` calls it. -/
def enqueue (t : TaskNode Node) : Standing Node :=
  if isCancelling then t.abort "Aborted on user request"
  else if env.enqueueTask t.queue then t.setStatus .queued
  else t.abort "Unknown queue name"

/-- `TaskExecute`. -/
def execute (t : TaskNode Node) : Standing Node :=
  if isCancelling then t.abort "Aborted on user request"
  else
    match env.getTask t.name with
    | none => t.abort "Unknown task name"
    | some _ => if env.fork then t.setStatus .executing else t.abort "Unable to fork"

/-- The task behind its end, with the output that it returned. -/
def terminate (retval : Int) (method : OutputMethod) (output : String) (t : TaskNode Node) :
    TaskNode Node :=
  { t with
    status := some .terminated
    retval := some retval
    outputs := t.outputs ++ [⟨retval, method, output⟩] }

/-- What `TaskStop` does to the task. -/
def stop (schedules : String → Option (List (Int × Int))) (retval : Int) (output : String)
    (t : TaskNode Node) : Standing Node :=
  let vanished := { t with
    status := some .terminated
    retval := some retval }
  if retval = 0 then
    match env.getTask t.name with
    | none => vanished.abort "Task has vanished"
    | some .xml =>
        if env.isXml output then ⟨t.terminate retval .xml output, false, false⟩
        else vanished.abort "Invalid XML returned"
    | some .text => ⟨t.terminate retval .text output, false, false⟩
  else if isCancelling then
    ⟨{ t.terminate retval .text output with
        error := some "Won't retry because workflow is cancelling" }, false, false⟩
  else
    let result := (t.terminate retval .text output).retry env.uninitialised schedules
    ⟨result.1, result.2 = .planned, result.2 = .exhausted⟩

theorem job_enqueue (t : TaskNode Node) : (t.enqueue env isCancelling).task.job = t.job := by
  unfold enqueue
  split
  · rfl
  · split <;> rfl

theorem job_execute (t : TaskNode Node) : (t.execute env isCancelling).task.job = t.job := by
  unfold execute
  split
  · rfl
  · split
    · rfl
    · split <;> rfl

theorem job_stop (schedules : String → Option (List (Int × Int))) (retval : Int) (output : String)
    (t : TaskNode Node) : (t.stop env isCancelling schedules retval output).task.job = t.job := by
  unfold stop
  dsimp only
  split
  · split
    · rfl
    · split <;> rfl
    · rfl
  · split
    · rfl
    · exact congrArg TaskKey.job
        (sameBut_retry env.uninitialised schedules (t.terminate retval .text output)).key

end TaskNode

namespace TaskNode

variable {schedules : String → Option (List (Int × Int))} {t t' : TaskNode Node}

/-! ## The retries that are left to a task -/

/-- The schedule is in the document, and no number of retries is negative: a negative one is counted down
for ever. -/
structure Limited (schedules : String → Option (List (Int × Int))) (t : TaskNode Node) : Prop where
  known : t.ScheduleKnown schedules
  times : ∀ n ∈ t.retryTimes, 0 ≤ n
  levels : ∀ name levels, schedules name = some levels → ∀ level ∈ levels, 0 ≤ level.2

/-- The retries of the levels that the schedule has not come to yet. -/
def laterRetries (schedules : String → Option (List (Int × Int))) (t : TaskNode Node) : Nat :=
  match t.retrySchedule.bind schedules with
  | none => 0
  | some levels => ((levels.drop (t.retryScheduleLevel.getD 0)).map fun level ↦ level.2.toNat).sum

/-- The retries of the level of the task, and of those behind it. -/
def retriesLeft (schedules : String → Option (List (Int × Int))) (t : TaskNode Node) : Nat :=
  if t.retrySchedule.isSome ∧ t.retryScheduleLevel.getD 0 = 0 then t.laterRetries schedules
  else (t.retryTimes.getD 0).toNat + t.laterRetries schedules

theorem SameRetry.limited (h : SameRetry t t') (hlimited : t.Limited schedules) :
    t'.Limited schedules := by
  constructor
  case known =>
    unfold ScheduleKnown
    rw [h.schedule]
    exact hlimited.known
  case times =>
    rw [h.times]
    exact hlimited.times
  case levels => exact hlimited.levels

theorem SameRetry.retriesLeft (h : SameRetry t t') :
    t'.retriesLeft schedules = t.retriesLeft schedules := by
  unfold TaskNode.retriesLeft laterRetries
  rw [h.schedule, h.level, h.times]

/-- What a task looks like between the steps of `retry_task`, with the times it works on: not more is left
to it than to the task it began with. -/
structure Counted (schedules : String → Option (List (Int × Int))) (first t : TaskNode Node)
    (retryTimes : Int) : Prop where
  limited : t.Limited schedules
  times : 0 ≤ retryTimes
  entered : t.retrySchedule.isSome → t.retryScheduleLevel.getD 0 ≠ 0
  left : retryTimes.toNat + t.laterRetries schedules ≤ first.retriesLeft schedules

/-- The next level takes over from those that are left. -/
theorem counted_scheduleUpdate {first : TaskNode Node} {name : String} (h : t.Limited schedules)
    (hname : t.retrySchedule = some name) (hleft : t.laterRetries schedules ≤ first.retriesLeft schedules)
    (retry : Int × Int) :
    Counted schedules first (t.scheduleUpdate schedules name retry).1
      (t.scheduleUpdate schedules name retry).2.2 := by
  unfold scheduleUpdate
  unfold laterRetries at hleft
  rw [hname, Option.bind_some] at hleft
  cases hlevels : schedules name with
  | none => exact absurd hlevels (h.known name hname)
  | some levels =>
    rw [hlevels] at hleft
    dsimp only at hleft ⊢
    rw [Nat.add_sub_cancel]
    cases hlevel : levels[t.retryScheduleLevel.getD 0]? with
    | none =>
      -- behind the last level
      refine ⟨⟨h.known, h.times, h.levels⟩, Int.le_refl 0, fun _ ↦ Nat.succ_ne_zero _, ?_⟩
      have hend : levels.drop (t.retryScheduleLevel.getD 0 + 1) = [] := by
        rw [List.drop_eq_nil_iff]
        exact Nat.le_succ_of_le (List.getElem?_eq_none_iff.mp hlevel)
      unfold laterRetries
      simp [hname, hlevels, hend]
    | some level =>
      have hnonneg := h.levels name levels hlevels level (List.mem_of_getElem? hlevel)
      refine ⟨⟨h.known, ?_, h.levels⟩, hnonneg, fun _ ↦ Nat.succ_ne_zero _, ?_⟩
      · intro n hn
        rw [← Option.some.inj hn]
        exact hnonneg
      · rcases List.getElem?_eq_some_iff.mp hlevel with ⟨hlt, hget⟩
        rw [List.drop_eq_getElem_cons hlt, List.map_cons, List.sum_cons, hget] at hleft
        unfold laterRetries
        simp only [hname, Option.bind_some, hlevels, Option.getD_some]
        exact hleft

theorem counted_retryParameters (h : t.Limited schedules) {uninitialised : Int × Int}
    {retry : Int × Int} (hsome : t.retryParameters uninitialised schedules = some (t', retry)) :
    Counted schedules t t' retry.2 := by
  unfold retryParameters at hsome
  split at hsome
  · rename_i name hname hlevel
    have hleft : t.laterRetries schedules ≤ t.retriesLeft schedules := by
      unfold TaskNode.retriesLeft
      exact Nat.le_of_eq (if_pos ⟨by simp [hname], hlevel⟩).symm
    have hcounted := counted_scheduleUpdate h hname hleft uninitialised
    rw [Option.some.inj hsome] at hcounted
    exact hcounted
  · rename_i hfirst
    have hentered : t.retrySchedule.isSome → t.retryScheduleLevel.getD 0 ≠ 0 := by
      intro hisSome hzero
      rcases Option.isSome_iff_exists.mp hisSome with ⟨name, hname⟩
      exact hfirst name hname hzero
    split at hsome
    · rename_i retryDelay retryTimes hdelay htimes
      rw [Option.some.injEq, Prod.mk.injEq] at hsome
      rw [← hsome.1, ← hsome.2]
      refine ⟨h, h.times _ htimes, hentered, ?_⟩
      unfold TaskNode.retriesLeft
      rw [if_neg fun hno ↦ hentered hno.1 hno.2, htimes]
      exact Nat.le_refl _
    · cases hsome

theorem counted_nextLevel {first : TaskNode Node} {retry : Int × Int}
    (h : Counted schedules first t retry.2) :
    Counted schedules first (t.nextLevel schedules retry).1 (t.nextLevel schedules retry).2.2 := by
  unfold nextLevel
  cases hname : t.retrySchedule with
  | none => exact h
  | some name =>
    dsimp only
    by_cases hzero : retry.2 = 0
    · rw [if_pos hzero]
      have hleft := h.left
      exact counted_scheduleUpdate h.limited hname (by omega) retry
    · rw [if_neg hzero]
      exact h

/-- Every retry that is planned takes one from those that are left. -/
theorem Limited.retry (h : t.Limited schedules) (uninitialised : Int × Int) :
    (t.retry uninitialised schedules).1.Limited schedules ∧
      ((t.retry uninitialised schedules).2 = .planned →
        (t.retry uninitialised schedules).1.retriesLeft schedules < t.retriesLeft schedules) := by
  unfold TaskNode.retry
  cases hparameters : t.retryParameters uninitialised schedules with
  | none => exact ⟨h, nofun⟩
  | some found =>
    rcases found with ⟨t', retry'⟩
    have hcounted := counted_nextLevel (counted_retryParameters h hparameters)
    dsimp only
    rcases hlevel : t'.nextLevel schedules retry' with ⟨t'', retryDelay, retryTimes⟩
    rw [hlevel] at hcounted
    have hleft := hcounted.left
    have htimes := hcounted.times
    dsimp only at hleft htimes ⊢
    by_cases hend : retryDelay = 0 ∨ retryTimes = 0
    · rw [if_pos hend]
      exact ⟨hcounted.limited, nofun⟩
    · rw [if_neg hend]
      by_cases hretval : t''.retryRetval.isSome ∧ t''.retryRetval ≠ t''.retval
      · rw [if_pos hretval]
        exact ⟨hcounted.limited, nofun⟩
      · rw [if_neg hretval]
        rw [not_or] at hend
        refine ⟨⟨hcounted.limited.known, ?_, hcounted.limited.levels⟩, fun _ ↦ ?_⟩
        · intro n hn
          rw [← Option.some.inj hn]
          omega
        · unfold TaskNode.retriesLeft
          rw [if_neg fun hno ↦ hcounted.entered hno.1 hno.2]
          show (retryTimes - 1).toNat + t''.laterRetries schedules < t.retriesLeft schedules
          omega

/-- The steps that are left to a task: it waits for a retry, is queued, is executed, and so on. -/
def stepsLeft (schedules : String → Option (List (Int × Int))) (waits : Bool) (t : TaskNode Node) : Nat :=
  if waits then 4 * t.retriesLeft schedules + 3
  else
    match t.status with
    | some .queued => 4 * t.retriesLeft schedules + 2
    | some .executing => 4 * t.retriesLeft schedules + 1
    | _ => 0

variable {env : Environment Node} {isCancelling : Bool}

theorem SameRetry.stepsLeft_queued (h : SameRetry t t') (hstatus : t'.status = some .queued) :
    t'.stepsLeft schedules false = 4 * t.retriesLeft schedules + 2 := by
  unfold stepsLeft
  rw [h.retriesLeft, hstatus]
  rfl

theorem SameRetry.stepsLeft_executing (h : SameRetry t t') (hstatus : t'.status = some .executing) :
    t'.stepsLeft schedules false = 4 * t.retriesLeft schedules + 1 := by
  unfold stepsLeft
  rw [h.retriesLeft, hstatus]
  rfl

theorem stepsLeft_over (hstatus : t.status = some .terminated ∨ t.status = some .aborted) :
    t.stepsLeft schedules false = 0 := by
  unfold stepsLeft
  rcases hstatus with hstatus | hstatus <;> simp [hstatus]

theorem stepsLeft_abort (t : TaskNode Node) (error : String) :
    (t.abort error).task.stepsLeft schedules (t.abort error).waits = 0 :=
  stepsLeft_over (.inr rfl)

/-- The next steps of a task that is queued. -/
theorem stepsLeft_enqueue (schedules : String → Option (List (Int × Int))) (env : Environment Node)
    (isCancelling : Bool) (t : TaskNode Node) :
    SameRetry t (t.enqueue env isCancelling).task ∧
      (t.enqueue env isCancelling).task.stepsLeft schedules (t.enqueue env isCancelling).waits ≤
        4 * t.retriesLeft schedules + 2 := by
  have hsame : SameRetry t (t.setStatus .queued).task := ⟨rfl, rfl, rfl, rfl⟩
  unfold enqueue
  split
  · exact ⟨⟨rfl, rfl, rfl, rfl⟩, by rw [stepsLeft_abort]; omega⟩
  · split
    · exact ⟨hsame, Nat.le_of_eq (hsame.stepsLeft_queued rfl)⟩
    · exact ⟨⟨rfl, rfl, rfl, rfl⟩, by rw [stepsLeft_abort]; omega⟩

theorem stepsLeft_execute (schedules : String → Option (List (Int × Int))) (env : Environment Node)
    (isCancelling : Bool) (t : TaskNode Node) :
    SameRetry t (t.execute env isCancelling).task ∧
      (t.execute env isCancelling).task.stepsLeft schedules (t.execute env isCancelling).waits ≤
        4 * t.retriesLeft schedules + 1 := by
  have hsame : SameRetry t (t.setStatus .executing).task := ⟨rfl, rfl, rfl, rfl⟩
  have habort (error : String) : SameRetry t (t.abort error).task ∧
      (t.abort error).task.stepsLeft schedules (t.abort error).waits ≤
        4 * t.retriesLeft schedules + 1 :=
    ⟨⟨rfl, rfl, rfl, rfl⟩, by rw [stepsLeft_abort]; omega⟩
  unfold execute
  split
  · exact habort _
  · split
    · exact habort _
    · split
      · exact ⟨hsame, Nat.le_of_eq (hsame.stepsLeft_executing rfl)⟩
      · exact habort _

/-- A task that was executed is over, or waits for a retry that was left to it. -/
theorem Limited.stop (h : t.Limited schedules) (env : Environment Node) (isCancelling : Bool)
    (retval : Int) (output : String) :
    (t.stop env isCancelling schedules retval output).task.Limited schedules ∧
      (t.stop env isCancelling schedules retval output).task.stepsLeft schedules
        (t.stop env isCancelling schedules retval output).waits ≤ 4 * t.retriesLeft schedules := by
  have hover {t' : TaskNode Node} (hsame : SameRetry t t')
      (hstatus : t'.status = some .terminated ∨ t'.status = some .aborted) :
      t'.Limited schedules ∧ t'.stepsLeft schedules false ≤ 4 * t.retriesLeft schedules :=
    ⟨hsame.limited h, by rw [stepsLeft_over hstatus]; omega⟩
  unfold TaskNode.stop
  dsimp only
  split
  · split
    · exact hover ⟨rfl, rfl, rfl, rfl⟩ (.inr rfl)
    · split
      · exact hover ⟨rfl, rfl, rfl, rfl⟩ (.inl rfl)
      · exact hover ⟨rfl, rfl, rfl, rfl⟩ (.inr rfl)
    · exact hover ⟨rfl, rfl, rfl, rfl⟩ (.inl rfl)
  · split
    · exact hover ⟨rfl, rfl, rfl, rfl⟩ (.inl rfl)
    · -- `retry_task` decides
      have hsame : SameRetry t (t.terminate retval .text output) := ⟨rfl, rfl, rfl, rfl⟩
      have hretry := (hsame.limited h).retry env.uninitialised
      have hkey := (sameBut_retry env.uninitialised schedules (t.terminate retval .text output)).key
      rw [hsame.retriesLeft] at hretry
      refine ⟨hretry.1, ?_⟩
      dsimp only
      cases houtcome : ((t.terminate retval .text output).retry env.uninitialised schedules).2 with
      | planned =>
        have hlt := hretry.2 houtcome
        show 4 * _ + 3 ≤ _
        omega
      | exhausted =>
        rw [show decide (Retry.exhausted = Retry.planned) = false from rfl,
          stepsLeft_over (.inl (congrArg TaskKey.status hkey))]
        exact Nat.zero_le _
      | passedOver =>
        rw [show decide (Retry.passedOver = Retry.planned) = false from rfl,
          stepsLeft_over (.inl (congrArg TaskKey.status hkey))]
        exact Nat.zero_le _

end TaskNode

namespace WorkflowInstance

variable {env : Environment Node} {s s' : WorkflowInstance Node} {id : Nat} {task : TaskNode Node}
variable {standing : Standing Node}

/-- The call brings task `id` to this standing, and leaves the other tasks, the jobs and the trace alone. -/
structure Acts (id : Nat) (standing : Standing Node) (s s' : WorkflowInstance Node) : Prop where
  task : Document.Replaced id standing.task s.doc s'.doc
  waits : id ∈ s'.retrier ↔ standing.waits = true
  others : ∀ x ≠ id, (x ∈ s'.retrier ↔ x ∈ s.retrier)
  errors : s'.errorTally = s.errorTally + standing.failed.toNat
  trace : s'.trace = s.trace
  isCancelling : s'.isCancelling = s.isCancelling

theorem acts_abort (hfind : s.doc.task? id = some task) (error : String)
    (hdoc : s'.doc = (s.abortTask id error).doc) (hout : id ∉ s'.retrier)
    (hothers : ∀ x ≠ id, (x ∈ s'.retrier ↔ x ∈ s.retrier)) (herrors : s'.errorTally = s.errorTally + 1)
    (htrace : s'.trace = s.trace) (hcancel : s'.isCancelling = s.isCancelling) :
    Acts id (task.abort error) s s' := by
  refine ⟨?_, iff_of_false hout Bool.false_ne_true, hothers, herrors, htrace, hcancel⟩
  rw [hdoc]
  exact Document.replaced_setTask (fun _ ↦ rfl) hfind rfl

theorem acts_setStatus (hfind : s.doc.task? id = some task) (status : TaskStatus)
    (hdoc : s'.doc = (s.setTask id fun t ↦ { t with status := some status }).doc)
    (hout : id ∉ s'.retrier) (hothers : ∀ x ≠ id, (x ∈ s'.retrier ↔ x ∈ s.retrier))
    (herrors : s'.errorTally = s.errorTally) (htrace : s'.trace = s.trace)
    (hcancel : s'.isCancelling = s.isCancelling) : Acts id (task.setStatus status) s s' := by
  refine ⟨?_, iff_of_false hout Bool.false_ne_true, hothers, ?_, htrace, hcancel⟩
  · rw [hdoc]
    exact Document.replaced_setTask (fun _ ↦ rfl) hfind rfl
  · rw [herrors]
    exact (Int.add_zero _).symm

theorem acts_enqueueTask (env : Environment Node) (hfind : s.doc.task? id = some task)
    (hout : id ∉ s.retrier) :
    Acts id (task.enqueue env s.isCancelling) s (s.enqueueTask env id) := by
  unfold enqueueTask TaskNode.enqueue
  rw [hfind]
  dsimp only
  by_cases hcancel : s.isCancelling = true
  · rw [if_pos hcancel, if_pos hcancel]
    exact acts_abort hfind _ rfl hout (fun _ _ ↦ Iff.rfl) rfl rfl rfl
  · rw [if_neg hcancel, if_neg hcancel]
    by_cases hqueue : env.enqueueTask task.queue = true
    · rw [if_pos hqueue, if_pos hqueue]
      exact acts_setStatus hfind .queued rfl hout (fun _ _ ↦ Iff.rfl) rfl rfl rfl
    · rw [if_neg hqueue, if_neg hqueue]
      exact acts_abort hfind _ rfl hout (fun _ _ ↦ Iff.rfl) rfl rfl rfl

theorem acts_taskExecute (env : Environment Node) (hfind : s.doc.task? id = some task)
    (hout : id ∉ s.retrier) : Acts id (task.execute env s.isCancelling) s
      ({ s with queued := s.queued.erase id }.taskExecute env id).1 := by
  unfold taskExecute TaskNode.execute
  dsimp only
  rw [hfind]
  dsimp only
  by_cases hcancel : s.isCancelling = true
  · rw [if_pos hcancel, if_pos hcancel]
    exact acts_abort hfind _ rfl hout (fun _ _ ↦ Iff.rfl) rfl rfl rfl
  · rw [if_neg hcancel, if_neg hcancel]
    cases env.getTask task.name with
    | none => exact acts_abort hfind _ rfl hout (fun _ _ ↦ Iff.rfl) rfl rfl rfl
    | some method =>
      dsimp only
      by_cases hfork : env.fork = true
      · rw [if_pos hfork, if_pos hfork]
        exact acts_setStatus hfind .executing rfl hout (fun _ _ ↦ Iff.rfl) rfl rfl rfl
      · rw [if_neg hfork, if_neg hfork]
        exact acts_abort hfind _ rfl hout (fun _ _ ↦ Iff.rfl) rfl rfl rfl

/-- The event of the task was taken from the retrier. -/
theorem acts_taskRestart (env : Environment Node) (hfind : s.doc.task? id = some task)
    (hnodup : s.retrier.Nodup) : Acts id (task.enqueue env s.isCancelling) s
      ({ s with retrier := s.retrier.erase id }.taskRestart env id).1 := by
  have hout : id ∉ s.retrier.erase id := by
    rw [hnodup.mem_erase_iff]
    exact fun hin ↦ hin.1 rfl
  have hacts := acts_enqueueTask (s := { s with retrier := s.retrier.erase id }) env hfind hout
  refine ⟨hacts.task, hacts.waits, ?_, hacts.errors, hacts.trace, hacts.isCancelling⟩
  intro x hne
  exact (hacts.others x hne).trans (List.mem_erase_of_ne hne)

theorem acts_recordStop (env : Environment Node) (hfind : s.doc.task? id = some task)
    (hout : id ∉ s.retrier) (retval : Int) (output : String) :
    Acts id (task.stop env s.isCancelling s.doc.schedules retval output) s
      (s.recordStop env task retval output) := by
  have htid := (task?_spec hfind).2
  subst htid
  by_cases hretry : retval ≠ 0 ∧ s.isCancelling = false
  · -- `retry_task` decides
    rcases recordStop_failed env hfind hretry.2 hretry.1 output with ⟨d, hd, heq⟩
    unfold TaskNode.stop
    dsimp only
    rw [if_neg hretry.1, hretry.2, if_neg Bool.false_ne_true, heq]
    have hsame : task.terminate retval .text output = stopped task retval output := rfl
    rw [hsame]
    cases houtcome : ((stopped task retval output).retry env.uninitialised s.doc.schedules).2 with
    | exhausted =>
      refine ⟨hd, iff_of_false hout nofun, fun _ _ ↦ Iff.rfl, rfl, rfl, rfl⟩
    | passedOver =>
      refine ⟨hd, iff_of_false hout nofun, fun _ _ ↦ Iff.rfl, (Int.add_zero _).symm, rfl, rfl⟩
    | planned =>
      refine ⟨hd, iff_of_true ?_ rfl, ?_, (Int.add_zero _).symm, rfl, rfl⟩
      · exact List.mem_append_right _ (List.mem_singleton.mpr rfl)
      · intro x hne
        show x ∈ s.retrier ++ [task.id] ↔ _
        rw [List.mem_append, List.mem_singleton]
        exact or_iff_left hne
  · have hstop : Document.Replaced task.id
        { task with
          status := some .terminated
          retval := some retval } s.doc (s.setTask task.id fun t ↦
        { t with
          status := some .terminated
          retval := some retval }).doc :=
      Document.replaced_setTask (fun _ ↦ rfl) hfind rfl
    -- the status and the output are written one behind the other
    have houtput (method : OutputMethod) : Document.Replaced task.id (task.terminate retval method output)
        s.doc _ := hstop.trans (Document.replaced_setTask
      (f := fun t ↦ { t with outputs := t.outputs ++ [⟨retval, method, output⟩] }) (fun _ ↦ rfl)
      hstop.task rfl)
    unfold recordStop TaskNode.stop
    dsimp only
    by_cases hzero : retval = 0
    · rw [if_pos hzero, if_pos hzero]
      have habort (error : String) := acts_abort hstop.task error rfl hout (fun _ _ ↦ Iff.rfl) rfl rfl rfl
      have hvanished (error : String) := (habort error).task
      cases env.getTask task.name with
      | none =>
        exact ⟨hstop.trans (hvanished _), iff_of_false hout nofun, fun _ _ ↦ Iff.rfl, rfl, rfl, rfl⟩
      | some method =>
        cases method with
        | text =>
          exact ⟨houtput .text, iff_of_false hout nofun, fun _ _ ↦ Iff.rfl, (Int.add_zero _).symm, rfl,
            rfl⟩
        | xml =>
          dsimp only
          by_cases hxml : env.isXml output = true
          · rw [if_pos hxml, if_pos hxml]
            exact ⟨houtput .xml, iff_of_false hout nofun, fun _ _ ↦ Iff.rfl, (Int.add_zero _).symm, rfl,
              rfl⟩
          · rw [if_neg hxml, if_neg hxml]
            exact ⟨hstop.trans (hvanished _), iff_of_false hout nofun, fun _ _ ↦ Iff.rfl, rfl, rfl, rfl⟩
    · -- the task failed while the instance is being cancelled
      have hcancel : s.isCancelling = true := by
        by_contra hno
        exact hretry ⟨hzero, Bool.eq_false_iff.mpr hno⟩
      rw [if_neg hzero, if_neg hzero, if_pos hcancel, if_pos (by exact hcancel)]
      refine ⟨(houtput .text).trans (Document.replaced_setTask
        (f := fun t ↦ { t with error := some "Won't retry because workflow is cancelling" })
        (fun _ ↦ rfl) (houtput .text).task rfl), iff_of_false hout nofun, fun _ _ ↦ Iff.rfl,
        (Int.add_zero _).symm, rfl, rfl⟩

end WorkflowInstance

end EvQueue
