import EvQueue.WorkflowInstanceEnds

/-!
# WorkflowInstanceRecords — what the document keeps of a task

The document is the only record of what the tasks returned, and a savepoint of it is all that is left of an
instance.  A task that something has happened to stays in the document with what it was started with, and
every end that is reported for it adds one output behind the others.
-/

namespace EvQueue

open Runs

variable {Node : Type}

namespace TaskNode

variable {t t' t'' : TaskNode Node} {uninitialised : Int × Int}
variable {schedules : String → Option (List (Int × Int))}

/-- Only the attributes that `retry_task` counts with are changed. -/
def Rescheduled (t t' : TaskNode Node) : Prop :=
  ∃ retryScheduleLevel retryDelay retryTimes, t' = { t with
    retryScheduleLevel
    retryDelay
    retryTimes }

theorem Rescheduled.refl (t : TaskNode Node) : Rescheduled t t :=
  ⟨t.retryScheduleLevel, t.retryDelay, t.retryTimes, rfl⟩

theorem Rescheduled.trans (h : Rescheduled t t') (h' : Rescheduled t' t'') : Rescheduled t t'' := by
  rcases h with ⟨level, delay, times, heq⟩
  rcases h' with ⟨level', delay', times', heq'⟩
  exact ⟨level', delay', times', by rw [heq', heq]⟩

theorem rescheduled_scheduleUpdate (schedules : String → Option (List (Int × Int))) (t : TaskNode Node)
    (scheduleName : String) (retry : Int × Int) :
    Rescheduled t (t.scheduleUpdate schedules scheduleName retry).1 := by
  unfold scheduleUpdate
  cases schedules scheduleName with
  | none => exact Rescheduled.refl t
  | some levels =>
    dsimp only
    split <;> exact ⟨_, _, _, rfl⟩

theorem rescheduled_retryParameters {retry' : Int × Int}
    (h : t.retryParameters uninitialised schedules = some (t', retry')) : Rescheduled t t' := by
  unfold retryParameters at h
  split at h
  · rename_i name _ _
    have hupdate := rescheduled_scheduleUpdate schedules t name uninitialised
    rw [Option.some.inj h] at hupdate
    exact hupdate
  · split at h
    · have heq : t = t' := congrArg Prod.fst (Option.some.inj h)
      rw [← heq]
      exact Rescheduled.refl t
    · cases h

theorem rescheduled_nextLevel (schedules : String → Option (List (Int × Int))) (t : TaskNode Node)
    (retry : Int × Int) : Rescheduled t (t.nextLevel schedules retry).1 := by
  unfold nextLevel
  cases t.retrySchedule with
  | none => exact Rescheduled.refl t
  | some name =>
    dsimp only
    split
    · exact rescheduled_scheduleUpdate schedules t name retry
    · exact Rescheduled.refl t

theorem rescheduled_retry (uninitialised : Int × Int) (schedules : String → Option (List (Int × Int)))
    (t : TaskNode Node) : Rescheduled t (t.retry uninitialised schedules).1 := by
  unfold TaskNode.retry
  cases hparameters : t.retryParameters uninitialised schedules with
  | none => exact Rescheduled.refl t
  | some found =>
    rcases found with ⟨t', retry'⟩
    have hlevel := (rescheduled_retryParameters hparameters).trans (rescheduled_nextLevel schedules t' retry')
    dsimp only
    generalize t'.nextLevel schedules retry' = next at hlevel
    split
    · exact hlevel
    · split
      · exact hlevel
      · exact hlevel.trans ⟨_, _, _, rfl⟩

/-! ## Records -/

/-- Nothing can become of the task any more. -/
def isFinal (t : TaskNode Node) : Bool := t.successful ∨ t.status = some .aborted

/-- The task later: `added` was recorded in between. -/
structure Records (t t' : TaskNode Node) (added : List Output) : Prop where
  id : t'.id = t.id
  job : t'.job = t.job
  name : t'.name = t.name
  queue : t'.queue = t.queue
  loop : t'.loop = t.loop
  details : t'.details = t.details
  content : t'.content = t.content
  retrySchedule : t'.retrySchedule = t.retrySchedule
  retryRetval : t'.retryRetval = t.retryRetval
  outputs : t'.outputs = t.outputs ++ added
  status : t'.status ≠ none
  isFinal : t.isFinal = true → t' = t

theorem Records.refl (hstatus : t.status ≠ none) : Records t t [] :=
  ⟨rfl, rfl, rfl, rfl, rfl, rfl, rfl, rfl, rfl, (List.append_nil _).symm, hstatus, fun _ ↦ rfl⟩

theorem Records.trans {added added' : List Output} (h : Records t t' added) (h' : Records t' t'' added') :
    Records t t'' (added ++ added') where
  id := h'.id.trans h.id
  job := h'.job.trans h.job
  name := h'.name.trans h.name
  queue := h'.queue.trans h.queue
  loop := h'.loop.trans h.loop
  details := h'.details.trans h.details
  content := h'.content.trans h.content
  retrySchedule := h'.retrySchedule.trans h.retrySchedule
  retryRetval := h'.retryRetval.trans h.retryRetval
  outputs := by rw [h'.outputs, h.outputs, List.append_assoc]
  status := h'.status
  isFinal := by
    intro hfinal
    have heq := h.isFinal hfinal
    rw [heq] at h'
    exact h'.isFinal hfinal

theorem not_final_of_active (h : t.status = some .queued ∨ t.status = some .executing) :
    t.isFinal = false := by
  unfold TaskNode.isFinal successful
  rcases h with h | h <;> simp [h]

theorem not_final_of_failed (h : t.status = some .terminated) (hretval : t.retval ≠ some 0) :
    t.isFinal = false := by
  unfold TaskNode.isFinal successful
  simp [h, hretval]

/-- A call that brings a status, an error, or the attributes of the retries. -/
theorem Records.of_not_final (hnot : t.isFinal = false) {status : TaskStatus} {added : List Output}
    {retval : Option Int} {error : Option String} {t' : TaskNode Node}
    (h : Rescheduled
      { t with
        status := some status
        retval
        error
        outputs := t.outputs ++ added } t') : Records t t' added := by
  rcases h with ⟨level, delay, times, heq⟩
  rw [heq]
  refine ⟨rfl, rfl, rfl, rfl, rfl, rfl, rfl, rfl, rfl, rfl, Option.some_ne_none _, ?_⟩
  intro hfinal
  rw [hnot] at hfinal
  cases hfinal

variable {env : Environment Node} {isCancelling : Bool}

theorem records_unchanged (hnot : t.isFinal = false) (status : TaskStatus) (retval : Option Int)
    (error : Option String) : Records t { t with
      status := some status
      retval
      error } [] := by
  have h : Records t { t with
      status := some status
      retval
      error
      outputs := t.outputs ++ [] } [] := .of_not_final hnot (.refl _)
  rw [List.append_nil] at h
  exact h

theorem records_enqueue (env : Environment Node) (isCancelling : Bool) (hnot : t.isFinal = false) :
    Records t (t.enqueue env isCancelling).task [] := by
  unfold enqueue
  split
  · exact records_unchanged hnot .aborted _ _
  · split
    · exact records_unchanged hnot .queued _ _
    · exact records_unchanged hnot .aborted _ _

theorem records_execute (env : Environment Node) (isCancelling : Bool) (hnot : t.isFinal = false) :
    Records t (t.execute env isCancelling).task [] := by
  unfold execute
  split
  · exact records_unchanged hnot .aborted _ _
  · split
    · exact records_unchanged hnot .aborted _ _
    · split
      · exact records_unchanged hnot .executing _ _
      · exact records_unchanged hnot .aborted _ _

/-- What `TaskStop` writes down for a task of this name: nothing when the task has vanished, or has not
returned the XML it was to return. -/
def reported (env : Environment Node) (name : String) (retval : Int) (output : String) : List Output :=
  if retval = 0 then
    match env.getTask name with
    | none => []
    | some .xml => if env.isXml output then [⟨retval, .xml, output⟩] else []
    | some .text => [⟨retval, .text, output⟩]
  else [⟨retval, .text, output⟩]

theorem records_stop (env : Environment Node) (isCancelling : Bool)
    (schedules : String → Option (List (Int × Int))) (hnot : t.isFinal = false) (retval : Int)
    (output : String) : Records t (t.stop env isCancelling schedules retval output).task
      (reported env t.name retval output) := by
  unfold stop reported
  dsimp only
  by_cases hzero : retval = 0
  · rw [if_pos hzero, if_pos hzero]
    cases env.getTask t.name with
    | none => exact records_unchanged hnot .aborted (some retval) _
    | some method =>
      cases method with
      | text => exact .of_not_final hnot (.refl _)
      | xml =>
        dsimp only
        by_cases hxml : env.isXml output = true
        · rw [if_pos hxml, if_pos hxml]
          exact .of_not_final hnot (.refl _)
        · rw [if_neg hxml, if_neg hxml]
          exact records_unchanged hnot .aborted (some retval) _
  · rw [if_neg hzero, if_neg hzero]
    split
    · exact .of_not_final hnot (.refl _)
    · exact .of_not_final hnot (rescheduled_retry _ _ _)

/-- `Resume` adds no output. -/
theorem records_resumed (env : Environment Node) (schedules : String → Option (List (Int × Int)))
    (hstatus : t.status ≠ none) : Records t (t.resumed env schedules).1 [] := by
  unfold resumed
  split
  · rename_i hqueued
    have hnot := not_final_of_active (.inl hqueued)
    split
    · exact records_unchanged hnot .queued _ _
    · exact records_unchanged hnot .aborted _ _
  · exact Records.refl hstatus
  · rename_i hterminated
    split
    · exact Records.refl hstatus
    · rename_i hretval
      rcases rescheduled_retry env.uninitialised schedules t with ⟨level, delay, times, heq⟩
      rw [heq]
      refine ⟨rfl, rfl, rfl, rfl, rfl, rfl, rfl, rfl, rfl, (List.append_nil _).symm, hstatus, ?_⟩
      intro hfinal
      rw [not_final_of_failed hterminated hretval] at hfinal
      cases hfinal
  · exact Records.refl hstatus

end TaskNode

namespace Lifetime

variable {env : Environment Node} {l l' : Lifetime Node} {id : Nat} {t : TaskNode Node}
variable {transition : Transition Node}

/-- What a call writes down for task `id`, which has this name. -/
def reported (id : Nat) (name : String) : Transition Node → List Output
  | .call (.taskStop env x retval output) =>
      if x = id then TaskNode.reported env name retval output else []
  | _ => []

/-- Task `id` is still there, and `added` was recorded for it. -/
def Keeps (id : Nat) (t : TaskNode Node) (added : List Output) (l : Lifetime Node) : Prop :=
  ∃ t', l.workflow.doc.task? id = some t' ∧ t.Records t' added

theorem keeps_taskExecute {x : Nat} (h : l.Sound) (hfind : l.workflow.doc.task? id = some t)
    (hstatus : t.status ≠ none) (hstep : l.step (.taskExecute env x) = some l') : Keeps id t [] l' := by
  rcases step_taskExecute hstep with ⟨hqueued, heq⟩
  rw [heq]
  by_cases hx : x = id
  · rw [hx] at hqueued ⊢
    rcases WorkflowInstance.task?_of_queued h.inv hqueued with ⟨task, htask, hactive⟩
    rw [hfind, Option.some.injEq] at htask
    rw [← htask] at hactive
    have hout := WorkflowInstance.notMem_retrier h.inv hfind (by simp [hactive])
    exact ⟨_, (WorkflowInstance.acts_taskExecute env hfind hout).task.task,
      TaskNode.records_execute env _ (TaskNode.not_final_of_active (.inl hactive))⟩
  · have hapart := WorkflowInstance.apart_taskExecute env
      { l.workflow with queued := l.workflow.queued.erase x } (Ne.symm hx)
    exact ⟨t, hapart.task.trans hfind, TaskNode.Records.refl hstatus⟩

theorem keeps_taskRestart {x : Nat} (h : l.Sound) (hfind : l.workflow.doc.task? id = some t)
    (hstatus : t.status ≠ none) (hstep : l.step (.taskRestart env x) = some l') : Keeps id t [] l' := by
  rcases step_taskRestart hstep with ⟨hin, heq⟩
  rw [heq]
  by_cases hx : x = id
  · rw [hx] at hin ⊢
    rcases h.inv.retrier id hin with ⟨key, hkey, hid, hterminated, hretval⟩
    have hsame := h.inv.task_unique hkey (WorkflowInstance.key_mem hfind)
      (hid.trans (WorkflowInstance.task?_spec hfind).2.symm)
    rw [hsame] at hterminated hretval
    exact ⟨_, (WorkflowInstance.acts_taskRestart env hfind h.inv.retrierNodup).task.task,
      TaskNode.records_enqueue env _ (TaskNode.not_final_of_failed hterminated hretval)⟩
  · have hapart := WorkflowInstance.apart_taskRestart env l.workflow (Ne.symm hx)
    exact ⟨t, hapart.task.trans hfind, TaskNode.Records.refl hstatus⟩

/-- The jobs that the end of the task launches leave its record alone. -/
theorem keeps_taskStop {x : Nat} {retval : Int} {output : String} (h : l.Sound)
    (hfind : l.workflow.doc.task? id = some t) (hstatus : t.status ≠ none)
    (hstep : l.step (.taskStop env x retval output) = some l') :
    Keeps id t (reported id t.name (.call (.taskStop env x retval output))) l' := by
  rcases step_taskStop hstep with ⟨other, hother, hexecuting, heq⟩
  unfold reported
  dsimp only
  rw [heq]
  by_cases hx : x = id
  · rw [hx] at hother ⊢
    rw [hfind, Option.some.injEq] at hother
    rw [← hother] at hexecuting
    rw [if_pos rfl]
    have hout := WorkflowInstance.notMem_retrier h.inv hfind (by simp [hexecuting])
    have hrecords := TaskNode.records_stop env l.workflow.isCancelling l.workflow.doc.schedules
      (TaskNode.not_final_of_active (.inr hexecuting)) retval output
    have hacts := WorkflowInstance.acts_recordStop env hfind hout retval output
    refine ⟨_, ?_, hrecords⟩
    have hinv := WorkflowInstance.recordStop_inv env h.inv hfind hexecuting retval output
    have hlast {s' : WorkflowInstance Node} (hs' : l.workflow.recordStop env t retval output = s') :=
      WorkflowInstance.recordStop_last env h.inv hfind hexecuting retval output hs'
    unfold after WorkflowInstance.taskStop
    rw [hfind]
    dsimp only
    generalize hrecord : l.workflow.recordStop env t retval output = s' at hinv hacts
    by_cases hall : (s'.doc.tasksOf t.job).length = (s'.doc.tasksOf t.job).countP TaskNode.successful
    · rw [if_pos hall]
      have hready := hlast hrecord hall
      exact (WorkflowInstance.runSubjobs_holding env hinv hready.1 hready.2.1 (fun _ ↦ hready.2.2)
        ⟨hacts.task.task, hrecords.status⟩).1
    · rw [if_neg hall]
      exact hacts.task.task
  · rw [if_neg hx]
    have hapart := WorkflowInstance.apart_taskStop env h.inv hfind hstatus (Ne.symm hx) hother hexecuting
      retval output
    exact ⟨t, hapart.task.trans hfind, TaskNode.Records.refl hstatus⟩

theorem keeps_restart {order : List Nat} (h : l.Sound) (hfind : l.workflow.doc.task? id = some t)
    (hstatus : t.status ≠ none) (hstep : l.restart env order = some l') : Keeps id t [] l' := by
  rcases restart_cases hstep with ⟨-, horder, heq⟩
  have hnodup := WorkflowInstance.tasksNodup_of_inv h.inv
  have hrecords := TaskNode.records_resumed env l.workflow.doc.schedules hstatus
  have hloop : WorkflowInstance.Resumption env order
      (WorkflowInstance.fromSavepoint l.workflow.doc l.workflow.trace) l'.workflow := by
    rw [heq]
    exact WorkflowInstance.resumption_foldl
      (horder.nodup_iff.mpr (WorkflowInstance.found_nodup hnodup)) rfl
  have hmem : (t.resumed env l.workflow.doc.schedules).1 ∈ l'.workflow.doc.tasks := by
    rw [hloop.tasks hnodup horder]
    exact List.mem_map_of_mem (List.mem_of_find?_eq_some hfind)
  have hunique : (l'.workflow.doc.tasks.map TaskNode.id).Nodup := by
    rw [hloop.ids]
    exact hnodup
  have hnew := WorkflowInstance.task?_of_nodup hunique hmem
  rw [hrecords.id, (WorkflowInstance.task?_spec hfind).2] at hnew
  exact ⟨_, hnew, hrecords⟩

/-- One call or restart. -/
theorem keeps_proceed (h : l.Sound) (hfind : l.workflow.doc.task? id = some t)
    (hstatus : t.status ≠ none) (hstep : l.proceed transition = some l') :
    Keeps id t (reported id t.name transition) l' := by
  cases transition with
  | call operation =>
    cases operation with
    | taskExecute env x => exact keeps_taskExecute h hfind hstatus hstep
    | taskStop env x retval output => exact keeps_taskStop h hfind hstatus hstep
    | taskRestart env x => exact keeps_taskRestart h hfind hstatus hstep
    | cancel =>
      rcases step_cancel hstep with ⟨-, heq⟩
      rw [heq]
      exact ⟨t, hfind, TaskNode.Records.refl hstatus⟩
  | restart env order => exact keeps_restart h hfind hstatus hstep

theorem keeps_run {transitions : List (Transition Node)} (h : l.Sound)
    (hfind : l.workflow.doc.task? id = some t) (hstatus : t.status ≠ none)
    (hrun : run proceed l transitions = some l') :
    Keeps id t (transitions.flatMap (reported id t.name)) l' := by
  induction transitions generalizing l t with
  | nil =>
    rw [run_nil, Option.some.injEq] at hrun
    rw [← hrun]
    exact ⟨t, hfind, TaskNode.Records.refl hstatus⟩
  | cons transition transitions ih =>
    rcases run_cons_eq_some hrun with ⟨next, hstep, hrest⟩
    rcases keeps_proceed h hfind hstatus hstep with ⟨t', hfind', hrecords⟩
    rcases ih (proceed_sound h hstep) hfind' hrecords.status hrest with ⟨t'', hfind'', hrecords'⟩
    rw [hrecords.name] at hrecords'
    exact ⟨t'', hfind'', hrecords.trans hrecords'⟩

/-- **No record is lost.**  A task that something has happened to is in the document for good, through every
call and every restart of the engine.  What it was started with stays, its outputs are those it had and
behind them exactly what was reported for it since, in this order, and a successful or aborted task does not
change at all. -/
theorem records_of_run (env : Environment Node) (doc : Document Node)
    (first rest : List (Transition Node)) (l l' : Lifetime Node) (id : Nat) (t : TaskNode Node)
    (hdoc : doc.WellFormed) (hfirst : run proceed (start env doc) first = some l)
    (hrest : run proceed l rest = some l') (hfind : l.workflow.doc.task? id = some t)
    (hstatus : t.status ≠ none) : ∃ t', l'.workflow.doc.task? id = some t' ∧
      t.Records t' (rest.flatMap (reported id t.name)) :=
  keeps_run (proceed_run_sound hdoc hfirst) hfind hstatus hrest

/-- The second task returns a result behind the restart; the first one has failed. -/
theorem records_restartedAndEnded : ∃ l l' t t',
    run proceed (start twoNodes twoTasks) firstFails = some l ∧
    run proceed l restartedAndEnded = some l' ∧ l.workflow.doc.task? 3 = some t ∧
    l'.workflow.doc.task? 3 = some t' ∧ t'.outputs = t.outputs ++ [⟨0, .text, ""⟩] := by
  rcases records_of_run twoNodes twoTasks firstFails restartedAndEnded _ _ 3 _ twoTasks_wellFormed rfl rfl
    rfl (by decide) with ⟨t', hfind, hrecords⟩
  exact ⟨_, _, _, t', rfl, rfl, rfl, hfind, hrecords.outputs⟩

end Lifetime

end EvQueue
