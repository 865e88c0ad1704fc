import EvQueue.Base.Descent
import EvQueue.WorkflowInstanceCourses
import EvQueue.WorkflowInstanceJobLoops

/-!
# WorkflowInstanceOutcome — what a workflow comes to, in whatever order its tasks run

Where a workflow has no loops, no conditions and no computed inputs, it can be told beforehand what it comes
to: each task goes its own course, which depends on its results alone, and the tasks of a job are started
when all tasks of its parent end successfully.  The calls of the engine compute just that, whatever their
order is.
-/

namespace EvQueue

open Runs

variable {Node : Type}

/-! ## The outcome of a task -/

namespace Standing

variable (env : Environment Node) (schedules : String → Option (List (Int × Int)))
variable (results : Nat → Nat → Int × String)

/-- What is done with the task next; `results` has the return value and the output of each of its
executions. -/
def next (e : Standing Node) : Option (Standing Node) :=
  if e.waits then some (e.task.enqueue env false)
  else
    match e.task.status with
    | some .queued => some (e.task.execute env false)
    | some .executing =>
        let result := results e.task.id e.task.outputs.length
        some (e.task.stop env false schedules result.1 result.2)
    | _ => none

/-- Nothing has happened to the task. -/
def fresh (t : TaskNode Node) : Standing Node := ⟨t, false, false⟩

end Standing

/-- Where a task that is started ends. -/
def TaskNode.outcome (env : Environment Node) (schedules : String → Option (List (Int × Int)))
    (results : Nat → Nat → Int × String) (t : TaskNode Node) : Standing Node :=
  follow (Standing.next env schedules results) (4 * t.retriesLeft schedules + 2) (t.enqueue env false)

/-! ## The outcome of a workflow -/

namespace Document

variable (env : Environment Node) (results : Nat → Nat → Int × String) (d : Document Node)

/-- No job has a condition or a loop, no task has a loop, and no input is computed. -/
structure Plain : Prop where
  jobs : ∀ j ∈ d.jobs, j.condition = none ∧ j.loop = none
  tasks : ∀ t ∈ d.tasks, t.loop = none ∧ ∀ c ∈ t.content, ∀ select, c ≠ .value select ∧ c ≠ .copy select

/-- The job has tasks, and all of them end successfully when they are started. -/
def succeeds (job : Nat) : Bool :=
  !(d.tasksOf job).isEmpty &&
    (d.tasksOf job).all fun t ↦ (t.outcome env d.schedules results).task.successful

/-- The jobs whose subjobs are started: the document element, and below it every job that succeeds. -/
def launches : List Nat := descendants [0] (d.jobs.filter fun j ↦ d.succeeds env results j.id)

def starts (t : TaskNode Node) : Bool :=
  d.jobs.any fun j ↦ j.id = t.job ∧ j.parent ∈ d.launches env results

/-- What the workflow comes to. -/
def outcome : Document Node :=
  { d with
    tasks := d.tasks.map fun t ↦
      if d.starts env results t then (t.outcome env d.schedules results).task else t }

def errors : Nat :=
  d.tasks.countP fun t ↦ d.starts env results t && (t.outcome env d.schedules results).failed

end Document

/-! ## The course of a task -/

namespace Standing

variable {env : Environment Node} {schedules : String → Option (List (Int × Int))}
variable {results : Nat → Nat → Int × String} {e e' : Standing Node} {t : TaskNode Node}

/-- The task is over: nothing is done with it any more. -/
structure Over (e : Standing Node) : Prop where
  waits : e.waits = false
  status : e.task.status = some .terminated ∨ e.task.status = some .aborted

/-- What every call leaves: the place of the task, and a task that is over where an error was counted. -/
structure Follows (t : TaskNode Node) (e : Standing Node) : Prop where
  id : e.task.id = t.id
  job : e.task.job = t.job
  status : e.task.status ≠ none
  failed : e.failed = true → e.Over

theorem Over.next (h : e.Over) : e.next env schedules results = none := by
  unfold Standing.next
  rw [h.waits, if_neg Bool.false_ne_true]
  rcases h.status with hstatus | hstatus <;> rw [hstatus]

theorem follows_abort (hid : e.task.id = t.id) (hjob : e.task.job = t.job) (error : String) :
    Follows t (e.task.abort error) :=
  ⟨hid, hjob, nofun, fun _ ↦ ⟨rfl, .inr rfl⟩⟩

theorem follows_enqueue (hid : e.task.id = t.id) (hjob : e.task.job = t.job) (isCancelling : Bool) :
    Follows t (e.task.enqueue env isCancelling) := by
  unfold TaskNode.enqueue
  split
  · exact follows_abort hid hjob _
  · split
    · exact ⟨hid, hjob, nofun, nofun⟩
    · exact follows_abort hid hjob _

theorem follows_execute (hid : e.task.id = t.id) (hjob : e.task.job = t.job) (isCancelling : Bool) :
    Follows t (e.task.execute env isCancelling) := by
  unfold TaskNode.execute
  split
  · exact follows_abort hid hjob _
  · split
    · exact follows_abort hid hjob _
    · split
      · exact ⟨hid, hjob, nofun, nofun⟩
      · exact follows_abort hid hjob _

theorem follows_stop (hid : e.task.id = t.id) (hjob : e.task.job = t.job) (isCancelling : Bool)
    (retval : Int) (output : String) :
    Follows t (e.task.stop env isCancelling schedules retval output) := by
  unfold TaskNode.stop
  dsimp only
  split
  · split
    · exact ⟨hid, hjob, nofun, fun _ ↦ ⟨rfl, .inr rfl⟩⟩
    · split
      · exact ⟨hid, hjob, nofun, nofun⟩
      · exact ⟨hid, hjob, nofun, fun _ ↦ ⟨rfl, .inr rfl⟩⟩
    · exact ⟨hid, hjob, nofun, nofun⟩
  · split
    · exact ⟨hid, hjob, nofun, nofun⟩
    · have hsame := TaskNode.sameBut_retry env.uninitialised schedules
        (e.task.terminate retval .text output)
      have hstatus := congrArg TaskKey.status hsame.key
      refine ⟨hsame.id.trans hid, (congrArg TaskKey.job hsame.key).trans hjob, ?_, ?_⟩
      · intro hnone
        cases hstatus.symm.trans hnone
      · intro hfailed
        have hexhausted := of_decide_eq_true hfailed
        exact ⟨decide_eq_false (by rw [hexhausted]; exact nofun), .inl hstatus⟩

theorem Follows.step (h : Follows t e) (hnext : e.next env schedules results = some e') :
    Follows t e' := by
  unfold Standing.next at hnext
  split at hnext
  · rw [← Option.some.inj hnext]
    exact follows_enqueue h.id h.job false
  · split at hnext
    · rw [← Option.some.inj hnext]
      exact follows_execute h.id h.job false
    · rw [← Option.some.inj hnext]
      exact follows_stop h.id h.job false _ _
    · cases hnext

/-- Nothing has happened to the task, or it is on the course that begins with `enqueue_task`. -/
def Course (env : Environment Node) (schedules : String → Option (List (Int × Int)))
    (results : Nat → Nat → Int × String) (t : TaskNode Node) (e : Standing Node) : Prop :=
  e = fresh t ∨ Leads (next env schedules results) (t.enqueue env false) e

theorem follows_of_leads (h : Leads (next env schedules results) (t.enqueue env false) e) :
    Follows t e := by
  induction h with
  | refl => exact follows_enqueue (e := fresh t) rfl rfl false
  | tail _ hnext ih => exact ih.step hnext

theorem Course.place (h : Course env schedules results t e) : e.task.id = t.id ∧ e.task.job = t.job := by
  rcases h with heq | hleads
  · rw [heq]
    exact ⟨rfl, rfl⟩
  · have hfollows := follows_of_leads hleads
    exact ⟨hfollows.id, hfollows.job⟩

/-- The course goes on. -/
theorem Course.step (h : Course env schedules results t e) (hstatus : t.status = none)
    (hnext : e.next env schedules results = some e') : Course env schedules results t e' := by
  rcases h with heq | hleads
  · rw [heq] at hnext
    unfold next fresh at hnext
    simp [hstatus] at hnext
  · exact .inr (hleads.tail hnext)

/-- What is done next gives the task a status. -/
theorem Course.status_of_next (h : Course env schedules results t e) (hstatus : t.status = none)
    (hnext : e.next env schedules results = some e') : e'.task.status ≠ none := by
  rcases h with heq | hleads
  · rw [heq] at hnext
    unfold next fresh at hnext
    simp [hstatus] at hnext
  · exact (follows_of_leads (hleads.tail hnext)).status

/-- A task without a status is as it was. -/
theorem Course.eq_fresh (h : Course env schedules results t e) (hnone : e.task.status = none) :
    e = fresh t := by
  rcases h with heq | hleads
  · exact heq
  · exact absurd hnone (follows_of_leads hleads).status

/-- A task that has a status is on its course. -/
theorem Course.leads (h : Course env schedules results t e) (hstatus : t.status = none)
    (hbegun : e.task.status ≠ none) : Leads (next env schedules results) (t.enqueue env false) e := by
  rcases h with heq | hleads
  · rw [heq] at hbegun
    exact absurd hstatus hbegun
  · exact hleads

theorem Course.not_failed (h : Course env schedules results t e)
    (hnext : e.next env schedules results ≠ none) : e.failed = false := by
  rcases h with heq | hleads
  · rw [heq]
    rfl
  · by_contra hfailed
    rw [Bool.not_eq_false] at hfailed
    exact hnext ((follows_of_leads hleads).failed hfailed).next

/-- Each step takes one of those that are left. -/
theorem next_stepsLeft (hlimited : e.task.Limited schedules) (hnext : e.next env schedules results = some e') :
    e'.task.Limited schedules ∧
      e'.task.stepsLeft schedules e'.waits < e.task.stepsLeft schedules e.waits := by
  unfold next at hnext
  cases hwaits : e.waits with
  | true =>
    rw [hwaits, if_pos rfl] at hnext
    have hsteps := TaskNode.stepsLeft_enqueue schedules env false e.task
    rw [← Option.some.inj hnext]
    refine ⟨hsteps.1.limited hlimited, ?_⟩
    show _ < 4 * e.task.retriesLeft schedules + 3
    omega
  | false =>
    rw [hwaits, if_neg Bool.false_ne_true] at hnext
    have hrefl := TaskNode.SameRetry.refl e.task
    split at hnext
    · rename_i hstatus
      have hsteps := TaskNode.stepsLeft_execute schedules env false e.task
      rw [← Option.some.inj hnext, hrefl.stepsLeft_queued hstatus]
      exact ⟨hsteps.1.limited hlimited, by omega⟩
    · rename_i hstatus
      have hsteps := hlimited.stop env false (results e.task.id e.task.outputs.length).1
        (results e.task.id e.task.outputs.length).2
      rw [← Option.some.inj hnext, hrefl.stepsLeft_executing hstatus]
      exact ⟨hsteps.1, by omega⟩
    · cases hnext

/-- The outcome of a task is the end of its course. -/
theorem outcome_over (env : Environment Node) (results : Nat → Nat → Int × String)
    (hlimited : t.Limited schedules) :
    (t.outcome env schedules results).next env schedules results = none ∧
      Leads (next env schedules results) (t.enqueue env false) (t.outcome env schedules results) := by
  have hsteps := TaskNode.stepsLeft_enqueue schedules env false t
  refine ⟨?_, leads_follow _ _⟩
  exact follow_ends (fun e ↦ e.task.Limited schedules) (fun e ↦ e.task.stepsLeft schedules e.waits)
    (fun _ _ ↦ next_stepsLeft) (hsteps.1.limited hlimited) _ hsteps.2

theorem Course.eq_outcome (h : Course env schedules results t e) (hlimited : t.Limited schedules)
    (hstatus : t.status = none) (hbegun : e.task.status ≠ none) (hover : e.Over) :
    e = t.outcome env schedules results := by
  have hend := outcome_over env results hlimited
  exact (h.leads hstatus hbegun).unique hend.2 hover.next hend.1

end Standing

/-- A task that was just queued has not ended. -/
theorem TaskNode.not_successful_enqueue (env : Environment Node) (t : TaskNode Node)
    (isCancelling : Bool) : (t.enqueue env isCancelling).task.successful = false := by
  unfold TaskNode.enqueue
  split
  · rfl
  · split <;> rfl

theorem TaskNode.not_successful_execute (env : Environment Node) (t : TaskNode Node)
    (isCancelling : Bool) : (t.execute env isCancelling).task.successful = false := by
  unfold TaskNode.execute
  split
  · rfl
  · split
    · rfl
    · split <;> rfl

end EvQueue
