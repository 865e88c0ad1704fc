import Mathlib.Algebra.Group.Int.Defs
import Mathlib.Algebra.Group.Nat.Defs
import EvQueue.Base.XmlTree

/-!
# SavedWorkflow — what `Resume` and `KillTask` find in the document of an instance

Both look for tasks with the descendant axis, from the root of the whole document.  `TaskStop` appends the
output of a task to the task itself, in an `output` element, and imports XML output as it is; so elements
called `task` may also stand in an output.
-/

namespace EvQueue

namespace SavedWorkflow

open Xml

/-- `output` elements of tasks: what is below them was written by a task. -/
def isOutput (parent name : String) : Bool := parent = "task" ∧ name = "output"

/-- `//task`. -/
def tasks (d : Xml) : List Found := descendants isOutput "task" "" [] false d

/-- The document without the contents of the outputs. -/
def emptyOutputs (d : Xml) : Xml := prune isOutput "" d

def isBlank (c : Char) : Bool := c = ' ' ∨ c = '\t' ∨ c = '\n' ∨ c = '\r'

def parseDigits : Nat → List Char → Option Nat
  | n, [] => some n
  | n, c :: cs => if c.isDigit then parseDigits (10 * n + (c.toNat - '0'.toNat)) cs else none

def parseUnsigned : List Char → Option Nat
  | [] => none
  | cs => parseDigits 0 cs

/-- `XMLString::parseInt`; `none` is a `NumberFormatException`.  A `long` is read and cut to an `int`. -/
def parseInt (s : String) : Option Int :=
  let trimmed := ((s.toList.dropWhile isBlank).reverse.dropWhile isBlank).reverse
  let long : Option Int :=
    match trimmed with
    | '-' :: cs => (parseUnsigned cs).map fun n ↦ -n
    | '+' :: cs => (parseUnsigned cs).map fun n ↦ (n : Int)
    | cs => (parseUnsigned cs).map fun n ↦ (n : Int)
  (long.filter fun n ↦ -2 ^ 63 ≤ n ∧ n < 2 ^ 63).map fun n ↦ n.bmod (2 ^ 32)

/-- What the loop of `Resume` does with one task. -/
inductive ResumeStep where
  | enqueueTask
  | executeTask (queueName : String) (taskId : Int)
  /-- The `tid` is not a number: the exception is not caught. -/
  | invalidTid
  | retryTask
deriving DecidableEq, Repr

def resumeStep (a : Attributes) : Option ResumeStep :=
  if getAttribute a "status" = "QUEUED" then some .enqueueTask
  else if getAttribute a "status" = "EXECUTING" then
    match parseInt (getAttribute a "tid") with
    | some taskId => some (.executeTask (getAttribute a "queue") taskId)
    | none => some .invalidTid
  else if getAttribute a "status" = "TERMINATED" then
    if getAttribute a "retval" ≠ "0" then some .retryTask else none
  else none

def resumeLoop : List Found → List (Found × ResumeStep)
  | [] => []
  | task :: rest =>
      match resumeStep task.attributes with
      | none => resumeLoop rest
      | some .invalidTid => [(task, .invalidTid)]
      | some step => (task, step) :: resumeLoop rest

/-- `//task[@status='QUEUED' or @status='EXECUTING' or @status='TERMINATED']`. -/
def resumable (d : Xml) : List Found :=
  (tasks d).filter fun task ↦
    getAttribute task.attributes "status" = "QUEUED" ∨
      getAttribute task.attributes "status" = "EXECUTING" ∨
      getAttribute task.attributes "status" = "TERMINATED"

def resume (d : Xml) : List (Found × ResumeStep) := resumeLoop (resumable d)

/-- `//task[@status='EXECUTING' and @pid='%d']`. -/
def killed (pid : Int) (d : Xml) : List Found :=
  (tasks d).filter fun task ↦
    getAttribute task.attributes "status" = "EXECUTING" ∧
      task.attributes.lookup "pid" = some (toString pid)

/-- Whether a signal is sent. -/
def killTask (pid : Int) (d : Xml) : Bool := !(killed pid d).isEmpty

/-- Every task of the workflow that was saved `EXECUTING` has a number for its `tid`. -/
def Saved (d : Xml) : Prop :=
  ∀ task ∈ tasks d, task.inside = false → resumeStep task.attributes ≠ some .invalidTid

/-- No element called `task` in an output has status `QUEUED` or `EXECUTING`, or status `TERMINATED` with
a `retval` other than 0. -/
def InertOutputs (d : Xml) : Prop :=
  ∀ task ∈ tasks d, task.inside = true → resumeStep task.attributes = none

instance (d : Xml) : Decidable (Saved d) :=
  inferInstanceAs (Decidable (∀ task ∈ tasks d, _ → _))

instance (d : Xml) : Decidable (InertOutputs d) :=
  inferInstanceAs (Decidable (∀ task ∈ tasks d, _ → _))

/-- Only tasks of the workflow are resumed or killed. -/
structure OnlyWorkflow (d : Xml) : Prop where
  resumed : ∀ task step, (task, step) ∈ resume d → task.inside = false
  killed : ∀ pid, ∀ task ∈ killed pid d, task.inside = false

/-- Two documents are resumed in the same way, and the same processes are killed. -/
structure SameControl (d d' : Xml) : Prop where
  resumed : resume d = resume d'
  killed : ∀ pid, killTask pid d = killTask pid d'

variable {d d' : Xml} {task : Found}

theorem outside_tasks (d : Xml) : (tasks d).filter (fun task ↦ !task.inside) = tasks (emptyOutputs d) :=
  outside_descendants d

theorem inside_of_emptyOutputs (h : task ∈ tasks (emptyOutputs d)) : task.inside = false := by
  rw [← outside_tasks, List.mem_filter] at h
  simpa using h.2

/-! ## Inert outputs -/

/-- Tasks that `resumeStep` passes over may be left out. -/
theorem resumeLoop_filter {keep : Found → Bool} {l : List Found}
    (h : ∀ task ∈ l, keep task = false → resumeStep task.attributes = none) :
    resumeLoop (l.filter keep) = resumeLoop l := by
  induction l with
  | nil => rfl
  | cons task rest ih =>
    have hrest := ih fun t ht ↦ h t (List.mem_cons_of_mem _ ht)
    rw [List.filter_cons]
    cases hkeep : keep task with
    | true =>
      rw [if_pos rfl]
      unfold resumeLoop
      rw [hrest]
    | false =>
      rw [if_neg (by decide), hrest]
      unfold resumeLoop
      rw [h task List.mem_cons_self hkeep]
      cases rest <;> rfl

/-- The XPath condition leaves out only tasks that the loop would pass over. -/
theorem resume_eq (d : Xml) : resume d = resumeLoop (tasks d) := by
  apply resumeLoop_filter
  intro task _ hstatus
  rw [decide_eq_false_iff_not, not_or, not_or] at hstatus
  unfold resumeStep
  rw [if_neg hstatus.1, if_neg hstatus.2.1, if_neg hstatus.2.2]

theorem InertOutputs.resume_eq (h : InertOutputs d) : resume d = resume (emptyOutputs d) := by
  rw [SavedWorkflow.resume_eq, SavedWorkflow.resume_eq, ← outside_tasks]
  symm
  apply resumeLoop_filter
  intro task htask hinside
  exact h task htask (by simpa using hinside)

/-- A task with status `EXECUTING` is not passed over. -/
theorem resumeStep_of_executing {a : Attributes} (h : getAttribute a "status" = "EXECUTING") :
    resumeStep a ≠ none := by
  unfold resumeStep
  rw [h, if_neg (by decide), if_pos rfl]
  cases parseInt (getAttribute a "tid") <;> exact nofun

theorem InertOutputs.killed_eq (h : InertOutputs d) (pid : Int) :
    killed pid d = killed pid (emptyOutputs d) := by
  unfold killed
  rw [← outside_tasks, List.filter_filter]
  apply List.filter_congr
  intro task htask
  by_cases hstatus : getAttribute task.attributes "status" = "EXECUTING"
  · have hinside : task.inside = false := by
      cases hinside : task.inside with
      | false => rfl
      | true => exact absurd (h task htask hinside) (resumeStep_of_executing hstatus)
    rw [hinside]
    simp
  · simp [hstatus]

theorem mem_tasks_of_resume {step : ResumeStep} {l : List Found} (h : (task, step) ∈ resumeLoop l) :
    task ∈ l := by
  induction l with
  | nil => cases h
  | cons t rest ih =>
    unfold resumeLoop at h
    cases hstep : resumeStep t.attributes with
    | none =>
      rw [hstep] at h
      exact List.mem_cons_of_mem _ (ih h)
    | some s =>
      rw [hstep] at h
      have hcases : (task, step) = (t, s) ∨ (task, step) ∈ resumeLoop rest := by
        cases s with
        | invalidTid => exact .inl (List.mem_singleton.mp h)
        | enqueueTask => exact List.mem_cons.mp h
        | executeTask queueName taskId => exact List.mem_cons.mp h
        | retryTask => exact List.mem_cons.mp h
      rcases hcases with heq | hin
      · rw [(Prod.mk.inj heq).1]
        exact List.mem_cons_self
      · exact List.mem_cons_of_mem _ (ih hin)

theorem InertOutputs.onlyWorkflow (h : InertOutputs d) : OnlyWorkflow d := by
  constructor
  case resumed =>
    intro task step hin
    rw [h.resume_eq, SavedWorkflow.resume_eq] at hin
    exact inside_of_emptyOutputs (mem_tasks_of_resume hin)
  case killed =>
    intro pid task hin
    rw [h.killed_eq] at hin
    exact inside_of_emptyOutputs (List.mem_of_mem_filter hin)

/-! ## The converse -/

/-- The first task of an output that is not passed over is resumed. -/
theorem exists_resumed {l : List Found}
    (hsaved : ∀ task ∈ l, task.inside = false → resumeStep task.attributes ≠ some .invalidTid)
    (htask : task ∈ l) (hinside : task.inside = true) (hstep : resumeStep task.attributes ≠ none) :
    ∃ t step, (t, step) ∈ resumeLoop l ∧ t.inside = true := by
  induction l with
  | nil => cases htask
  | cons t rest ih =>
    have hbehind (hne : task ∈ rest) : ∃ t step, (t, step) ∈ resumeLoop rest ∧ t.inside = true :=
      ih (fun t' ht' ↦ hsaved t' (List.mem_cons_of_mem _ ht')) hne
    unfold resumeLoop
    cases hs : resumeStep t.attributes with
    | none =>
      have hne : task ∈ rest := by
        rcases List.mem_cons.mp htask with heq | hin
        · rw [heq] at hstep
          exact absurd hs hstep
        · exact hin
      exact hbehind hne
    | some s =>
      by_cases hin : t.inside = true
      · refine ⟨t, s, ?_, hin⟩
        cases s <;> exact List.mem_cons_self
      · rw [Bool.not_eq_true] at hin
        have hne : task ∈ rest := by
          rcases List.mem_cons.mp htask with heq | hrest
          · rw [heq, hin] at hinside
            cases hinside
          · exact hrest
        rcases hbehind hne with ⟨t', step, hmem, ht'⟩
        have hvalid := hsaved t List.mem_cons_self hin
        rw [hs] at hvalid
        refine ⟨t', step, ?_, ht'⟩
        cases s with
        | invalidTid => exact absurd rfl hvalid
        | enqueueTask => exact List.mem_cons_of_mem _ hmem
        | executeTask queueName taskId => exact List.mem_cons_of_mem _ hmem
        | retryTask => exact List.mem_cons_of_mem _ hmem

theorem OnlyWorkflow.inertOutputs (hsaved : Saved d) (h : OnlyWorkflow d) : InertOutputs d := by
  intro task htask hinside
  by_contra hstep
  rcases exists_resumed hsaved htask hinside hstep with ⟨t, step, hin, ht⟩
  rw [← resume_eq] at hin
  have hout := h.resumed t step hin
  rw [ht] at hout
  cases hout

theorem saved_emptyOutputs : Saved d ↔ Saved (emptyOutputs d) := by
  unfold Saved
  rw [← outside_tasks]
  constructor
  · intro h task htask hinside
    exact h task (List.mem_of_mem_filter htask) hinside
  · intro h task htask hinside
    exact h task (List.mem_filter.mpr ⟨htask, by simp [hinside]⟩) hinside

/-- Two saved documents that differ only in the contents of outputs are under the same control, and only
tasks of the workflow are, exactly when the outputs of both are inert. -/
theorem sameControl_iff (d d' : Xml) (hsaved : Saved d) (hsame : emptyOutputs d = emptyOutputs d') :
    SameControl d d' ∧ OnlyWorkflow d ∧ OnlyWorkflow d' ↔ InertOutputs d ∧ InertOutputs d' := by
  have hsaved' : Saved d' := by
    rw [saved_emptyOutputs, ← hsame, ← saved_emptyOutputs]
    exact hsaved
  constructor
  · intro h
    exact ⟨h.2.1.inertOutputs hsaved, h.2.2.inertOutputs hsaved'⟩
  · intro h
    refine ⟨?_, h.1.onlyWorkflow, h.2.onlyWorkflow⟩
    constructor
    case resumed => rw [h.1.resume_eq, h.2.resume_eq, hsame]
    case killed =>
      intro pid
      unfold killTask
      rw [h.1.killed_eq, h.2.killed_eq, hsame]

/-- A workflow with one task, which succeeded and left an output. -/
def oneOutput (output : List Xml) : Xml :=
  .element "workflow" [("status", "EXECUTING")]
    [.element "subjobs" []
      [.element "job" []
        [.element "tasks" []
          [.element "task" [("name", "list"), ("status", "TERMINATED"), ("retval", "0")]
            [.element "output" [("method", "xml")] output]]]]]

def plainOutput : Xml := oneOutput [.element "files" [] [.text "none"]]

def taskInOutput : Xml :=
  oneOutput [.element "task" [("name", "shell"), ("queue", "default"), ("status", "QUEUED")] []]

theorem sameControl_plainOutput : SameControl plainOutput (oneOutput []) :=
  ((sameControl_iff plainOutput (oneOutput []) (by decide) rfl).mpr ⟨by decide, by decide⟩).1

/-- A task that the output holds is enqueued. -/
theorem enqueued_from_output : emptyOutputs plainOutput = emptyOutputs taskInOutput ∧
    Saved plainOutput ∧ resume plainOutput = [] ∧
    (resume taskInOutput).map Prod.snd = [.enqueueTask] ∧ ¬SameControl plainOutput taskInOutput := by
  refine ⟨rfl, by decide, by decide, by decide, ?_⟩
  intro h
  exact absurd h.resumed (by decide)

end SavedWorkflow

end EvQueue
