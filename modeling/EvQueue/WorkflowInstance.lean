import Mathlib.Algebra.Group.Int.Defs
import Mathlib.Algebra.Group.Nat.Defs
import EvQueue.Base.SnapshotLoop

/-!
# WorkflowInstance — the document of a workflow and what runs it

The document is kept as two lists, of its job nodes and of its task nodes, in which every node has an
identity (its address in the program) and names its parent; identity 0 is the document element.  The
children of a node are the nodes that name it, in the order of the list, and a parent stands before its
children.  XPath expressions are evaluated by a parameter on the whole document.
-/

namespace EvQueue

inductive TaskStatus where
  | queued
  | executing
  | terminated
  | aborted
deriving DecidableEq, Repr

inductive JobStatus where
  | skipped
  | aborted
deriving DecidableEq, Repr

inductive OutputMethod where
  | xml
  | text
deriving DecidableEq, Repr

/-- What the parameters of a task are made of; `Node` is what XPath expressions match. -/
inductive Content (Node : Type) where
  | text (s : String)
  | value (select : String)
  | copy (select : String)
  | node (n : Node)

structure Output where
  retval : Int
  method : OutputMethod
  content : String
deriving DecidableEq, Repr

structure TaskNode (Node : Type) where
  id : Nat
  /-- The job whose `tasks` element the task is in. -/
  job : Nat
  name : String
  queue : String
  loop : Option String
  status : Option TaskStatus
  retval : Option Int
  error : Option String
  details : Option String
  /-- The retry attributes, as the `int`s that `parseInt` reads; their texts are in `RetryTexts`. -/
  retrySchedule : Option String
  retryScheduleLevel : Option Nat
  retryDelay : Option Int
  retryTimes : Option Int
  retryRetval : Option Int
  content : List (Content Node)
  outputs : List Output

structure JobNode where
  id : Nat
  /-- The job whose `subjobs` element the job is in, or the document element. -/
  parent : Nat
  condition : Option String
  loop : Option String
  status : Option JobStatus
  details : Option String
deriving DecidableEq, Repr

structure Document (Node : Type) where
  jobs : List JobNode
  tasks : List (TaskNode Node)
  /-- The retry schedules: the delay and the times of each level, as `parseInt` reads them. -/
  schedules : String → Option (List (Int × Int))
  /-- The identity of the next node that is made. -/
  nextId : Nat

/-- The context of an XPath expression. -/
inductive Context (Node : Type) where
  | element (id : Nat)
  | matched (node : Node)

/-- What the condition of a job comes to: `evaluate` throws, `getIntegerValue` throws, or a value. -/
inductive Test where
  | invalid
  | noResult
  | value (n : Int)

/-- What the instance asks others for; `none` from an evaluation is an `XQillaException`. -/
structure Environment (Node : Type) where
  evaluate : Document Node → Context Node → String → Option (List Node)
  /-- The text content of the first result, when this is a node. -/
  evaluateFirst : Document Node → Context Node → String → Option (Option String)
  evaluateTest : Document Node → Context Node → String → Test
  /-- Whether `QueuePool::EnqueueTask` knows the queue. -/
  enqueueTask : String → Bool
  getTask : String → Option OutputMethod
  isXml : String → Bool
  fork : Bool
  /-- What `retry_delay` and `retry_times` hold before they are set. -/
  uninitialised : Int × Int

/-- What is done to the document, in order; kept for the statements only. -/
inductive Event (Node : Type) where
  | runSubjobs (job : Nat)
  | jobMatched (job : Nat) (nodes : List Node)
  | jobCloned (job clone : Nat) (node : Node)
  | run (job : Nat)
  | taskMatched (task : Nat) (nodes : List Node)
  | taskCloned (task clone : Nat) (node : Node)
  /-- `ready`: all tasks of the parent of the task's job were successful. -/
  | enqueued (task : Nat) (ready : Bool)

structure WorkflowInstance (Node : Type) where
  doc : Document Node
  isCancelling : Bool
  /-- How often `running_tasks` was increased, less how often it was decreased; the same for the other
  two counters. -/
  runningTally : Int
  retryingTally : Int
  errorTally : Int
  /-- The tasks put into the queues that `TaskExecute` was not called for yet. -/
  queued : List Nat
  /-- The tasks handed to the `Retrier` that `TaskRestart` was not called for yet. -/
  retrier : List Nat
  trace : List (Event Node)

variable {Node : Type}

/-! ## The counters, which are `unsigned int`s -/

namespace WorkflowInstance

def runningTasks (s : WorkflowInstance Node) : UInt32 := .ofInt s.runningTally

def retryingTasks (s : WorkflowInstance Node) : UInt32 := .ofInt s.retryingTally

def errorTasks (s : WorkflowInstance Node) : UInt32 := .ofInt s.errorTally

theorem toNat_ofInt (n : Nat) : (UInt32.ofInt n).toNat = n % 2 ^ 32 := by
  unfold UInt32.ofInt
  rw [UInt32.toNat_ofNat']
  omega

theorem ofInt_natCast (n : Nat) : UInt32.ofInt n = .ofNat n := by
  rw [← UInt32.toNat_inj, toNat_ofInt, UInt32.toNat_ofNat']

/-- A counter is zero when nothing is counted; that many there may be. -/
theorem ofInt_eq_zero_iff {n : Nat} (h : n < 2 ^ 32) : UInt32.ofInt n = 0 ↔ n = 0 := by
  rw [← UInt32.toNat_inj, toNat_ofInt, Nat.mod_eq_of_lt h, UInt32.toNat_zero]

end WorkflowInstance

def TaskNode.active (t : TaskNode Node) : Bool :=
  t.status = some .queued ∨ t.status = some .executing

/-- `@status='TERMINATED' and @retval = 0`. -/
def TaskNode.successful (t : TaskNode Node) : Bool :=
  t.status = some .terminated ∧ t.retval = some 0

/-! ## Nodes -/

namespace Document

variable (d : Document Node)

def task? (id : Nat) : Option (TaskNode Node) := d.tasks.find? fun t ↦ t.id = id

def job? (id : Nat) : Option JobNode := d.jobs.find? fun j ↦ j.id = id

/-- `tasks/task`. -/
def tasksOf (job : Nat) : List (TaskNode Node) := d.tasks.filter fun t ↦ t.job = job

/-- `subjobs/job`. -/
def subjobsOf (job : Nat) : List JobNode := d.jobs.filter fun j ↦ j.parent = job

def setTask (id : Nat) (f : TaskNode Node → TaskNode Node) : Document Node :=
  { d with tasks := d.tasks.map fun t ↦ if t.id = id then f t else t }

def setJob (id : Nat) (f : JobNode → JobNode) : Document Node :=
  { d with jobs := d.jobs.map fun j ↦ if j.id = id then f j else j }

/-- `cloneNode` of a task, appended behind its siblings. -/
def cloneTask (t : TaskNode Node) : Document Node :=
  { d with
    tasks := d.tasks ++ [{ t with id := d.nextId }]
    nextId := d.nextId + 1 }

def removeTask (id : Nat) : Document Node := { d with tasks := d.tasks.filter fun t ↦ t.id ≠ id }

/-- The jobs found and those below them. -/
def descendants (found : List Nat) : List JobNode → List Nat
  | [] => found
  | j :: jobs => descendants (if j.parent ∈ found then found ++ [j.id] else found) jobs

/-- A job and all jobs below it. -/
def subtree (job : Nat) : List Nat := descendants [job] d.jobs

/-- `cloneNode` of a job with all that is below it, appended behind its siblings.  The new nodes are
numbered from `nextId` on, first the jobs, so that the clone of the job itself has this number. -/
def cloneJob (job : Nat) : Document Node :=
  let below := d.subtree job
  let clone (id : Nat) := d.nextId + below.idxOf id
  { d with
    jobs := d.jobs ++ (d.jobs.filter fun j ↦ j.id ∈ below).map fun j ↦
      { j with
        id := clone j.id
        parent := if j.id = job then j.parent else clone j.parent }
    tasks := d.tasks ++ (d.tasks.filter fun t ↦ t.job ∈ below).mapIdx fun i t ↦
      { t with
        id := d.nextId + below.length + i
        job := clone t.job }
    nextId := d.nextId + below.length + d.tasks.length }

def removeJob (job : Nat) : Document Node :=
  { d with
    jobs := d.jobs.filter fun j ↦ j.id ∉ d.subtree job
    tasks := d.tasks.filter fun t ↦ t.job ∉ d.subtree job }

/-- All tasks of the parent of a job are successful. -/
def parentSuccessful (job : Nat) : Bool :=
  match d.job? job with
  | none => false
  | some j => (d.tasksOf j.parent).all TaskNode.successful

/-- The nodes have different identities, older than the next one, and every job stands behind its
parent. -/
structure Tree : Prop where
  nextId : 0 < d.nextId
  jobsNodup : (d.jobs.map JobNode.id).Nodup
  jobsBound : ∀ j ∈ d.jobs, j.id ≠ 0 ∧ j.id < d.nextId
  parents : ∀ j ∈ d.jobs, j.parent ≠ j.id ∧ (j.parent = 0 ∨ j.parent ∈ d.jobs.map JobNode.id)
  parentsFirst : d.jobs.Pairwise fun j j' ↦ j.parent ≠ j'.id
  tasksNodup : (d.tasks.map TaskNode.id).Nodup
  tasksBound : ∀ t ∈ d.tasks, t.id < d.nextId ∧ t.job ∈ d.jobs.map JobNode.id

/-- The document of a workflow before `Start`: no task has a status. -/
structure WellFormed : Prop extends d.Tree where
  noStatus : ∀ t ∈ d.tasks, t.status = none

end Document

/-! ## Tasks -/

namespace WorkflowInstance

variable (env : Environment Node)

/-- The state behind a call, and the text of the exception that ended it. -/
abbrev Result (Node : Type) := WorkflowInstance Node × Option String

def setTask (s : WorkflowInstance Node) (id : Nat) (f : TaskNode Node → TaskNode Node) :
    WorkflowInstance Node :=
  { s with doc := s.doc.setTask id f }

def setJob (s : WorkflowInstance Node) (id : Nat) (f : JobNode → JobNode) : WorkflowInstance Node :=
  { s with doc := s.doc.setJob id f }

def log (s : WorkflowInstance Node) (e : Event Node) : WorkflowInstance Node :=
  { s with trace := s.trace ++ [e] }

/-- The task gets status `ABORTED`, with an error. -/
def abortTask (s : WorkflowInstance Node) (id : Nat) (error : String) : WorkflowInstance Node :=
  { s.setTask id fun t ↦
      { t with
        status := some .aborted
        error := some error } with
    errorTally := s.errorTally + 1 }

def enqueueTask (s : WorkflowInstance Node) (id : Nat) : WorkflowInstance Node :=
  match s.doc.task? id with
  | none => s
  | some task =>
      if s.isCancelling then s.abortTask id "Aborted on user request"
      else if env.enqueueTask task.queue then
        { s.setTask id fun t ↦ { t with status := some .queued } with
          queued := s.queued ++ [id]
          runningTally := s.runningTally + 1 }
      else s.abortTask id "Unknown queue name"

/-- The task is aborted, or queued and counted. -/
theorem enqueueTask_cases (s : WorkflowInstance Node) (id : Nat) :
    s.enqueueTask env id = s ∨ (∃ error, s.enqueueTask env id = s.abortTask id error) ∨
      s.enqueueTask env id = { s.setTask id fun t ↦ { t with status := some .queued } with
        queued := s.queued ++ [id]
        runningTally := s.runningTally + 1 } := by
  unfold enqueueTask
  cases s.doc.task? id with
  | none => exact .inl rfl
  | some task =>
    apply Or.inr
    dsimp only
    by_cases hcancel : s.isCancelling = true
    · rw [if_pos hcancel]
      exact .inl ⟨_, rfl⟩
    · rw [if_neg hcancel]
      by_cases hqueue : env.enqueueTask task.queue = true
      · rw [if_pos hqueue]
        exact .inr rfl
      · rw [if_neg hqueue]
        exact .inl ⟨_, rfl⟩

/-- The first loop of `replace_value`: `done` is the content before the item that is looked at. -/
def replaceValues (context : Context Node) (id : Nat) (done : List (Content Node)) :
    List (Content Node) → WorkflowInstance Node → Result Node
  | [], s => (s, none)
  | .value select :: rest, s =>
      match env.evaluateFirst s.doc context select with
      | none => (s, some "Error computing input values")
      | some none => replaceValues context id (done ++ [.value select]) rest s
      | some (some text) =>
          replaceValues context id (done ++ [.text text]) rest
            (s.setTask id fun t ↦ { t with content := done ++ .text text :: rest })
  | item :: rest, s => replaceValues context id (done ++ [item]) rest s

/-- The second loop. -/
def replaceCopies (context : Context Node) (id : Nat) (done : List (Content Node)) :
    List (Content Node) → WorkflowInstance Node → Result Node
  | [], s => (s, none)
  | .copy select :: rest, s =>
      match env.evaluate s.doc context select with
      | none => (s, some "Error computing input values")
      | some nodes =>
          replaceCopies context id (done ++ nodes.map .node) rest
            (s.setTask id fun t ↦ { t with content := done ++ nodes.map .node ++ rest })
  | item :: rest, s => replaceCopies context id (done ++ [item]) rest s

def replaceValue (id : Nat) (context : Context Node) (s : WorkflowInstance Node) : Result Node :=
  match s.doc.task? id with
  | none => (s, none)
  | some task =>
      match replaceValues env context id [] task.content s with
      | (s, some e) => (s, some e)
      | (s, none) =>
          match s.doc.task? id with
          | none => (s, none)
          | some task => replaceCopies env context id [] task.content s

/-- Only the task is touched, and of it only the content. -/
theorem replaceValue_induction {P : WorkflowInstance Node → Prop} {id : Nat}
    (hset : ∀ s content, P s → P (s.setTask id fun t ↦ { t with content })) (context : Context Node)
    {s : WorkflowInstance Node} (hs : P s) : P (replaceValue env id context s).1 := by
  have hvalues (done rest : List (Content Node)) (s : WorkflowInstance Node) (hs : P s) :
      P (replaceValues env context id done rest s).1 := by
    induction rest generalizing done s with
    | nil => exact hs
    | cons item rest ih =>
      cases item with
      | value select =>
        unfold replaceValues
        rcases env.evaluateFirst s.doc context select with _ | _ | text
        · exact hs
        · exact ih _ _ hs
        · exact ih _ _ (hset _ _ hs)
      | text text => exact ih _ _ hs
      | copy select => exact ih _ _ hs
      | node node => exact ih _ _ hs
  have hcopies (done rest : List (Content Node)) (s : WorkflowInstance Node) (hs : P s) :
      P (replaceCopies env context id done rest s).1 := by
    induction rest generalizing done s with
    | nil => exact hs
    | cons item rest ih =>
      cases item with
      | copy select =>
        unfold replaceCopies
        cases env.evaluate s.doc context select with
        | none => exact hs
        | some nodes => exact ih _ _ (hset _ _ hs)
      | text text => exact ih _ _ hs
      | value select => exact ih _ _ hs
      | node node => exact ih _ _ hs
  unfold replaceValue
  cases s.doc.task? id with
  | none => exact hs
  | some task =>
    have hfirst := hvalues [] task.content s hs
    rcases hrun : replaceValues env context id [] task.content s with ⟨t, _ | e⟩
    · rw [hrun] at hfirst
      simp only [hrun]
      cases t.doc.task? id with
      | none => exact hfirst
      | some task' => exact hcopies [] task'.content t hfirst
    · rw [hrun] at hfirst
      simp only [hrun]
      exact hfirst

/-! ## Retries -/

/-- The delay and the times are those of the next level, or stay when the schedule is unknown. -/
def scheduleUpdate (s : WorkflowInstance Node) (task : TaskNode Node) (scheduleName : String)
    (retry : Int × Int) : WorkflowInstance Node × Int × Int :=
  match s.doc.schedules scheduleName with
  | none => (s, retry)
  | some levels =>
      let current := (((s.doc.task? task.id).bind TaskNode.retryScheduleLevel).getD 0) + 1
      let s := s.setTask task.id fun t ↦ { t with retryScheduleLevel := some current }
      match levels[current - 1]? with
      | none => (s, 0, 0)
      | some (retryDelay, retryTimes) =>
          (s.setTask task.id fun t ↦
            { t with
              retryDelay := some retryDelay
              retryTimes := some retryTimes },
            retryDelay, retryTimes)

/-- The retry parameters of a task, or `none` when one is missing. -/
def retryParameters (s : WorkflowInstance Node) (task : TaskNode Node) :
    Option (WorkflowInstance Node × Int × Int) :=
  match task.retrySchedule, task.retryScheduleLevel.getD 0 with
  | some scheduleName, 0 => some (s.scheduleUpdate task scheduleName env.uninitialised)
  | _, _ =>
      match task.retryDelay, task.retryTimes with
      | some retryDelay, some retryTimes => some (s, retryDelay, retryTimes)
      | _, _ => none

/-- A schedule whose level is used up goes on to the next one. -/
def nextLevel (s : WorkflowInstance Node) (task : TaskNode Node) (retry : Int × Int) :
    WorkflowInstance Node × Int × Int :=
  match task.retrySchedule with
  | some scheduleName =>
      if retry.2 = 0 then s.scheduleUpdate task scheduleName retry else (s, retry)
  | none => (s, retry)

def retryTask (s : WorkflowInstance Node) (id : Nat) : WorkflowInstance Node :=
  match s.doc.task? id with
  | none => s
  | some task =>
      match s.retryParameters env task with
      | none => { s with errorTally := s.errorTally + 1 }
      | some (s, retry) =>
          let (s, retryDelay, retryTimes) := s.nextLevel task retry
          if retryDelay = 0 ∨ retryTimes = 0 then { s with errorTally := s.errorTally + 1 }
          else if task.retryRetval.isSome ∧ task.retryRetval ≠ task.retval then s
          else
            { s.setTask id fun t ↦ { t with retryTimes := some (retryTimes - 1) } with
              retrier := s.retrier ++ [id]
              retryingTally := s.retryingTally + 1 }

/-! ## Jobs -/

/-- `enqueue_task` as `run` calls it. -/
def startTask (s : WorkflowInstance Node) (task : TaskNode Node) : WorkflowInstance Node :=
  (s.log (.enqueued task.id (s.doc.parentSuccessful task.job))).enqueueTask env task.id

def evaluationError : String := "Exception in workflow instance"

/-- The body of the loop of `run`. -/
def visitTask (context : Context Node) (id : Nat) (s : WorkflowInstance Node) :
    SnapshotLoop.Turn Node (WorkflowInstance Node) String :=
  match s.doc.task? id with
  | none => .done s
  | some task =>
      if task.status = some .terminated then .done s
      else
        match task.loop with
        | some loopXpath =>
            let s := s.setTask id fun t ↦ { t with loop := none }
            match env.evaluate s.doc context loopXpath with
            | none =>
                .failed (s.setTask id fun t ↦
                  { t with
                    status := some .aborted
                    details := some "Error while evaluating loop" }) evaluationError
            | some nodes => .matched (s.log (.taskMatched id nodes)) nodes
        | none =>
            match replaceValue env id context s with
            | (s, some e) => .failed s e
            | (s, none) => .done (s.startTask env task)

/-- The body of its inner loop: one clone of a looped task. -/
def expandTask (id : Nat) (node : Node) (s : WorkflowInstance Node) : Result Node :=
  match s.doc.task? id with
  | none => (s, none)
  | some task =>
      let clone := { task with id := s.doc.nextId }
      let s := { s with doc := s.doc.cloneTask task }.log (.taskCloned id clone.id node)
      match replaceValue env clone.id (.matched node) s with
      | (s, some e) => (s, some e)
      | (s, none) => (s.startTask env clone, none)

def taskLoop (context : Context Node) :
    SnapshotLoop.Body Nat Node (WorkflowInstance Node) String where
  visit := visitTask env context
  expand := expandTask env
  finish id s := { s with doc := s.doc.removeTask id }

/-- `matching_nodes_index`, an `int` that is taken not to overflow, is set once for all tasks, and
`matching_nodes_index++` counts past the last node of each list: the rule `readOn`. -/
def run (job : Nat) (context : Context Node) (s : WorkflowInstance Node) : Result Node :=
  SnapshotLoop.iterate (taskLoop env context) SnapshotLoop.readOn
    ((s.doc.tasksOf job).map TaskNode.id) 0 (s.log (.run job))

/-- The exception handler of `run_subjobs`. -/
def failJob (s : WorkflowInstance Node) (id : Nat) (error : String) : WorkflowInstance Node :=
  { s.setJob id fun j ↦
      { j with
        status := some .aborted
        details := some error } with
    errorTally := s.errorTally + 1 }

/-- The condition or the loop of a job cannot be evaluated: the job is aborted, and once more by the
handler. -/
def abortSubjob (id : Nat) (details : String) (s : WorkflowInstance Node) :
    SnapshotLoop.Turn Node (WorkflowInstance Node) String :=
  .failed ((s.setJob id fun j ↦
    { j with
      status := some .aborted
      details := some details }).failJob id evaluationError) evaluationError

/-- What `run_subjobs` does with a job whose condition holds. -/
def launchSubjob (job id : Nat) (loop : Option String) (s : WorkflowInstance Node) :
    SnapshotLoop.Turn Node (WorkflowInstance Node) String :=
  match loop with
  | some loopXpath =>
      let s := s.setJob id fun j ↦ { j with loop := none }
      match env.evaluate s.doc (.element job) loopXpath with
      | none => abortSubjob id "Error while evaluating loop" s
      | some nodes => .matched (s.log (.jobMatched id nodes)) nodes
  | none =>
      match run env id (.element job) s with
      | (s, some e) => .failed (s.failJob id e) e
      | (s, none) => .done s

/-- The body of the loop of `run_subjobs`, with the handler. -/
def visitSubjob (job id : Nat) (s : WorkflowInstance Node) :
    SnapshotLoop.Turn Node (WorkflowInstance Node) String :=
  match s.doc.job? id with
  | none => .done s
  | some subjob =>
      match subjob.condition with
      | none => launchSubjob env job id subjob.loop s
      | some condition =>
          match env.evaluateTest s.doc (.element job) condition with
          | .invalid => abortSubjob id "Error while evaluating condition" s
          | .noResult => abortSubjob id "Condition evaluation returned no result" s
          | .value n =>
              if n = 0 then
                .done (s.setJob id fun j ↦
                  { j with
                    status := some .skipped
                    details := some "Condition evaluates to false" })
              else launchSubjob env job id subjob.loop s

/-- The body of its inner loop: one clone of a looped job. -/
def expandSubjob (id : Nat) (node : Node) (s : WorkflowInstance Node) : Result Node :=
  let clone := s.doc.nextId
  let s := { s with doc := s.doc.cloneJob id }.log (.jobCloned id clone node)
  match run env clone (.matched node) s with
  | (s, some e) => (s.failJob id e, some e)
  | (s, none) => (s, none)

def subjobLoop (job : Nat) : SnapshotLoop.Body Nat Node (WorkflowInstance Node) String where
  visit := visitSubjob env job
  expand := expandSubjob env
  finish id s := { s with doc := s.doc.removeJob id }

/-- With the same rule for `matching_nodes_index`. -/
def runSubjobs (job : Nat) (s : WorkflowInstance Node) : Result Node :=
  SnapshotLoop.iterate (subjobLoop env job) SnapshotLoop.readOn
    ((s.doc.subjobsOf job).map JobNode.id) 0 (s.log (.runSubjobs job))

/-! ## The calls from outside -/

def workflowEnded (s : WorkflowInstance Node) : Bool := s.runningTasks = 0 ∧ s.retryingTasks = 0

/-- The constructor. -/
def create (doc : Document Node) : WorkflowInstance Node :=
  { doc
    isCancelling := false
    runningTally := 0
    retryingTally := 0
    errorTally := 0
    queued := []
    retrier := []
    trace := [] }

/-- Exceptions are caught: the workflow ends by itself. -/
def start (s : WorkflowInstance Node) : WorkflowInstance Node × Bool :=
  let s := (runSubjobs env 0 s).1
  (s, s.workflowEnded)

def cancel (s : WorkflowInstance Node) : WorkflowInstance Node := { s with isCancelling := true }

def taskRestart (s : WorkflowInstance Node) (id : Nat) : WorkflowInstance Node × Bool :=
  let s := s.enqueueTask env id
  let s := { s with retryingTally := s.retryingTally - 1 }
  (s, s.workflowEnded)

/-- The task is executed, or aborted and no longer counted. -/
def taskExecute (s : WorkflowInstance Node) (id : Nat) : WorkflowInstance Node × Bool :=
  match s.doc.task? id with
  | none => (s, s.workflowEnded)
  | some task =>
      let abort (error : String) :=
        { s.abortTask id error with runningTally := s.runningTally - 1 }
      let s :=
        if s.isCancelling then abort "Aborted on user request"
        else
          match env.getTask task.name with
          | none => abort "Unknown task name"
          | some _ =>
              if env.fork then s.setTask id fun t ↦ { t with status := some .executing }
              else abort "Unable to fork"
      (s, s.workflowEnded)

/-- What `TaskStop` does to the task itself. -/
def recordStop (s : WorkflowInstance Node) (task : TaskNode Node) (retval : Int) (output : String) :
    WorkflowInstance Node :=
  let id := task.id
  let addOutput (method : OutputMethod) (s : WorkflowInstance Node) :=
    s.setTask id fun t ↦ { t with outputs := t.outputs ++ [⟨retval, method, output⟩] }
  let s := s.setTask id fun t ↦
    { t with
      status := some .terminated
      retval := some retval }
  if retval = 0 then
    match env.getTask task.name with
    | none => s.abortTask id "Task has vanished"
    | some .xml =>
        if env.isXml output then addOutput .xml s else s.abortTask id "Invalid XML returned"
    | some .text => addOutput .text s
  else
    let s := addOutput .text s
    if s.isCancelling then
      s.setTask id fun t ↦ { t with error := some "Won't retry because workflow is cancelling" }
    else s.retryTask env id

def taskStop (s : WorkflowInstance Node) (id : Nat) (retval : Int) (output : String) :
    WorkflowInstance Node × Bool :=
  match s.doc.task? id with
  | none => (s, s.workflowEnded)
  | some task =>
      let s := s.recordStop env task retval output
      let siblings := s.doc.tasksOf task.job
      -- exceptions are caught, as in `Start`
      let s :=
        if siblings.length = siblings.countP TaskNode.successful then
          (runSubjobs env task.job s).1
        else s
      let s := { s with runningTally := s.runningTally - 1 }
      (s, s.workflowEnded)

end WorkflowInstance

end EvQueue
