import EvQueue.EngineLimit

/-!
# EngineMessages — task monitors and the message queue that outlive the engine

A task monitor tells the gatherer with a message that its task has ended.  The monitors and the message
queue of the kernel stay when the engine crashes or is shut down; the table of task identifiers does not,
and `Resume` fills it again from the savepoints.
-/

namespace EvQueue

open Cells Runs

/-- A process of `evqueue_monitor`.  The number tells processes with the same `pid` apart, for the
statements only. -/
structure Monitor where
  pid : Nat
  tid : Nat
  number : Nat
deriving DecidableEq, Repr

/-- What the monitor sends: its `pid` and `tid`, and the return code of the task. -/
structure ExitMessage where
  sender : Monitor
  retcode : Int
deriving DecidableEq, Repr

/-- Where the gatherer stands in the loop of `ProcessManager::Gather`. -/
inductive Gatherer (WI DOMNode : Type) where
  | idle
  | received (message : ExitMessage)
  | stopping (workflowInstance : WI) (task : DOMNode) (sender : Monitor) (retval : Int)

/-- A call of `TaskStop`; `execution` is the monitor that the task was executed by at that time. -/
structure Stop (WI DOMNode : Type) where
  workflowInstance : WI
  task : DOMNode
  retval : Int
  sender : Monitor
  execution : Option Monitor
deriving DecidableEq

/-- The engine with what is around it. -/
structure Host (WI DOMNode : Type) where
  engine : Engine WI DOMNode
  /-- Whether the forker and the gatherer run. -/
  started : Bool
  gatherer : Gatherer WI DOMNode
  monitors : List Monitor
  messages : List ExitMessage
  /-- The tasks with status `EXECUTING`, with the monitor that `pid` and `tid` name. -/
  executing : WI × DOMNode → Option Monitor
  /-- The same in the savepoints. -/
  saved : WI × DOMNode → Option Monitor
  forks : Nat
  stops : List (Stop WI DOMNode)

inductive HostAction (WI DOMNode : Type) where
  /-- A step of the engine that is not one of the gatherer. -/
  | engine (action : EngineAction WI DOMNode)
  /-- The task of a monitor ends; `none` when it did not exit by itself. -/
  | exit (monitor : Monitor) (status : Option UInt8)
  /-- A monitor ends without a message. -/
  | lose (monitor : Monitor)
  | receive
  /-- `TerminateTask` by the gatherer; `readable`: it could read the log of the task. -/
  | terminateTask (readable : Bool)
  | taskStop
  /-- The savepoint of an instance is written. -/
  | recordSavepoint (workflowInstance : WI)
  /-- The engine ends, in whatever way, and is started again. -/
  | restart (rows : List (String × UInt32 × UInt32)) (maxpid : Fin (2 ^ 31))
  /-- `Resume` finds an executing task in a savepoint. -/
  | resume (workflowInstance : WI) (task : DOMNode) (queueName : String)
  /-- `new ProcessManager()`. -/
  | start

/-- `char retcode` of the monitor. -/
def retcodeOf : Option UInt8 → Int
  | some status => status.toInt8.toInt
  | none => -1

namespace Host

variable {WI DOMNode : Type} [DecidableEq WI] [DecidableEq DOMNode]

/-- `TaskExecute` with the forking of a monitor.  A task is handed out again only after `TaskStop`. -/
def taskExecute (A : Allocator (Task WI DOMNode)) (getInstanceID : WI → UInt32)
    (h : Host WI DOMNode) (known : Bool) (fork : Option Nat) : Option (Host WI DOMNode) :=
  match h.engine.forker with
  | .registered _ t tid =>
      if h.executing (t.workflowInstance, t.task) = none then
        (h.engine.step A getInstanceID (.taskExecute known fork)).map fun engine ↦
          match taskExecuteResult (h.engine.isCancelling (getInstanceID t.workflowInstance)) known
            fork with
          | none => { h with engine }
          | some pid =>
              let monitor := ⟨pid, tid, h.forks⟩
              { h with
                engine
                monitors := monitor :: h.monitors
                executing :=
                  Function.update h.executing (t.workflowInstance, t.task) (some monitor)
                forks := h.forks + 1 }
      else none
  | _ => none

def step (A : Allocator (Task WI DOMNode)) (getInstanceID : WI → UInt32) (h : Host WI DOMNode) :
    HostAction WI DOMNode → Option (Host WI DOMNode)
  | .engine (.gather _ _) => none
  | .engine (.taskExecute known fork) => h.taskExecute A getInstanceID known fork
  | .engine (.enqueueTask queueName wi task) =>
      (h.engine.step A getInstanceID (.enqueueTask queueName wi task)).map fun engine ↦
        { h with engine }
  | .engine action =>
      if h.started then
        (h.engine.step A getInstanceID action).map fun engine ↦ { h with engine }
      else none
  | .exit monitor status =>
      if monitor ∈ h.monitors then
        some { h with
          monitors := h.monitors.erase monitor
          messages := h.messages ++ [⟨monitor, retcodeOf status⟩] }
      else none
  | .lose monitor => some { h with monitors := h.monitors.erase monitor }
  | .receive =>
      match h.started, h.gatherer, h.messages with
      | true, .idle, message :: messages =>
          some { h with messages, gatherer := .received message }
      | _, _, _ => none
  | .terminateTask readable =>
      match h.gatherer with
      | .received ⟨sender, retcode⟩ =>
          (h.engine.step A getInstanceID (.gather sender.pid sender.tid)).map fun engine ↦
            match (h.engine.pool.terminateTask sender.tid).1 with
            -- the message is dropped
            | none => { h with engine, gatherer := .idle }
            | some (wi, task) =>
                { h with
                  engine
                  gatherer := .stopping wi task sender (if readable then retcode else -1) }
      | _ => none
  | .taskStop =>
      match h.gatherer with
      | .stopping wi task sender retval =>
          some { h with
            gatherer := .idle
            executing := Function.update h.executing (wi, task) none
            stops := h.stops ++ [⟨wi, task, retval, sender, h.executing (wi, task)⟩] }
      | _ => none
  | .recordSavepoint wi =>
      some { h with saved := fun x ↦ if x.1 = wi then h.executing x else h.saved x }
  | .restart rows maxpid =>
      match QueuePool.create rows maxpid with
      | .error _ => none
      | .ok pool =>
          some { h with
            engine := Engine.start pool
            started := false
            gatherer := .idle
            executing := fun _ ↦ none }
  | .resume wi task queueName =>
      match h.started, h.saved (wi, task), h.executing (wi, task) with
      | false, some monitor, none =>
          some { h with
            engine.pool := (h.engine.pool.executeTask wi task queueName monitor.tid).2
            executing := Function.update h.executing (wi, task) (some monitor) }
      | _, _, _ => none
  | .start => some { h with started := true }

/-- Before the engine was ever started. -/
def empty (pool : QueuePool WI DOMNode) : Host WI DOMNode where
  engine := Engine.start pool
  started := true
  gatherer := .idle
  monitors := []
  messages := []
  executing := fun _ ↦ none
  saved := fun _ ↦ none
  forks := 0
  stops := []

/-- The monitors whose message is still to come. -/
def senders (h : Host WI DOMNode) : List Monitor :=
  h.monitors ++ h.messages.map ExitMessage.sender ++
    match h.gatherer with
    | .received message => [message.sender]
    | _ => []

/-- The condition on a step, in the state before it: a task that is registered gets an identifier, and no
other monitor that still runs, or whose message is still queued, has this identifier. -/
def Guarded (h : Host WI DOMNode) : HostAction WI DOMNode → Prop
  | .engine .executeTask =>
      match h.engine.forker with
      | .dequeued _ queueName _ => (h.engine.pool.lookup queueName).isSome = true ∧
          ∃ tid ∈ h.engine.pool.freeTid, ∀ m ∈ h.senders, m.tid ≠ tid
      | _ => True
  | .resume wi task queueName =>
      ∀ monitor ∈ h.saved (wi, task), ∀ m ∈ h.senders,
        m.tid = (h.engine.pool.executeTask wi task queueName monitor.tid).1 → m = monitor
  | _ => True

end Host

/-! ## The table of identifiers -/

section Table

variable {WI DOMNode : Type}

namespace QueuePool

variable {p : QueuePool WI DOMNode} {t s : Nat} {x : TidEntry WI DOMNode}

theorem terminateTask_tid (p : QueuePool WI DOMNode) (t : Nat) :
    (p.terminateTask t).2.tid t = none ∧ (p.terminateTask t).1 =
      (p.tid t).map fun x ↦ (x.workflowInstance, x.task) := by
  unfold terminateTask
  cases hentry : p.tid t with
  | none => exact ⟨hentry, rfl⟩
  | some x => exact ⟨Function.update_self .., rfl⟩

/-- No entry is added by `TerminateTask`. -/
theorem tid_of_terminateTask (h : (p.terminateTask t).2.tid s = some x) : p.tid s = some x := by
  unfold terminateTask at h
  cases hentry : p.tid t with
  | none =>
    rw [hentry] at h
    exact h
  | some y =>
    rw [hentry] at h
    by_cases heq : s = t
    · rw [heq] at h
      simp at h
    · rw [← h]
      exact (Function.update_of_ne heq ..).symm

/-- Under a known queue, `ExecuteTask` enters the task under the identifier it returns. -/
theorem tid_of_executeTask {wi : WI} {task : DOMNode} {queueName : String} {taskId : Nat}
    (h : (p.executeTask wi task queueName taskId).2.tid s = some x) : p.tid s = some x ∨
      (s = (p.executeTask wi task queueName taskId).1 ∧ x.workflowInstance = wi ∧ x.task = task) := by
  have hregister {q : QueuePool WI DOMNode} {i r : Nat} (htid : q.tid = p.tid)
      (hentry : (q.register i wi task r).tid s = some x) :
      p.tid s = some x ∨ (s = r ∧ x.workflowInstance = wi ∧ x.task = task) := by
    unfold register at hentry
    rw [updateForkPossible_tid, htid] at hentry
    by_cases heq : s = r
    · rw [heq] at hentry
      simp only [Function.update_self, Option.some.injEq] at hentry
      rw [← hentry]
      exact .inr ⟨heq, rfl, rfl⟩
    · rw [← hentry]
      exact .inl (Function.update_of_ne heq ..).symm
  unfold executeTask at h ⊢
  cases hlook : p.lookup queueName with
  | none =>
    rw [hlook] at h
    exact .inl h
  | some i =>
    rw [hlook] at h
    dsimp only at h ⊢
    by_cases hzero : taskId = 0
    · rw [if_pos hzero] at h ⊢
      cases hfree : p.freeTid with
      | none =>
        rw [hfree] at h
        exact .inl h
      | some r =>
        rw [hfree] at h
        exact hregister (q := { p with lasttid := r }) rfl h
    · rw [if_neg hzero] at h ⊢
      exact hregister rfl h

theorem executeTask_fst {wi : WI} {task : DOMNode} {queueName : String} {tid : Nat}
    (hlook : (p.lookup queueName).isSome = true) (hfree : p.freeTid = some tid) :
    (p.executeTask wi task queueName 0).1 = tid := by
  rcases Option.isSome_iff_exists.mp hlook with ⟨i, hi⟩
  unfold executeTask
  rw [hi, hfree]
  rfl

end QueuePool

namespace Engine

variable {A : Allocator (Task WI DOMNode)} {getInstanceID : WI → UInt32} {e e' : Engine WI DOMNode}

/-- Entering `DequeueTask` touches the flags and the locks, not the table. -/
theorem dequeueEnter_tid {pool pool' : QueuePool WI DOMNode} {r : Option Bool}
    (h : pool.dequeueEnter = (r, pool')) : pool'.tid = pool.tid := by
  rw [show pool' = pool.dequeueEnter.2 from by rw [h]]
  unfold QueuePool.dequeueEnter
  split
  · rfl
  · split <;> rfl

theorem finishDequeue_table {pool : QueuePool WI DOMNode} (hs : pool.tid = e.pool.tid)
    (h : e.finishDequeue pool = some e') :
    (∀ t x, e'.pool.tid t = some x → e.pool.tid t = some x) ∧
      ∀ i t tid, e'.forker = .registered i t tid → e.forker = .registered i t tid := by
  unfold finishDequeue at h
  rcases Option.map_eq_some_iff.mp h with ⟨⟨found, pool'⟩, hbody, heq⟩
  have htid : pool'.tid = e.pool.tid := by
    rcases QueuePool.dequeueBody_cases hbody with ⟨-, -, hs'⟩ | ⟨i, q, t, q', -, -, -, -, hs'⟩
    · rw [hs'.tid, hs]
    · rw [hs'.tid, hs]
  cases found with
  | none =>
    rw [← heq]
    exact ⟨fun t x h ↦ by rwa [← htid], nofun⟩
  | some x =>
    rw [← heq]
    exact ⟨fun t x h ↦ by rwa [← htid], nofun⟩

/-- Only `ExecuteTask` enters a task into the table. -/
theorem step_table {action : EngineAction WI DOMNode} (hne : action ≠ .executeTask)
    (hstep : e.step A getInstanceID action = some e') :
    (∀ t x, e'.pool.tid t = some x → e.pool.tid t = some x) ∧
      ∀ i t tid, e'.forker = .registered i t tid → e.forker = .registered i t tid := by
  -- the operations on the queues leave the table of tids alone
  have hsame {pool : QueuePool WI DOMNode} (hs : QueuePool.SameTables e.pool pool) (t : Nat)
      (x : TidEntry WI DOMNode) (h : pool.tid t = some x) : e.pool.tid t = some x := by
    rw [← hs.tid]
    exact h
  cases action with
  | enqueueTask queueName wi task =>
    rcases Option.map_eq_some_iff.mp hstep with ⟨⟨found, pool⟩, hcall, heq⟩
    rw [← heq]
    refine ⟨?_, fun _ _ _ h ↦ h⟩
    rcases QueuePool.enqueueTask_cases hcall with ⟨hpool, -⟩ | ⟨i, q, q', -, -, -, -, hs⟩
    · rw [hpool]
      exact fun _ _ h ↦ h
    · exact hsame hs
  | cancel id =>
    rw [← Option.some.inj hstep]
    exact ⟨fun _ _ h ↦ h, fun _ _ _ h ↦ h⟩
  | cancelTasks id =>
    unfold step at hstep
    dsimp only at hstep
    split at hstep
    · rcases Option.map_eq_some_iff.mp hstep with ⟨pool, hcall, heq⟩
      rw [← heq]
      exact ⟨hsame (QueuePool.cancelTasks_cases hcall).1, fun _ _ _ h ↦ h⟩
    · cases hstep
  | dequeueTask =>
    unfold step at hstep
    dsimp only at hstep
    cases hforker : e.forker <;> rw [hforker] at hstep <;> try cases hstep
    dsimp only at hstep
    rcases henter : e.pool.dequeueEnter with ⟨r, pool⟩
    have htid : pool.tid = e.pool.tid := dequeueEnter_tid henter
    rw [henter] at hstep
    rcases r with _ | ⟨_ | _⟩
    · rw [← Option.some.inj hstep]
      exact ⟨fun t x h ↦ by rwa [← htid], nofun⟩
    · rw [← Option.some.inj hstep]
      exact ⟨fun t x h ↦ by rwa [← htid], nofun⟩
    · have h := finishDequeue_table htid hstep
      rw [hforker] at h
      exact h
  | wakeUp =>
    unfold step at hstep
    dsimp only at hstep
    cases hforker : e.forker <;> rw [hforker] at hstep <;> try cases hstep
    have h := finishDequeue_table rfl hstep
    rw [hforker] at h
    exact h
  | executeTask => exact absurd rfl hne
  | taskExecute known fork =>
    unfold step at hstep
    dsimp only at hstep
    cases hforker : e.forker <;> rw [hforker] at hstep <;> try cases hstep
    dsimp only at hstep
    split at hstep
    · rw [← Option.some.inj hstep]
      exact ⟨fun _ _ h ↦ h, nofun⟩
    · rw [← Option.some.inj hstep]
      exact ⟨fun _ _ h ↦ h, nofun⟩
  | terminateFailed =>
    unfold step at hstep
    dsimp only at hstep
    cases hforker : e.forker <;> rw [hforker] at hstep <;> try cases hstep
    -- `TerminateTask` frees a tid and gives none away
    exact ⟨fun _ _ h ↦ QueuePool.tid_of_terminateTask h, nofun⟩
  | gather pid tid =>
    rw [← Option.some.inj hstep]
    exact ⟨fun _ _ h ↦ QueuePool.tid_of_terminateTask h, fun _ _ _ h ↦ h⟩

end Engine

end Table

/-! ## Messages reach the right task -/

namespace Host

variable {WI DOMNode : Type}

/-- The table leads from the identifier of every monitor to the task that it executes. -/
structure Routed (h : Host WI DOMNode) : Prop where
  table : ∀ m ∈ h.senders, ∀ x, h.engine.pool.tid m.tid = some x →
    h.executing (x.workflowInstance, x.task) = some m
  forker : ∀ i t tid, h.engine.forker = .registered i t tid →
    (∀ m ∈ h.senders, m.tid ≠ tid) ∧ ∀ x, h.engine.pool.tid tid = some x →
      x.workflowInstance = t.workflowInstance ∧ x.task = t.task
  /-- The task that is stopped is not found under any other identifier. -/
  gatherer : ∀ wi task sender retval, h.gatherer = .stopping wi task sender retval →
    h.executing (wi, task) = some sender ∧ ∀ m ∈ h.senders, ∀ x, h.engine.pool.tid m.tid = some x →
      (x.workflowInstance, x.task) ≠ (wi, task)
  stops : ∀ s ∈ h.stops, s.execution = some s.sender

variable {A : Allocator (Task WI DOMNode)} {getInstanceID : WI → UInt32}
variable {h h' : Host WI DOMNode}

/-- Entries of the table and monitors may go. -/
theorem Routed.mono (hr : h.Routed) (hsenders : ∀ m ∈ h'.senders, m ∈ h.senders)
    (htable : ∀ t x, h'.engine.pool.tid t = some x → h.engine.pool.tid t = some x)
    (hexecuting : h'.executing = h.executing)
    (hforker : ∀ i t tid, h'.engine.forker = .registered i t tid →
      h.engine.forker = .registered i t tid)
    (hgatherer : ∀ wi task sender retval, h'.gatherer = .stopping wi task sender retval →
      h.gatherer = .stopping wi task sender retval)
    (hstops : h'.stops = h.stops) : h'.Routed where
  table m hm x hx := by
    rw [hexecuting]
    exact hr.table m (hsenders m hm) x (htable _ x hx)
  forker i t tid heq := by
    have hkeep := hr.forker i t tid (hforker i t tid heq)
    exact ⟨fun m hm ↦ hkeep.1 m (hsenders m hm), fun x hx ↦ hkeep.2 x (htable tid x hx)⟩
  gatherer wi task sender retval heq := by
    have hkeep := hr.gatherer wi task sender retval (hgatherer wi task sender retval heq)
    rw [hexecuting]
    exact ⟨hkeep.1, fun m hm x hx ↦ hkeep.2 m (hsenders m hm) x (htable _ x hx)⟩
  stops := by
    rw [hstops]
    exact hr.stops

theorem mem_senders {m : Monitor} : m ∈ h.senders ↔ m ∈ h.monitors ∨
    (∃ message ∈ h.messages, message.sender = m) ∨
    ∃ message, h.gatherer = .received message ∧ message.sender = m := by
  unfold senders
  rw [List.mem_append, List.mem_append, List.mem_map, or_assoc]
  cases h.gatherer with
  | idle => simp
  | received message => simp [eq_comm]
  | stopping wi task sender retval => simp

/-- The gatherer has got rid of its message. -/
theorem mem_senders_of_taken {m : Monitor} (hm : m ∈ h'.senders) (hmonitors : h'.monitors = h.monitors)
    (hmessages : h'.messages = h.messages) (htaken : ∀ message, h'.gatherer ≠ .received message) :
    m ∈ h.senders := by
  rw [mem_senders, hmonitors, hmessages] at hm
  rw [mem_senders]
  rcases hm with hm | hm | ⟨message, hm, -⟩
  · exact .inl hm
  · exact .inr (.inl hm)
  · exact absurd hm (htaken message)

/-- A step of the engine that enters no task into the table. -/
theorem engine_routed {a : EngineAction WI DOMNode} {engine : Engine WI DOMNode} (hr : h.Routed)
    (hne : a ≠ .executeTask) (hstep : h.engine.step A getInstanceID a = some engine) :
    Routed { h with engine } := by
  have htable := Engine.step_table hne hstep
  exact hr.mono (fun _ hm ↦ hm) htable.1 rfl htable.2 (fun _ _ _ _ heq ↦ heq) rfl

/-- The forker registers a task under an identifier that no monitor has. -/
theorem executeTask_routed {engine : Engine WI DOMNode} (hr : h.Routed)
    (hok : h.Guarded (.engine .executeTask))
    (hstep : h.engine.step A getInstanceID .executeTask = some engine) :
    Routed { h with engine } := by
  unfold Engine.step at hstep
  dsimp only at hstep
  cases hforker : h.engine.forker with
  | dequeued i queueName t =>
    rw [hforker] at hstep
    dsimp only at hstep
    rw [Guarded, hforker] at hok
    rcases hok with ⟨hlook, tid, hfree, hnew⟩
    have htid : (h.engine.pool.executeTask t.workflowInstance t.task queueName 0).1 = tid :=
      QueuePool.executeTask_fst hlook hfree
    have hnone := (QueuePool.freeTid_eq_some hfree).1
    rw [Option.some.injEq] at hstep
    rw [← hstep]
    have hold {m : Monitor} {x : TidEntry WI DOMNode} (hm : m ∈ h.senders)
        (hx : (h.engine.pool.executeTask t.workflowInstance t.task queueName 0).2.tid m.tid = some x) :
        h.engine.pool.tid m.tid = some x := by
      rcases QueuePool.tid_of_executeTask hx with hx | ⟨heq, -⟩
      · exact hx
      · exact absurd (heq.trans htid) (hnew m hm)
    constructor
    case table => exact fun m hm x hx ↦ hr.table m hm x (hold hm hx)
    case forker =>
      intro j u tid' heq
      cases heq
      rw [htid]
      refine ⟨hnew, fun x hx ↦ ?_⟩
      rcases QueuePool.tid_of_executeTask hx with hx | ⟨-, hwi, htask⟩
      · rw [hnone] at hx
        cases hx
      · exact ⟨hwi, htask⟩
    case gatherer =>
      intro wi task sender retval heq
      have hkeep := hr.gatherer wi task sender retval heq
      exact ⟨hkeep.1, fun m hm x hx ↦ hkeep.2 m hm x (hold hm hx)⟩
    case stops => exact hr.stops
  | idle => simp [hforker] at hstep
  | waiting => simp [hforker] at hstep
  | registered i t tid => simp [hforker] at hstep
  | releasing i tid => simp [hforker] at hstep
  | exited => simp [hforker] at hstep

/-- The invariant; the forker waits for `Resume` to end. -/
structure Sound (h : Host WI DOMNode) : Prop where
  routed : h.Routed
  resuming : h.started = false → h.engine.forker = .idle

theorem empty_sound (pool : QueuePool WI DOMNode) : (empty pool).Sound :=
  ⟨⟨nofun, nofun, nofun, nofun⟩, nofun⟩

section Steps

variable [DecidableEq WI] [DecidableEq DOMNode]

/-- The new monitor is the only one with its identifier. -/
theorem taskExecute_routed {known : Bool} {fork : Option Nat} (hr : h.Routed)
    (hstep : h.taskExecute A getInstanceID known fork = some h') : h'.Routed := by
  unfold taskExecute at hstep
  cases hforker : h.engine.forker with
  | registered i t tid =>
    rw [hforker] at hstep
    dsimp only at hstep
    split at hstep
    · rename_i hidle
      rcases Option.map_eq_some_iff.mp hstep with ⟨engine, hengine, heq⟩
      have hkeep := engine_routed hr (by simp) hengine
      cases hresult : taskExecuteResult
        (h.engine.isCancelling (getInstanceID t.workflowInstance)) known fork with
      | none =>
        rw [hresult] at heq
        rw [← heq]
        exact hkeep
      | some pid =>
        rw [hresult] at heq
        have hforker' : ∀ j u s, engine.forker ≠ .registered j u s := by
          unfold Engine.step at hengine
          simp only [hforker, hresult, Option.some.injEq] at hengine
          rw [← hengine]
          exact nofun
        have htask := hr.forker i t tid hforker
        -- no other execution is of this task: its last one is over
        have hold {wi : WI} {task : DOMNode} {m : Monitor} (hexecuting : h.executing (wi, task) = some m) :
            (wi, task) ≠ (t.workflowInstance, t.task) := by
          intro heq
          rw [heq, hidle] at hexecuting
          cases hexecuting
        have htable : ∀ s x, engine.pool.tid s = some x → h.engine.pool.tid s = some x :=
          (Engine.step_table (by simp) hengine).1
        -- the only new monitor is the one that was forked
        have hmem {m : Monitor} (hm : m ∈ h'.senders) : m = ⟨pid, tid, h.forks⟩ ∨ m ∈ h.senders := by
          rw [← heq, mem_senders] at hm
          rw [mem_senders]
          rcases hm with hm | hm
          · rcases List.mem_cons.mp hm with hm | hm
            · exact .inl hm
            · exact .inr (.inl hm)
          · exact .inr (.inr hm)
        constructor
        case table =>
          intro m hm x hx
          rcases hmem hm with hm | hm
          · rw [← heq] at hx ⊢
            rw [hm] at hx ⊢
            -- what is registered under the identifier is the task of the forker
            have hsame := htask.2 x (htable tid x hx)
            dsimp only
            rw [hsame.1, hsame.2, Function.update_self]
          · rw [← heq] at hx ⊢
            have hexecuting := hkeep.table m hm x hx
            dsimp only
            rw [Function.update_of_ne (hold hexecuting)]
            exact hexecuting
        case forker =>
          intro j u s hregistered
          rw [← heq] at hregistered
          exact absurd hregistered (hforker' j u s)
        case gatherer =>
          intro wi task sender retval hstopping
          rw [← heq] at hstopping
          have hkept := hkeep.gatherer wi task sender retval hstopping
          refine ⟨?_, ?_⟩
          · rw [← heq]
            dsimp only
            rw [Function.update_of_ne (hold hkept.1)]
            exact hkept.1
          · intro m hm x hx
            rcases hmem hm with hm | hm
            · rw [← heq, hm] at hx
              have hsame := htask.2 x (htable tid x hx)
              rw [hsame.1, hsame.2]
              exact (hold hkept.1).symm
            · rw [← heq] at hx
              exact hkept.2 m hm x hx
        case stops =>
          rw [← heq]
          exact hr.stops
    · cases hstep
  | idle => simp [hforker] at hstep
  | waiting => simp [hforker] at hstep
  | dequeued i queueName t => simp [hforker] at hstep
  | releasing i tid => simp [hforker] at hstep
  | exited => simp [hforker] at hstep

/-- The gatherer looks up the identifier of the message it holds. -/
theorem terminateTask_routed {readable : Bool} (hr : h.Routed)
    (hstep : h.step A getInstanceID (.terminateTask readable) = some h') : h'.Routed := by
  unfold step at hstep
  dsimp only at hstep
  cases hgatherer : h.gatherer with
  | received message =>
    rcases message with ⟨sender, retcode⟩
    rw [hgatherer] at hstep
    rcases Option.map_eq_some_iff.mp hstep with ⟨engine, hengine, heq⟩
    have hsender : sender ∈ h.senders := mem_senders.mpr (.inr (.inr ⟨_, hgatherer, rfl⟩))
    have hkeep := engine_routed hr (by simp) hengine
    have hpool : engine.pool = (h.engine.pool.terminateTask sender.tid).2 := by
      unfold Engine.step at hengine
      rw [← Option.some.inj hengine]
    have hcleared := QueuePool.terminateTask_tid h.engine.pool sender.tid
    cases hfound : h.engine.pool.tid sender.tid with
    | none =>
      rw [hcleared.2, hfound, Option.map_none] at heq
      dsimp only at heq
      rw [← heq]
      have hmem (m : Monitor) (hm : m ∈ ({ h with engine, gatherer := .idle } : Host WI DOMNode).senders) :
          m ∈ h.senders :=
        mem_senders_of_taken hm rfl rfl nofun
      exact hkeep.mono hmem (fun _ _ hx ↦ hx) rfl (fun _ _ _ hf ↦ hf) nofun rfl
    | some x =>
      rw [hcleared.2, hfound, Option.map_some] at heq
      dsimp only at heq
      have hmem {m : Monitor} (hm : m ∈ h'.senders) : m ∈ h.senders := by
        rw [← heq] at hm
        exact mem_senders_of_taken hm rfl rfl nofun
      -- the entry that is handed out is the one that the sender was registered for
      have hexecuting := hr.table sender hsender x hfound
      constructor
      case table =>
        intro m hm y hy
        rw [← heq] at hy ⊢
        exact hkeep.table m (hmem hm) y hy
      case forker =>
        intro i t tid hregistered
        rw [← heq] at hregistered
        have htask := hkeep.forker i t tid hregistered
        refine ⟨fun m hm ↦ htask.1 m (hmem hm), ?_⟩
        rw [← heq]
        exact htask.2
      case gatherer =>
        intro wi task sender' retval hstopping
        rw [← heq] at hstopping
        cases hstopping
        refine ⟨?_, ?_⟩
        · rw [← heq]
          exact hexecuting
        · -- another message for the same task would be the sender's own, and its tid is free now
          intro m hm y hy hsame
          rw [← heq] at hy
          have hother := hkeep.table m (hmem hm) y hy
          rw [hsame] at hother
          have hm : sender = m := Option.some.inj (hexecuting.symm.trans hother)
          rw [hpool, ← hm, hcleared.1] at hy
          cases hy
      case stops =>
        rw [← heq]
        exact hr.stops
  | idle => simp [hgatherer] at hstep
  | stopping wi task sender retval => simp [hgatherer] at hstep

theorem taskStop_routed (hr : h.Routed) (hstep : h.step A getInstanceID .taskStop = some h') :
    h'.Routed := by
  unfold step at hstep
  dsimp only at hstep
  cases hgatherer : h.gatherer with
  | stopping wi task sender retval =>
    rw [hgatherer, Option.some.injEq] at hstep
    have hstopping := hr.gatherer wi task sender retval hgatherer
    have hmem {m : Monitor} (hm : m ∈ h'.senders) : m ∈ h.senders := by
      rw [← hstep] at hm
      exact mem_senders_of_taken hm rfl rfl nofun
    constructor
    case table =>
      intro m hm x hx
      rw [← hstep] at hx ⊢
      dsimp only
      rw [Function.update_of_ne (hstopping.2 m (hmem hm) x hx)]
      exact hr.table m (hmem hm) x hx
    case forker =>
      intro i t tid hregistered
      rw [← hstep] at hregistered
      have htask := hr.forker i t tid hregistered
      refine ⟨fun m hm ↦ htask.1 m (hmem hm), ?_⟩
      rw [← hstep]
      exact htask.2
    case gatherer =>
      rw [← hstep]
      exact nofun
    case stops =>
      intro stop hin
      rw [← hstep] at hin
      rcases List.mem_append.mp hin with hin | hin
      · exact hr.stops stop hin
      · rw [List.mem_singleton.mp hin]
        exact hstopping.1
  | idle => simp [hgatherer] at hstep
  | received message => simp [hgatherer] at hstep

/-- The table is empty behind a restart. -/
theorem restart_routed {rows : List (String × UInt32 × UInt32)} {maxpid : Fin (2 ^ 31)}
    (hr : h.Routed) (hstep : h.step A getInstanceID (.restart rows maxpid) = some h') : h'.Routed := by
  unfold step at hstep
  dsimp only at hstep
  cases hcreate : (QueuePool.create rows maxpid : Except String (QueuePool WI DOMNode)) with
  | error e => simp [hcreate] at hstep
  | ok pool =>
    rw [hcreate, Option.some.injEq] at hstep
    have hnone (t : Nat) : h'.engine.pool.tid t = none := by
      rw [← hstep]
      exact (Engine.create_queue hcreate).2 t
    constructor
    case table =>
      intro m hm x hx
      rw [hnone] at hx
      cases hx
    case forker =>
      rw [← hstep]
      exact nofun
    case gatherer =>
      rw [← hstep]
      exact nofun
    case stops =>
      rw [← hstep]
      exact hr.stops

/-- `Resume` enters a task under an identifier that no other monitor has. -/
theorem resume_routed {wi : WI} {task : DOMNode} {queueName : String} (hr : h.Routed)
    (hidle : ∀ i t tid, h.engine.forker ≠ .registered i t tid)
    (hok : h.Guarded (.resume wi task queueName))
    (hstep : h.step A getInstanceID (.resume wi task queueName) = some h') : h'.Routed := by
  unfold step at hstep
  dsimp only at hstep
  split at hstep
  case h_2 => cases hstep
  rename_i monitor hstarted hsaved hexecuting
  rw [Option.some.injEq] at hstep
  have hsenders : h'.senders = h.senders := by
    rw [← hstep]
    rfl
  -- the task that is resumed was executing nowhere, so no other entry changes
  have hold {wi' : WI} {task' : DOMNode} {m : Monitor} (hother : h.executing (wi', task') = some m) :
      (wi', task') ≠ (wi, task) := by
    intro heq
    rw [heq, hexecuting] at hother
    cases hother
  constructor
  case table =>
    intro m hm x hx
    rw [hsenders] at hm
    rw [← hstep] at hx ⊢
    dsimp only at hx ⊢
    rcases QueuePool.tid_of_executeTask hx with hx | ⟨htid, hwi, htask⟩
    · have hother := hr.table m hm x hx
      rw [Function.update_of_ne (hold hother)]
      exact hother
    · rw [hok monitor hsaved m hm htid, hwi, htask, Function.update_self]
  case forker =>
    intro i t tid hregistered
    rw [← hstep] at hregistered
    exact absurd hregistered (hidle i t tid)
  case gatherer =>
    intro wi' task' sender retval hstopping
    rw [← hstep] at hstopping
    have hkept := hr.gatherer wi' task' sender retval hstopping
    refine ⟨?_, ?_⟩
    · rw [← hstep]
      dsimp only
      rw [Function.update_of_ne (hold hkept.1)]
      exact hkept.1
    · intro m hm x hx
      rw [hsenders] at hm
      rw [← hstep] at hx
      dsimp only at hx
      rcases QueuePool.tid_of_executeTask hx with hx | ⟨-, hwi, htask⟩
      · exact hkept.2 m hm x hx
      · rw [hwi, htask]
        exact (hold hkept.1).symm
  case stops =>
    rw [← hstep]
    exact hr.stops

theorem engine_sound {a : EngineAction WI DOMNode} (hs : h.Sound) (hok : h.Guarded (.engine a))
    (hstep : h.step A getInstanceID (.engine a) = some h') : h'.Sound := by
  -- all calls but `EnqueueTask` wait until main has resumed the saved instances
  have hstarted (hne : a ≠ .executeTask)
      (hcall : (if h.started = true then (h.engine.step A getInstanceID a).map fun engine ↦
        { h with engine } else none) = some h') : h'.Sound := by
    split at hcall
    · rename_i hyes
      rcases Option.map_eq_some_iff.mp hcall with ⟨engine, hengine, heq⟩
      rw [← heq]
      refine ⟨engine_routed hs.routed hne hengine, fun hno ↦ ?_⟩
      rw [hyes] at hno
      cases hno
    · cases hcall
  cases a with
  | gather pid tid => cases hstep
  | taskExecute known fork =>
    refine ⟨taskExecute_routed hs.routed hstep, fun hno ↦ ?_⟩
    unfold step taskExecute at hstep
    dsimp only at hstep
    have hsame : h'.started = h.started := by
      split at hstep
      · split at hstep
        · rcases Option.map_eq_some_iff.mp hstep with ⟨engine, -, heq⟩
          rw [← heq]
          split <;> rfl
        · cases hstep
      · cases hstep
    rw [hsame] at hno
    rw [hs.resuming hno] at hstep
    cases hstep
  | enqueueTask queueName wi task =>
    rcases Option.map_eq_some_iff.mp hstep with ⟨engine, hengine, heq⟩
    rw [← heq]
    refine ⟨engine_routed hs.routed (by simp) hengine, fun hno ↦ ?_⟩
    rcases Option.map_eq_some_iff.mp hengine with ⟨⟨found, pool⟩, -, heq⟩
    rw [← heq]
    exact hs.resuming hno
  | executeTask =>
    unfold step at hstep
    dsimp only at hstep
    split at hstep
    · rename_i hyes
      rcases Option.map_eq_some_iff.mp hstep with ⟨engine, hengine, heq⟩
      rw [← heq]
      refine ⟨executeTask_routed hs.routed hok hengine, fun hno ↦ ?_⟩
      rw [hyes] at hno
      cases hno
    · cases hstep
  | cancel id => exact hstarted (by simp) hstep
  | cancelTasks id => exact hstarted (by simp) hstep
  | dequeueTask => exact hstarted (by simp) hstep
  | wakeUp => exact hstarted (by simp) hstep
  | terminateFailed => exact hstarted (by simp) hstep

/-- One step of the host. -/
theorem step_sound {action : HostAction WI DOMNode} (hs : h.Sound) (hok : h.Guarded action)
    (hstep : h.step A getInstanceID action = some h') : h'.Sound := by
  cases action with
  | engine a => exact engine_sound hs hok hstep
  | exit monitor status =>
    unfold step at hstep
    dsimp only at hstep
    split at hstep
    · rename_i hin
      rw [← Option.some.inj hstep]
      refine ⟨hs.routed.mono ?_ (fun _ _ hx ↦ hx) rfl (fun _ _ _ hf ↦ hf) (fun _ _ _ _ hg ↦ hg) rfl,
        hs.resuming⟩
      intro m hm
      rw [mem_senders] at hm ⊢
      -- the monitor has gone from the processes to the messages
      rcases hm with hm | ⟨message, hm, hsender⟩ | hm
      · exact .inl (List.mem_of_mem_erase hm)
      · rcases List.mem_append.mp hm with hm | hm
        · exact .inr (.inl ⟨message, hm, hsender⟩)
        · rw [List.mem_singleton.mp hm] at hsender
          rw [← hsender]
          exact .inl hin
      · exact .inr (.inr hm)
    · cases hstep
  | lose monitor =>
    rw [← Option.some.inj hstep]
    refine ⟨hs.routed.mono ?_ (fun _ _ hx ↦ hx) rfl (fun _ _ _ hf ↦ hf) (fun _ _ _ _ hg ↦ hg) rfl,
      hs.resuming⟩
    intro m hm
    rw [mem_senders] at hm ⊢
    rcases hm with hm | hm
    · exact .inl (List.mem_of_mem_erase hm)
    · exact .inr hm
  | receive =>
    unfold step at hstep
    dsimp only at hstep
    split at hstep
    · rename_i message messages _ hgatherer hmessages
      rw [← Option.some.inj hstep]
      refine ⟨hs.routed.mono ?_ (fun _ _ hx ↦ hx) rfl (fun _ _ _ hf ↦ hf) nofun rfl, hs.resuming⟩
      intro m hm
      rw [mem_senders] at hm ⊢
      -- the message has gone from the queue to the gatherer, which holds one at a time
      rcases hm with hm | ⟨message', hm, hsender⟩ | ⟨message', hm, hsender⟩
      · exact .inl hm
      · refine .inr (.inl ⟨message', ?_, hsender⟩)
        rw [hmessages]
        exact List.mem_cons_of_mem _ hm
      · cases hm
        refine .inr (.inl ⟨message, ?_, hsender⟩)
        rw [hmessages]
        exact List.mem_cons_self
    · cases hstep
  | terminateTask readable =>
    refine ⟨terminateTask_routed hs.routed hstep, ?_⟩
    unfold step at hstep
    dsimp only at hstep
    split at hstep
    · rcases Option.map_eq_some_iff.mp hstep with ⟨engine, hengine, heq⟩
      have hforker : engine.forker = h.engine.forker := by
        rw [← Option.some.inj hengine]
      rw [← heq]
      split
      · exact fun hno ↦ hforker.trans (hs.resuming hno)
      · exact fun hno ↦ hforker.trans (hs.resuming hno)
    · cases hstep
  | taskStop =>
    refine ⟨taskStop_routed hs.routed hstep, ?_⟩
    unfold step at hstep
    dsimp only at hstep
    split at hstep
    · rw [← Option.some.inj hstep]
      exact hs.resuming
    · cases hstep
  | recordSavepoint wi =>
    rw [← Option.some.inj hstep]
    exact ⟨hs.routed.mono (fun _ hm ↦ hm) (fun _ _ hx ↦ hx) rfl (fun _ _ _ hf ↦ hf)
      (fun _ _ _ _ hg ↦ hg) rfl, hs.resuming⟩
  | restart rows maxpid =>
    refine ⟨restart_routed hs.routed hstep, ?_⟩
    unfold step at hstep
    dsimp only at hstep
    split at hstep
    · cases hstep
    · rw [← Option.some.inj hstep]
      exact fun _ ↦ rfl
  | resume wi task queueName =>
    have hstep' := hstep
    unfold step at hstep'
    dsimp only at hstep'
    split at hstep'
    case h_2 => cases hstep'
    rename_i monitor hstarted hsaved hexecuting
    have hforker := hs.resuming hstarted
    -- no task is being forked while the engine resumes
    have hidle : ∀ i t tid, h.engine.forker ≠ .registered i t tid := by
      rw [hforker]
      exact nofun
    refine ⟨resume_routed hs.routed hidle hok hstep, fun _ ↦ ?_⟩
    rw [← Option.some.inj hstep']
    exact hforker
  | start =>
    rw [← Option.some.inj hstep]
    exact ⟨hs.routed.mono (fun _ hm ↦ hm) (fun _ _ hx ↦ hx) rfl (fun _ _ _ hf ↦ hf)
      (fun _ _ _ _ hg ↦ hg) rfl, nofun⟩

/-- In every run in which no identifier is given to a task while another monitor has it, `TaskStop` is only
called with the message of the monitor that was forked for the current execution of the task, whatever
crashes and restarts there are. -/
theorem stops_of_run (A : Allocator (Task WI DOMNode)) (getInstanceID : WI → UInt32)
    (pool : QueuePool WI DOMNode) (actions : List (HostAction WI DOMNode)) (h : Host WI DOMNode)
    (hok : Meets (step A getInstanceID) Guarded (empty pool) actions)
    (hrun : run (step A getInstanceID) (empty pool) actions = some h) :
    ∀ s ∈ h.stops, s.execution = some s.sender := by
  have hstep : ∀ h a h', Sound h → Guarded h a → step A getInstanceID h a = some h' → Sound h' :=
    fun _ _ _ hs hok hstep ↦ step_sound hs hok hstep
  exact (run_invariant hstep (empty_sound pool) hok hrun).routed.stops

end Steps

instance (h : Host WI DOMNode) [DecidableEq WI] [DecidableEq DOMNode] :
    (action : HostAction WI DOMNode) → Decidable (h.Guarded action)
  | .engine .executeTask =>
      match hforker : h.engine.forker with
      | .dequeued _ queueName _ =>
          decidable_of_iff ((h.engine.pool.lookup queueName).isSome = true ∧
            ∃ tid ∈ h.engine.pool.freeTid, ∀ m ∈ h.senders, m.tid ≠ tid) (by simp [Guarded, hforker])
      | .idle | .waiting | .registered .. | .releasing .. | .exited =>
          .isTrue (by simp [Guarded, hforker])
  | .resume wi task queueName =>
      inferInstanceAs (Decidable (∀ monitor ∈ h.saved (wi, task), ∀ m ∈ h.senders,
        m.tid = (h.engine.pool.executeTask wi task queueName monitor.tid).1 → m = monitor))
  | .engine (.enqueueTask ..) | .engine (.cancel ..) | .engine (.cancelTasks ..)
  | .engine .dequeueTask | .engine .wakeUp | .engine (.taskExecute ..) | .engine .terminateFailed
  | .engine (.gather ..) | .exit .. | .lose .. | .receive | .terminateTask .. | .taskStop
  | .recordSavepoint .. | .restart .. | .start => .isTrue trivial

/-- A task is taken from its queue and forked. -/
def executesNext (pid : Nat) : List (HostAction UInt32 Nat) :=
  [.engine .dequeueTask, .engine .executeTask, .engine (.taskExecute true (some pid))]

def gathersNext : List (HostAction UInt32 Nat) := [.receive, .terminateTask true, .taskStop]

def defaultPool : QueuePool UInt32 Nat where
  name := ["default"]
  queue := [Queue.fresh "default" 1 1]
  tid := fun _ ↦ none
  maxpid := 32768
  lasttid := 0
  forkLocked := false
  forkPossible := false
  forkSignal := false
  isShuttingDown := false

/-- The engine crashes behind a savepoint; the task is resumed, and another one is given the next
identifier. -/
def crashedSaved : List (HostAction UInt32 Nat) :=
  [.engine (.enqueueTask "default" 1 10)] ++ executesNext 100 ++
    [.recordSavepoint 1, .restart [("default", 1, 2)] 32768, .resume 1 10 "default", .start,
      .engine (.enqueueTask "default" 2 20)] ++
    executesNext 200 ++ [.exit ⟨100, 1, 0⟩ (some 0)] ++ gathersNext

theorem stops_crashedSaved : ∃ h : Host UInt32 Nat,
    run (step (Allocator.bump (Task UInt32 Nat)) id) (empty defaultPool) crashedSaved = some h ∧
      h.stops = [⟨1, 10, 0, ⟨100, 1, 0⟩, some ⟨100, 1, 0⟩⟩] ∧
      ∀ s ∈ h.stops, s.execution = some s.sender := by
  have hstops : (run (step (Allocator.bump (Task UInt32 Nat)) id) (empty defaultPool)
      crashedSaved).map Host.stops = some [⟨1, 10, 0, ⟨100, 1, 0⟩, some ⟨100, 1, 0⟩⟩] := by
    decide +kernel
  have hok : Meets (step (Allocator.bump (Task UInt32 Nat)) id) Guarded (empty defaultPool)
      crashedSaved := by
    decide +kernel
  rcases Option.map_eq_some_iff.mp hstops with ⟨h, hrun, heq⟩
  exact ⟨h, hrun, heq, stops_of_run _ id defaultPool crashedSaved h hok hrun⟩

/-- The engine crashes before the savepoint of instance 1 is written, and the task of instance 2 is given
the identifier that the monitor of instance 1 has. -/
def crashedUnsaved : List (HostAction UInt32 Nat) :=
  [.engine (.enqueueTask "default" 1 10)] ++ executesNext 100 ++
    [.restart [("default", 1, 1)] 32768, .start, .engine (.enqueueTask "default" 2 20)] ++
    executesNext 200 ++ [.exit ⟨100, 1, 0⟩ (some 0)] ++ gathersNext

/-- Task 20 is stopped, successfully, while its own monitor still runs. -/
theorem stopped_crashedUnsaved : ∃ h : Host UInt32 Nat,
    run (step (Allocator.bump (Task UInt32 Nat)) id) (empty defaultPool) crashedUnsaved = some h ∧
      h.stops = [⟨2, 20, 0, ⟨100, 1, 0⟩, some ⟨200, 1, 1⟩⟩] ∧
      ¬∀ s ∈ h.stops, s.execution = some s.sender := by
  have hstops : (run (step (Allocator.bump (Task UInt32 Nat)) id) (empty defaultPool)
      crashedUnsaved).map Host.stops = some [⟨2, 20, 0, ⟨100, 1, 0⟩, some ⟨200, 1, 1⟩⟩] := by
    decide +kernel
  rcases Option.map_eq_some_iff.mp hstops with ⟨h, hrun, heq⟩
  refine ⟨h, hrun, heq, ?_⟩
  intro hall
  have hone := hall _ (by rw [heq]; exact List.mem_cons_self)
  exact absurd hone (by decide)

end Host

end EvQueue
