import EvQueue.EngineLimit

/-!
# EngineWorkers — the forker's wait, and the ends of the forker and of the gatherer

The forker sleeps while no queue has a task for it.  Two flags of the pool say so to the other threads:
`fork_possible`, which stands for `!IsLocked()`, and `fork_locked`, which asks for a signal.  Here the
engine runs with its start, with the message queue of the gatherer and with the shutdown.
-/

namespace EvQueue

open Cells Runs

/-- `st_msgbuf`: the exit of a task monitor, or the request to shut down, with `pid` 0. -/
structure Message where
  pid : Nat
  tid : Nat
deriving DecidableEq, Repr

/-- Where the gatherer stands in the loop of `ProcessManager::Gather`. -/
inductive Reception where
  /-- In `msgrcv`. -/
  | receiving
  | terminating (message : Message)
  /-- It has returned: behind this message, or because `msgrcv` failed. -/
  | exited (message : Option Message)
deriving DecidableEq, Repr

/-- How far the main thread is in `ProcessManager::Shutdown`. -/
inductive MainThread where
  | accepting
  /-- `is_shutting_down = true`. -/
  | flagged
  /-- `qp->Shutdown()`. -/
  | poolDown
  /-- `msgsnd` of the message with `pid` 0. -/
  | joining
deriving DecidableEq, Repr

structure Workers (WI DOMNode : Type) where
  engine : Engine WI DOMNode
  /-- Whether the forker and the gatherer were created. -/
  started : Bool
  gatherer : Reception
  messages : List Message
  main : MainThread

inductive WorkersAction (WI DOMNode : Type) where
  /-- A step of a client or of the forker. -/
  | engine (action : EngineAction WI DOMNode)
  /-- `ExecuteTask` by `WorkflowInstance::Resume`. -/
  | resume (workflowInstance : WI) (task : DOMNode) (queueName : String) (taskId : Nat)
  /-- `new ProcessManager()`. -/
  | start
  /-- A message is put into the queue, by a task monitor or by any other process. -/
  | send (message : Message)
  | receive
  /-- `msgrcv` does not return a message: it was interrupted by a signal, or failed. -/
  | interrupt
  /-- `TerminateTask` by the gatherer. -/
  | terminateTask
  /-- The next statement of `ProcessManager::Shutdown`. -/
  | shutdown

namespace Workers

variable {WI DOMNode : Type}

/-- `ProcessManager::is_shutting_down`. -/
def isShuttingDown (s : Workers WI DOMNode) : Bool := s.main != .accepting

def step (A : Allocator (Task WI DOMNode)) (getInstanceID : WI → UInt32) (s : Workers WI DOMNode) :
    WorkersAction WI DOMNode → Option (Workers WI DOMNode)
  | .engine (.gather _ _) => none
  | .engine (.enqueueTask queueName wi task) =>
      (s.engine.step A getInstanceID (.enqueueTask queueName wi task)).map fun engine ↦
        { s with engine }
  | .engine action =>
      if s.started then
        (s.engine.step A getInstanceID action).map fun engine ↦ { s with engine }
      else none
  | .resume wi task queueName taskId =>
      if s.started then none
      else
        let (_, pool) := s.engine.pool.executeTask wi task queueName taskId
        some { s with engine := { s.engine with pool } }
  | .start => if s.started then none else some { s with started := true }
  | .send message => some { s with messages := s.messages ++ [message] }
  | .receive =>
      match s.started, s.gatherer, s.messages with
      | true, .receiving, message :: messages =>
          if message.pid = 0 then
            -- without a shutdown the request is ignored
            if s.isShuttingDown then some { s with messages, gatherer := .exited (some message) }
            else some { s with messages }
          else some { s with messages, gatherer := .terminating message }
      | _, _, _ => none
  | .interrupt =>
      match s.started, s.gatherer with
      | true, .receiving => some { s with gatherer := .exited none }
      | _, _ => none
  | .terminateTask =>
      match s.gatherer with
      | .terminating message =>
          (s.engine.step A getInstanceID (.gather message.pid message.tid)).map fun engine ↦
            { s with engine, gatherer := .receiving }
      | _ => none
  | .shutdown =>
      match s.started, s.main with
      | true, .accepting => some { s with main := .flagged }
      | true, .flagged =>
          some { s with
            engine := { s.engine with pool := s.engine.pool.shutdown }
            main := .poolDown }
      | true, .poolDown => some { s with messages := s.messages ++ [⟨0, 0⟩], main := .joining }
      | _, _ => none

/-- The engine before `Resume`. -/
def create (pool : QueuePool WI DOMNode) : Workers WI DOMNode :=
  { engine := .start pool, started := false, gatherer := .receiving, messages := [],
    main := .accepting }

end Workers

/-! ## The flags of the pool -/

namespace QueuePool

variable {WI DOMNode : Type} {p p' : QueuePool WI DOMNode}

/-- What a call does to the flags: it leaves them and the queues alone, or ends with a refresh. -/
structure Refreshed (p p' : QueuePool WI DOMNode) : Prop where
  forkLocked : p'.forkLocked = p.forkLocked
  isShuttingDown : p'.isShuttingDown = p.isShuttingDown
  flags : (p'.queue = p.queue ∧ p'.forkPossible = p.forkPossible ∧ p'.forkSignal = p.forkSignal) ∨
    (p'.forkPossible = !p'.isLocked ∧ p'.forkSignal = (p.forkSignal || (p.forkLocked && !p'.isLocked)))

theorem refreshed_updateForkPossible (hlocked : p'.forkLocked = p.forkLocked)
    (hdown : p'.isShuttingDown = p.isShuttingDown) (hsignal : p'.forkSignal = p.forkSignal) :
    Refreshed p p'.updateForkPossible where
  forkLocked := hlocked
  isShuttingDown := hdown
  flags := by
    right
    unfold updateForkPossible
    rw [hsignal, hlocked]
    exact ⟨rfl, rfl⟩

theorem Refreshed.same : Refreshed p p := ⟨rfl, rfl, .inl ⟨rfl, rfl, rfl⟩⟩

theorem enqueueTask_refreshed {A : Allocator (Task WI DOMNode)} {queueName : String} {wi : WI}
    {task : DOMNode} {found : Bool} (h : p.enqueueTask A queueName wi task = some (found, p')) :
    Refreshed p p' := by
  unfold enqueueTask at h
  split at h
  · cases h
    exact .same
  · rcases Option.bind_eq_some_iff.mp h with ⟨q, -, h⟩
    rcases Option.map_eq_some_iff.mp h with ⟨q', -, h⟩
    cases h
    exact refreshed_updateForkPossible rfl rfl rfl

theorem executeTask_refreshed (p : QueuePool WI DOMNode) (wi : WI) (task : DOMNode)
    (queueName : String) (taskId : Nat) : Refreshed p (p.executeTask wi task queueName taskId).2 := by
  unfold executeTask
  split
  · exact .same
  · split
    · split
      · exact refreshed_updateForkPossible rfl rfl rfl
      · exact ⟨rfl, rfl, .inl ⟨rfl, rfl, rfl⟩⟩
    · exact refreshed_updateForkPossible rfl rfl rfl

theorem terminateTask_refreshed (p : QueuePool WI DOMNode) (taskId : Nat) :
    Refreshed p (p.terminateTask taskId).2 := by
  unfold terminateTask
  split
  · exact .same
  · exact refreshed_updateForkPossible rfl rfl rfl

theorem cancelTasks_refreshed {getInstanceID : WI → UInt32} {id : UInt32}
    (h : p.cancelTasks getInstanceID id = some p') : Refreshed p p' := by
  rcases Option.map_eq_some_iff.mp h with ⟨queue, -, heq⟩
  rw [← heq]
  exact refreshed_updateForkPossible rfl rfl rfl

/-- The flags, with whether the forker waits: a forker that waits without a signal pending has nothing
to do, and no signal is left from before it waits. -/
structure Flags (p : QueuePool WI DOMNode) (asleep : Bool) : Prop where
  possible : p.forkPossible = !p.isLocked
  waiting : asleep = true → p.forkLocked = true
  quiet : asleep = true → p.forkSignal = false → p.isLocked = true ∧ p.isShuttingDown = false
  idle : asleep = false → p.isShuttingDown = false → p.forkLocked = false
  signal : p.forkSignal = true → p.forkLocked = true

theorem Refreshed.flags_of {asleep : Bool} (hr : Refreshed p p') (h : p.Flags asleep) :
    p'.Flags asleep := by
  have hlocked := hr.forkLocked
  have hdown := hr.isShuttingDown
  rcases hr.flags with ⟨hqueue, hpossible, hsignal⟩ | ⟨hpossible, hsignal⟩
  · have hsame : p'.isLocked = p.isLocked := by
      unfold isLocked
      rw [hqueue]
    refine ⟨?_, ?_, ?_, ?_, ?_⟩
    · rw [hpossible, hsame]
      exact h.possible
    · rw [hlocked]
      exact h.waiting
    · rw [hsignal, hsame, hdown]
      exact h.quiet
    · rw [hlocked, hdown]
      exact h.idle
    · rw [hsignal, hlocked]
      exact h.signal
  · refine ⟨hpossible, ?_, ?_, ?_, ?_⟩
    · rw [hlocked]
      exact h.waiting
    · intro hwaiting hquiet
      rw [hsignal, h.waiting hwaiting, Bool.true_and, Bool.or_eq_false_iff] at hquiet
      rw [hdown]
      exact ⟨by simpa using hquiet.2, (h.quiet hwaiting hquiet.1).2⟩
    · rw [hlocked, hdown]
      exact h.idle
    · intro hset
      rw [hsignal, Bool.or_eq_true, Bool.and_eq_true] at hset
      rw [hlocked]
      rcases hset with hold | hnew
      · exact h.signal hold
      · exact hnew.1

theorem Flags.shutdown {asleep : Bool} (h : p.Flags asleep) : p.shutdown.Flags asleep where
  possible := h.possible
  waiting := h.waiting
  quiet hwaiting hquiet := by
    have hset : (p.forkSignal || p.forkLocked) = false := hquiet
    rw [h.waiting hwaiting, Bool.or_true] at hset
    cases hset
  idle _ hdown := nomatch hdown
  signal hset := by
    have hor : (p.forkSignal || p.forkLocked) = true := hset
    rw [Bool.or_eq_true] at hor
    exact hor.elim h.signal id

/-- A queue that hands nothing out is locked. -/
theorem isLocked_of_dequeueTask {q q' : Queue WI DOMNode} (h : q.dequeueTask = some (none, q')) :
    q.isLocked = true := by
  unfold Queue.dequeueTask at h
  split at h
  · assumption
  · split at h
    · rcases Option.map_eq_some_iff.mp h with ⟨cell, -, heq⟩
      cases heq
    · rcases Option.bind_eq_some_iff.mp h with ⟨tmp, -, h⟩
      rcases Option.map_eq_some_iff.mp h with ⟨cell, -, heq⟩
      cases heq

/-- The loop finds nothing only when every queue is locked. -/
theorem all_isLocked_of_dequeueLoop {n : Nat} {qs qs' : List (Queue WI DOMNode)}
    (h : dequeueLoop n qs = some (none, qs')) : qs.all Queue.isLocked = true := by
  induction qs generalizing n qs' with
  | nil => rfl
  | cons q qs ih =>
    rw [dequeueLoop] at h
    rcases Option.bind_eq_some_iff.mp h with ⟨⟨out, q'⟩, hq, h⟩
    cases out with
    | some t => cases h
    | none =>
      rcases Option.map_eq_some_iff.mp h with ⟨⟨found, rest⟩, hrest, heq⟩
      cases heq
      rw [List.all_cons, isLocked_of_dequeueTask hq, ih hrest]
      rfl

theorem Flags.dequeueEnter (h : p.Flags false) {go : Option Bool} (hcall : p.dequeueEnter = (go, p')) :
    match go with
    | none => p'.Flags true ∧ p'.isShuttingDown = p.isShuttingDown
    | some false => p' = p ∧ p.isShuttingDown = true
    | some true => p' = p ∧ p.isShuttingDown = false ∧ p.isLocked = false := by
  unfold QueuePool.dequeueEnter at hcall
  by_cases hdown : p.isShuttingDown = true
  · rw [if_pos hdown] at hcall
    cases hcall
    exact ⟨rfl, hdown⟩
  · rw [if_neg hdown] at hcall
    rw [Bool.not_eq_true] at hdown
    have hpossible := h.possible
    by_cases hlocked : p.isLocked = true
    · rw [if_pos (by simp [hpossible, hlocked])] at hcall
      cases hcall
      exact ⟨⟨hpossible, fun _ ↦ rfl, fun _ _ ↦ ⟨hlocked, hdown⟩, nofun, fun _ ↦ rfl⟩, rfl⟩
    · rw [if_neg (by simp [hpossible, hlocked])] at hcall
      cases hcall
      exact ⟨rfl, hdown, by simpa using hlocked⟩

/-- Behind the second critical section the forker does not wait; the section finds no task only when a
shutdown was requested or every queue is locked. -/
theorem Flags.dequeueBody {asleep : Bool} (h : p.Flags asleep)
    {found : Option (Nat × Task WI DOMNode)} (hcall : p.dequeueBody = some (found, p')) :
    p'.Flags false ∧ p'.isShuttingDown = p.isShuttingDown ∧
      (found = none → p.isShuttingDown = true ∨ p.isLocked = true) := by
  unfold QueuePool.dequeueBody at hcall
  by_cases hdown : p.isShuttingDown = true
  · rw [if_pos hdown] at hcall
    cases hcall
    refine ⟨⟨h.possible, nofun, nofun, ?_, h.signal⟩, rfl, fun _ ↦ .inl hdown⟩
    intro _ hnot
    rw [hdown] at hnot
    cases hnot
  · rw [if_neg hdown] at hcall
    rcases Option.map_eq_some_iff.mp hcall with ⟨⟨found', queue⟩, hloop, heq⟩
    cases found' with
    | some x =>
      cases heq
      exact ⟨⟨rfl, nofun, nofun, fun _ _ ↦ rfl, nofun⟩, rfl, nofun⟩
    | none =>
      have hlocked : p.isLocked = true := all_isLocked_of_dequeueLoop hloop
      have hqueue : queue = p.queue := by
        rcases dequeueLoop_cases hloop with hnone | ⟨i, q, t, q', hsome, -⟩
        · exact hnone.2
        · cases hsome
      cases heq
      rw [hqueue]
      exact ⟨⟨h.possible, nofun, nofun, fun _ _ ↦ rfl, nofun⟩, rfl, fun _ ↦ .inr hlocked⟩

end QueuePool

/-! ## The forker and the flags -/

def Forker.isWaiting {WI DOMNode : Type} : Forker WI DOMNode → Bool
  | .waiting => true
  | _ => false

namespace Engine

variable {WI DOMNode : Type} {A : Allocator (Task WI DOMNode)} {getInstanceID : WI → UInt32}
  {e e' : Engine WI DOMNode} {a : EngineAction WI DOMNode}

/-- What one step does: the flags agree with the queues and with the forker, and the forker exits only
when a shutdown was requested or when it was woken up for nothing. -/
structure Agrees (a : EngineAction WI DOMNode) (e e' : Engine WI DOMNode) : Prop where
  flags : e'.pool.Flags e'.forker.isWaiting
  isShuttingDown : e'.pool.isShuttingDown = e.pool.isShuttingDown
  exited : e'.forker = .exited → e.forker = .exited ∨ e.pool.isShuttingDown = true ∨
    (a = .wakeUp ∧ e.pool.isLocked = true)

theorem finishDequeue_agrees {asleep : Bool} (h : e.pool.Flags asleep)
    (hlocked : e.pool.isLocked = true → a = .wakeUp)
    (hstep : e.finishDequeue e.pool = some e') : Agrees a e e' := by
  rcases Option.map_eq_some_iff.mp hstep with ⟨⟨found, pool⟩, hcall, heq⟩
  rcases h.dequeueBody hcall with ⟨hflags, hdown, hnone⟩
  rw [← heq]
  cases found with
  | some x => exact ⟨hflags, hdown, nofun⟩
  | none =>
    refine ⟨hflags, hdown, ?_⟩
    intro _
    rcases hnone rfl with hdown' | hlocked'
    · exact .inr (.inl hdown')
    · exact .inr (.inr ⟨hlocked hlocked', hlocked'⟩)

/-- A call of any thread but the forker's `DequeueTask`. -/
theorem Agrees.of_refreshed (h : e.pool.Flags e.forker.isWaiting) (hr : e.pool.Refreshed e'.pool)
    (hwaiting : e'.forker.isWaiting = e.forker.isWaiting)
    (hexited : e'.forker = .exited → e.forker = .exited) : Agrees a e e' where
  flags := by
    rw [hwaiting]
    exact hr.flags_of h
  isShuttingDown := hr.isShuttingDown
  exited hnew := .inl (hexited hnew)

theorem dequeueTask_agrees (h : e.pool.Flags e.forker.isWaiting)
    (hstep : e.step A getInstanceID .dequeueTask = some e') : Agrees .dequeueTask e e' := by
  unfold step at hstep
  dsimp only at hstep
  split at hstep
  · rename_i hidle
    rw [hidle] at h
    split at hstep
    · rename_i pool hcall
      rcases h.dequeueEnter hcall with ⟨heq, hdown⟩
      cases hstep
      rw [heq]
      exact ⟨h, rfl, fun _ ↦ .inr (.inl hdown)⟩
    · rename_i pool hcall
      rcases h.dequeueEnter hcall with ⟨hflags, hdown⟩
      cases hstep
      exact ⟨hflags, hdown, nofun⟩
    · rename_i pool hcall
      rcases h.dequeueEnter hcall with ⟨heq, -, hlocked⟩
      rw [heq] at hstep
      apply finishDequeue_agrees h _ hstep
      rw [hlocked]
      exact nofun
  · cases hstep

theorem step_agrees (h : e.pool.Flags e.forker.isWaiting)
    (hstep : e.step A getInstanceID a = some e') : Agrees a e e' := by
  cases a with
  | enqueueTask queueName wi task =>
    rcases Option.map_eq_some_iff.mp hstep with ⟨⟨found, pool⟩, hcall, heq⟩
    rw [← heq]
    exact .of_refreshed h (QueuePool.enqueueTask_refreshed hcall) rfl id
  | cancel id =>
    cases hstep
    exact ⟨h, rfl, .inl⟩
  | cancelTasks id =>
    unfold step at hstep
    dsimp only at hstep
    split at hstep
    · rcases Option.map_eq_some_iff.mp hstep with ⟨pool, hcall, heq⟩
      rw [← heq]
      exact .of_refreshed h (QueuePool.cancelTasks_refreshed hcall) rfl fun hexited ↦ hexited
    · cases hstep
  | dequeueTask => exact dequeueTask_agrees h hstep
  | wakeUp =>
    unfold step at hstep
    dsimp only at hstep
    split at hstep
    · exact finishDequeue_agrees h (fun _ ↦ rfl) hstep
    · cases hstep
  | executeTask =>
    unfold step at hstep
    dsimp only at hstep
    split at hstep
    · rename_i hforker
      cases hstep
      apply Agrees.of_refreshed h (QueuePool.executeTask_refreshed _ _ _ _ _)
      · rw [hforker]
        rfl
      · nofun
    · cases hstep
  | taskExecute known fork =>
    unfold step at hstep
    dsimp only at hstep
    split at hstep
    · rename_i hforker
      rw [hforker] at h
      split at hstep
      · cases hstep
        exact ⟨h, rfl, nofun⟩
      · cases hstep
        exact ⟨h, rfl, nofun⟩
    · cases hstep
  | terminateFailed =>
    unfold step at hstep
    dsimp only at hstep
    split at hstep
    · rename_i hforker
      cases hstep
      apply Agrees.of_refreshed h (QueuePool.terminateTask_refreshed _ _)
      · rw [hforker]
        rfl
      · nofun
    · cases hstep
  | gather pid tid =>
    cases hstep
    exact .of_refreshed h (QueuePool.terminateTask_refreshed _ _) rfl fun hexited ↦ hexited

end Engine

/-! ## Runs -/

namespace QueuePool

variable {WI DOMNode : Type}

/-- The constructor computes `fork_possible`. -/
theorem create_flags {rows : List (String × UInt32 × UInt32)} {maxpid : Fin (2 ^ 31)}
    {pool : QueuePool WI DOMNode} (hcreate : QueuePool.create rows maxpid = .ok pool) :
    pool.Flags false := by
  rcases Engine.create_eq hcreate with ⟨queue, -, heq⟩
  rw [heq]
  exact ⟨rfl, nofun, nofun, fun _ _ ↦ rfl, nofun⟩

end QueuePool

namespace Workers

variable {WI DOMNode : Type} {A : Allocator (Task WI DOMNode)} {getInstanceID : WI → UInt32}
  {s s' : Workers WI DOMNode} {a : WorkersAction WI DOMNode}

/-- The flags of the pool agree with its queues and with the forker. -/
def Agreed (s : Workers WI DOMNode) : Prop := s.engine.pool.Flags s.engine.forker.isWaiting

/-- Behind the call of `QueuePool::Shutdown` the pool knows of it. -/
def Asked (s : Workers WI DOMNode) : Prop :=
  s.main = .poolDown ∨ s.main = .joining → s.engine.pool.isShuttingDown = true

/-- The gatherer has returned only because it was told to. -/
def Told (s : Workers WI DOMNode) : Prop :=
  ∀ received, s.gatherer = .exited received →
    (∃ message, received = some message ∧ message.pid = 0) ∧ s.isShuttingDown = true

/-- What one step does to the ends of the two threads. -/
structure Onward (a : WorkersAction WI DOMNode) (s s' : Workers WI DOMNode) : Prop where
  agreed : s'.Agreed
  asked : s.Asked → s'.Asked
  poolDown : s.engine.pool.isShuttingDown = true → s'.engine.pool.isShuttingDown = true
  forker : s'.engine.forker = .exited → s.engine.forker = .exited ∨
    s.engine.pool.isShuttingDown = true ∨ (a = .engine .wakeUp ∧ s.engine.pool.isLocked = true)
  told : s.Told → a ≠ .interrupt → s'.Told

/-- A step of the engine. -/
theorem Onward.of_engine (h : s.Agreed) {action : EngineAction WI DOMNode} {engine : Engine WI DOMNode}
    (hstep : s.engine.step A getInstanceID action = some engine) :
    Onward (.engine action) s { s with engine } := by
  have hagrees := Engine.step_agrees h hstep
  have hdown : s.engine.pool.isShuttingDown = true → engine.pool.isShuttingDown = true := by
    rw [hagrees.isShuttingDown]
    exact id
  refine ⟨hagrees.flags, fun hasked hmain ↦ hdown (hasked hmain), hdown, ?_, fun htold _ ↦ htold⟩
  · intro hexited
    rcases hagrees.exited hexited with hold | hdown | ⟨heq, hlocked⟩
    · exact .inl hold
    · exact .inr (.inl hdown)
    · exact .inr (.inr ⟨by rw [heq], hlocked⟩)

theorem step_onward (h : s.Agreed) (hstep : s.step A getInstanceID a = some s') : Onward a s s' := by
  cases a with
  | engine action =>
    cases action with
    | gather pid tid => cases hstep
    | enqueueTask queueName wi task =>
      rcases Option.map_eq_some_iff.mp hstep with ⟨engine, hengine, heq⟩
      rw [← heq]
      exact .of_engine h hengine
    | _ =>
      unfold step at hstep
      dsimp only at hstep
      split at hstep
      · rcases Option.map_eq_some_iff.mp hstep with ⟨engine, hengine, heq⟩
        rw [← heq]
        exact .of_engine h hengine
      · cases hstep
  | resume wi task queueName taskId =>
    unfold step at hstep
    dsimp only at hstep
    split at hstep
    · cases hstep
    · cases hstep
      have hr := s.engine.pool.executeTask_refreshed wi task queueName taskId
      have hdown : s.engine.pool.isShuttingDown = true →
          (s.engine.pool.executeTask wi task queueName taskId).2.isShuttingDown = true := by
        rw [hr.isShuttingDown]
        exact id
      exact ⟨hr.flags_of h, fun hasked hmain ↦ hdown (hasked hmain), hdown, .inl, fun htold _ ↦ htold⟩
  | start =>
    unfold step at hstep
    dsimp only at hstep
    split at hstep
    · cases hstep
    · cases hstep
      exact ⟨h, id, id, .inl, fun htold _ ↦ htold⟩
  | send message =>
    cases hstep
    exact ⟨h, id, id, .inl, fun htold _ ↦ htold⟩
  | receive =>
    unfold step at hstep
    dsimp only at hstep
    split at hstep
    · rename_i message messages _ hreceiving _
      split at hstep
      · -- a message with process 0 is a request to shut down, which counts only once the flag is set
        rename_i hpid
        split at hstep
        · rename_i hdown
          cases hstep
          refine ⟨h, id, id, .inl, ?_⟩
          intro _ _ received hexited
          cases hexited
          exact ⟨⟨message, rfl, hpid⟩, hdown⟩
        · cases hstep
          exact ⟨h, id, id, .inl, fun htold _ ↦ htold⟩
      · cases hstep
        exact ⟨h, id, id, .inl, fun _ _ ↦ nofun⟩
    · cases hstep
  | interrupt =>
    unfold step at hstep
    dsimp only at hstep
    split at hstep
    · cases hstep
      exact ⟨h, id, id, .inl, fun _ hne ↦ absurd rfl hne⟩
    · cases hstep
  | terminateTask =>
    unfold step at hstep
    dsimp only at hstep
    split at hstep
    · rcases Option.map_eq_some_iff.mp hstep with ⟨engine, hengine, heq⟩
      rw [← heq]
      have honward := Onward.of_engine h hengine
      refine ⟨honward.agreed, honward.asked, honward.poolDown, ?_, fun _ _ ↦ nofun⟩
      intro hexited
      -- the gatherer does not wake the forker up without work
      rcases honward.forker hexited with hold | hdown | ⟨hwakeUp, -⟩
      · exact .inl hold
      · exact .inr (.inl hdown)
      · cases hwakeUp
    · cases hstep
  | shutdown =>
    unfold step at hstep
    dsimp only at hstep
    split at hstep
    · cases hstep
      refine ⟨h, ?_, id, .inl, fun htold _ received hexited ↦ ⟨(htold received hexited).1, rfl⟩⟩
      intro _ hmain
      rcases hmain with hmain | hmain
      · cases hmain
      · cases hmain
    · cases hstep
      exact ⟨QueuePool.Flags.shutdown h, fun _ _ ↦ rfl, fun _ ↦ rfl, .inl,
        fun htold _ received hexited ↦ ⟨(htold received hexited).1, rfl⟩⟩
    · -- the pool is shut down already
      rename_i hmain
      cases hstep
      exact ⟨h, fun hasked _ ↦ hasked (.inl hmain), id, .inl,
        fun htold _ received hexited ↦ ⟨(htold received hexited).1, rfl⟩⟩
    · cases hstep

/-- The forker finds something to do, or a shutdown, whenever it returns from its wait, and `msgrcv`
always returns a message. -/
def Undisturbed (s : Workers WI DOMNode) : WorkersAction WI DOMNode → Prop
  | .engine .wakeUp => s.engine.pool.isLocked = false ∨ s.engine.pool.isShuttingDown = true
  | .interrupt => False
  | _ => True

structure Inv (s : Workers WI DOMNode) : Prop where
  agreed : s.Agreed
  forker : s.engine.forker = .exited → s.engine.pool.isShuttingDown = true
  told : s.Told

theorem step_inv (h : s.Inv) (hok : s.Undisturbed a) (hstep : s.step A getInstanceID a = some s') :
    s'.Inv := by
  have honward := step_onward h.agreed hstep
  refine ⟨honward.agreed, ?_, ?_⟩
  · intro hexited
    apply honward.poolDown
    rcases honward.forker hexited with hold | hdown | ⟨hwakeUp, hlocked⟩
    · exact h.forker hold
    · exact hdown
    · rw [hwakeUp] at hok
      rcases hok with hfree | hdown
      · rw [hlocked] at hfree
        cases hfree
      · exact hdown
  · apply honward.told h.told
    intro heq
    rw [heq] at hok
    exact hok

theorem create_agreed {rows : List (String × UInt32 × UInt32)} {maxpid : Fin (2 ^ 31)}
    {pool : QueuePool WI DOMNode} (hcreate : QueuePool.create rows maxpid = .ok pool) :
    (create pool).Agreed := QueuePool.create_flags hcreate

/-- In every state of every run `fork_possible` is the negation of `IsLocked()`, and when the forker
waits without a signal pending, `QueuePool::Shutdown` was not called and no queue has a task for it.  A
signal is pending only while the forker waits, or behind a shutdown. -/
theorem forker_of_run (A : Allocator (Task WI DOMNode)) (getInstanceID : WI → UInt32)
    (rows : List (String × UInt32 × UInt32)) (maxpid : Fin (2 ^ 31)) (pool : QueuePool WI DOMNode)
    (hcreate : QueuePool.create rows maxpid = .ok pool) (actions : List (WorkersAction WI DOMNode))
    (s : Workers WI DOMNode) (hrun : run (step A getInstanceID) (create pool) actions = some s) :
    s.engine.pool.forkPossible = !s.engine.pool.isLocked ∧
      (s.engine.forker = .waiting → s.engine.pool.forkSignal = false →
        s.engine.pool.isLocked = true ∧ s.engine.pool.isShuttingDown = false ∧
          (s.main = .accepting ∨ s.main = .flagged) ∧
            ∀ q ∈ s.engine.pool.queue, q.dequeueTask = some (none, q)) ∧
      (s.engine.pool.forkSignal = true →
        s.engine.forker = .waiting ∨ s.engine.pool.isShuttingDown = true) := by
  have hmeets : Meets (step A getInstanceID) (fun _ _ ↦ True) (create pool) actions :=
    Meets.of_forall fun _ _ ↦ trivial
  have hstart : (create pool).Agreed ∧ (create pool).Asked := by
    refine ⟨create_agreed hcreate, ?_⟩
    intro hmain
    rcases hmain with hmain | hmain
    · cases hmain
    · cases hmain
  have hsteps : ∀ r a r', (r.Agreed ∧ r.Asked) → True → step A getInstanceID r a = some r' →
      r'.Agreed ∧ r'.Asked := by
    intro r a r' h _ hstep
    have honward := step_onward h.1 hstep
    exact ⟨honward.agreed, honward.asked h.2⟩
  -- the cached flag on the one hand, the order of main's shutdown on the other
  rcases run_invariant hsteps hstart hmeets hrun with ⟨hagreed, hasked⟩
  refine ⟨hagreed.possible, ?_, ?_⟩
  · intro hwaiting hquiet
    have hasleep : s.engine.forker.isWaiting = true := by
      rw [hwaiting]
      rfl
    rcases hagreed.quiet hasleep hquiet with ⟨hlocked, hdown⟩
    refine ⟨hlocked, hdown, ?_, ?_⟩
    · cases hmain : s.main with
      | accepting => exact .inl rfl
      | flagged => exact .inr rfl
      | poolDown =>
        -- main has shut the pool down, so the forker would have been signalled
        rw [hasked (.inl hmain)] at hdown
        cases hdown
      | joining =>
        rw [hasked (.inr hmain)] at hdown
        cases hdown
    intro q hq
    exact Queue.dequeueTask_locked (List.all_eq_true.mp hlocked q hq)
  · intro hsignal
    have hset := hagreed.signal hsignal
    cases hasleep : s.engine.forker.isWaiting with
    | true =>
      left
      cases hforker : s.engine.forker with
      | waiting => rfl
      | _ =>
        rw [hforker] at hasleep
        cases hasleep
    | false =>
      right
      by_contra hdown
      rw [Bool.not_eq_true] at hdown
      rw [hagreed.idle hasleep hdown] at hset
      cases hset

/-- A task is enqueued while the forker waits, and is forked; the forker waits again, at the concurrency
of the queue. -/
def waitTwice : List (WorkersAction UInt32 Nat) :=
  [.start, .engine .dequeueTask, .engine (.enqueueTask "default" 1 10), .engine .wakeUp,
    .engine .executeTask, .engine (.taskExecute true (some 100)), .engine (.enqueueTask "default" 1 11),
    .engine .dequeueTask]

theorem forker_waitTwice : ∃ (pool : QueuePool UInt32 Nat) (s : Workers UInt32 Nat),
    QueuePool.create [("default", 1, 1)] 8 = .ok pool ∧
      run (step (Allocator.bump (Task UInt32 Nat)) id) (create pool) waitTwice = some s ∧
      s.engine.forker = .waiting ∧ s.engine.pool.isLocked = true :=
  ⟨_, _, rfl, rfl, rfl, ((forker_of_run (Allocator.bump (Task UInt32 Nat)) id [("default", 1, 1)] 8 _ rfl
    waitTwice _ rfl).2.1 rfl rfl).1⟩

/-- In every run in which the forker finds something to do, or a shutdown, whenever its wait ends, and in
which `msgrcv` always returns a message: the forker exits only behind the shutdown of the pool, and the
gatherer only when it receives the request to shut down while the flag is set. -/
theorem workers_of_run (A : Allocator (Task WI DOMNode)) (getInstanceID : WI → UInt32)
    (rows : List (String × UInt32 × UInt32)) (maxpid : Fin (2 ^ 31)) (pool : QueuePool WI DOMNode)
    (hcreate : QueuePool.create rows maxpid = .ok pool) (actions : List (WorkersAction WI DOMNode))
    (s : Workers WI DOMNode) (hok : Meets (step A getInstanceID) Undisturbed (create pool) actions)
    (hrun : run (step A getInstanceID) (create pool) actions = some s) :
    (s.engine.forker = .exited → s.engine.pool.isShuttingDown = true) ∧
      ∀ received, s.gatherer = .exited received →
        (∃ message, received = some message ∧ message.pid = 0) ∧ s.isShuttingDown = true := by
  have hstart : (create pool).Inv := ⟨create_agreed hcreate, nofun, nofun⟩
  have hinv : s.Inv :=
    run_invariant (fun _ _ _ h hok hstep ↦ step_inv h hok hstep) hstart hok hrun
  exact ⟨hinv.forker, hinv.told⟩

instance (s : Workers WI DOMNode) : (a : WorkersAction WI DOMNode) → Decidable (s.Undisturbed a)
  | .engine .wakeUp => inferInstanceAs (Decidable (_ ∨ _))
  | .interrupt => .isFalse id
  | .engine (.enqueueTask _ _ _) | .engine (.cancel _) | .engine (.cancelTasks _)
  | .engine .dequeueTask | .engine .executeTask | .engine (.taskExecute _ _)
  | .engine .terminateFailed | .engine (.gather _ _) => .isTrue trivial
  | .resume _ _ _ _ | .start | .send _ | .receive | .terminateTask | .shutdown => .isTrue trivial

/-- The engine is shut down while the forker waits; a request to shut down that came too early is
ignored. -/
def shutDown : List (WorkersAction UInt32 Nat) :=
  [.start, .engine .dequeueTask, .send ⟨0, 0⟩, .receive, .shutdown, .shutdown, .engine .wakeUp,
    .shutdown, .receive]

theorem workers_shutDown : ∃ (pool : QueuePool UInt32 Nat) (s : Workers UInt32 Nat),
    QueuePool.create [("default", 1, 1)] 8 = .ok pool ∧
      run (step (Allocator.bump (Task UInt32 Nat)) id) (create pool) shutDown = some s ∧
      s.engine.forker = .exited ∧ s.engine.pool.isShuttingDown = true ∧
      s.gatherer = .exited (some ⟨0, 0⟩) ∧ s.isShuttingDown = true := by
  refine ⟨_, _, rfl, rfl, rfl, ?_, rfl, ?_⟩
  · exact (workers_of_run (Allocator.bump (Task UInt32 Nat)) id [("default", 1, 1)] 8 _ rfl
      shutDown _ (by decide) rfl).1 rfl
  · exact ((workers_of_run (Allocator.bump (Task UInt32 Nat)) id [("default", 1, 1)] 8 _ rfl
      shutDown _ (by decide) rfl).2 _ rfl).2

/-- The wait ends without a signal while the only queue is empty, and a signal interrupts `msgrcv`: both
threads exit, and no shutdown was requested. -/
theorem workers_disturbed : ∃ (pool : QueuePool UInt32 Nat) (s : Workers UInt32 Nat),
    QueuePool.create [("default", 1, 1)] 8 = .ok pool ∧
      run (step (Allocator.bump (Task UInt32 Nat)) id) (create pool)
        [.start, .engine .dequeueTask, .engine .wakeUp, .interrupt] = some s ∧
      s.engine.forker = .exited ∧ s.engine.pool.isShuttingDown = false ∧
      s.gatherer = .exited none ∧ s.isShuttingDown = false :=
  ⟨_, _, rfl, rfl, rfl, rfl, rfl, rfl⟩

end Workers

end EvQueue
