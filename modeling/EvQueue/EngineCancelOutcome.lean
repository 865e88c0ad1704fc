import EvQueue.EngineCancelLifetimes
import EvQueue.WorkflowInstanceOutcomeRuns

/-!
# EngineCancelOutcome — an instance comes to its outcome, whatever the others do

The queues are there from the start of the engine, so `EnqueueTask` answers the same to all calls.  What an
instance comes to then depends on the results of its own executions alone: not on what other instances are
under way, on how long its tasks wait in the queues, nor on when its retries are due.
-/

namespace EvQueue

open Cells Runs

variable {Node : Type}

namespace CancellingEngine

variable {e e₁ e' : CancellingEngine Node} {id : UInt32}
variable {A : Allocator (Task UInt32 Nat)} {B : Allocator (TimedEvent TimedTask)}
variable {action : CancelAction Node}

/-! ## The names of the queues -/

theorem executeTask_names (pool : QueuePool UInt32 Nat) (id : UInt32) (task : Nat) (queueName : String)
    (tid : Nat) : (pool.executeTask id task queueName tid).2.name = pool.name := by
  unfold QueuePool.executeTask
  cases pool.lookup queueName with
  | none => rfl
  | some i =>
    dsimp only
    split
    · cases pool.freeTid <;> rfl
    · rfl

theorem terminateTask_names (pool : QueuePool UInt32 Nat) (tid : Nat) :
    (pool.terminateTask tid).2.name = pool.name := by
  unfold QueuePool.terminateTask
  cases pool.tid tid <;> rfl

theorem registerTasks_names (pool : QueuePool UInt32 Nat) (id : UInt32) (doc : Document Node)
    (order : List Nat) (tid : Nat → Nat) : (registerTasks pool id doc order tid).name = pool.name := by
  unfold registerTasks
  generalize order.filter _ = tasks
  induction tasks generalizing pool with
  | nil => rfl
  | cons x tasks ih =>
    rw [List.foldl_cons, ih]
    exact executeTask_names _ _ _ _ _

theorem finishDequeue_names {engine engine' : Engine UInt32 Nat} {pool : QueuePool UInt32 Nat}
    (h : engine.finishDequeue pool = some engine') : engine'.pool.name = pool.name := by
  rcases Option.map_eq_some_iff.mp h with ⟨⟨found, pool'⟩, hbody, heq⟩
  have hname : pool'.name = pool.name := by
    rcases QueuePool.dequeueBody_cases hbody with ⟨-, -, hsame⟩ | ⟨-, -, -, -, -, -, -, -, hsame⟩
    · exact hsame.name
    · exact hsame.name
  rw [← heq]
  cases found with
  | none => exact hname
  | some t => exact hname

theorem engine_names {engine engine' : Engine UInt32 Nat} {a : EngineAction UInt32 Nat}
    (h : engine.step A getInstanceID a = some engine') : engine'.pool.name = engine.pool.name := by
  cases a with
  | enqueueTask queueName id task =>
    rcases Option.map_eq_some_iff.mp h with ⟨⟨found, pool⟩, hpool, heq⟩
    rw [← heq]
    -- no operation of the pool touches the names of its queues
    rcases QueuePool.enqueueTask_cases hpool with ⟨hsame, -⟩ | ⟨-, -, -, -, -, -, -, hsame⟩
    · exact congrArg QueuePool.name hsame
    · exact hsame.name
  | cancel id =>
    rw [← Option.some.inj h]
  | cancelTasks id =>
    unfold Engine.step at h
    dsimp only at h
    split at h
    · rcases Option.map_eq_some_iff.mp h with ⟨pool, hpool, heq⟩
      rw [← heq]
      exact (QueuePool.cancelTasks_cases hpool).1.name
    · cases h
  | dequeueTask =>
    unfold Engine.step QueuePool.dequeueEnter at h
    dsimp only at h
    cases hforker : engine.forker with
    | idle =>
      rw [hforker] at h
      by_cases hshut : engine.pool.isShuttingDown = true
      · rw [if_pos hshut] at h
        rw [← Option.some.inj h]
      · rw [if_neg hshut] at h
        cases hpossible : engine.pool.forkPossible with
        | false =>
          rw [hpossible] at h
          rw [← Option.some.inj h]
        | true =>
          rw [hpossible] at h
          exact finishDequeue_names h
    | _ => simp [hforker] at h
  | wakeUp =>
    unfold Engine.step at h
    cases hforker : engine.forker with
    | waiting =>
      rw [hforker] at h
      exact finishDequeue_names h
    | _ => simp [hforker] at h
  | executeTask =>
    unfold Engine.step at h
    cases hforker : engine.forker with
    | dequeued k queueName t =>
      simp only [hforker, Option.some.injEq] at h
      rw [← h]
      exact executeTask_names _ _ _ _ _
    | _ => simp [hforker] at h
  | taskExecute known fork =>
    cases hforker : engine.forker with
    | registered k t tid => rw [(step_taskExecute hforker h).1]
    | _ =>
      unfold Engine.step at h
      simp [hforker] at h
  | terminateFailed =>
    unfold Engine.step at h
    cases hforker : engine.forker with
    | releasing k tid =>
      simp only [hforker, Option.some.injEq] at h
      rw [← h]
      exact terminateTask_names _ _
    | _ => simp [hforker] at h
  | gather pid tid =>
    rw [← Option.some.inj h]
    exact terminateTask_names _ _

/-- No step changes which queues there are. -/
theorem step_names (hstep : e.step A B action = some e') : e'.engine.pool.name = e.engine.pool.name := by
  cases steps_of_step hstep with
  | construct => rfl
  | start _ hcalls => rw [hcalls.instances.2]; rfl
  | resume => exact registerTasks_names _ _ _ _ _
  | enqueueTask _ _ hengine => exact engine_names hengine
  | insertTask => rfl
  | pool _ hengine => exact engine_names hengine
  | taskExecute _ _ hengine hcalls => rw [hcalls.instances.2]; exact engine_names hengine
  | taskStop _ _ _ hcalls => rw [hcalls.instances.2]
  | shiftEvent => rfl
  | alarm _ _ hcalls => rw [hcalls.instances.2]; rfl
  | cancel => rfl
  | flushAll => rfl
  | flush => rfl
  | removed _ _ hcalls => rw [hcalls.instances.2]; rfl
  | flushAllEnd => rfl
  | flushEnd => rfl
  | cancelTasks _ hengine => exact engine_names hengine
  | remove => rfl

theorem environment_eq {pool : QueuePool UInt32 Nat} (h : e.engine.pool.name = pool.name)
    (env : Environment Node) : e.environment env = (start Node pool).environment env := by
  have hlookup : (fun queueName ↦ (e.engine.pool.lookup queueName).isSome) =
      fun queueName ↦ (pool.lookup queueName).isSome := by
    ext queueName
    rw [Engine.lookup_congr h]
  unfold environment
  rw [hlookup]
  rfl

/-! ## Outcomes -/

/-- To the instance `id` the engine answers `env` and `results`; it is made from `doc`, and is neither
resumed nor cancelled.  What the other instances are answered does not matter. -/
def Answers (env : Environment Node) (results : Nat → Nat → Int × String) (doc : Document Node)
    (id : UInt32) (e : CancellingEngine Node) : CancelAction Node → Prop
  | .construct j doc' => j = id → doc' = doc
  | .start j env' => j = id → env' = env
  | .resume j _ _ _ _ => j ≠ id
  | .taskExecute env' _ =>
      ∀ k t tid, e.engine.forker = .registered k t tid → t.workflowInstance = id → env' = env
  | .taskStop j task env' retval output => j = id → env' = env ∧ ∀ s t, e.look id = some (true, s) →
      s.doc.task? task = some t → (retval, output) = results task t.outputs.length
  | .alarm t env' => t.workflowInstance = id → env' = env
  | .removed env' =>
      ∀ request t rest, e.flush = some (request, t :: rest) → t.workflowInstance = id → env' = env
  | .cancel j => j ≠ id
  | _ => True

/-- The instance is not there, or is as it was constructed. -/
def Absent (doc : Document Node) (id : UInt32) (e : CancellingEngine Node) : Prop :=
  e.instances id = none ∨ e.look id = some (false, .create doc)

/-- The instance is what the lifetime says. -/
structure Mirrors (id : UInt32) (e : CancellingEngine Node) (l : Lifetime Node) : Prop where
  sound : l.Sound
  look : e.look id = some (true, l.workflow)

theorem look_eq_none_iff : e.look id = none ↔ e.instances id = none := by
  unfold look
  exact Option.map_eq_none_iff

/-- A call that the engine answers is a call of the lifetime that is answered. -/
theorem Answers.operation {env : Environment Node} {results : Nat → Nat → Int × String}
    {doc : Document Node} {pool : QueuePool UInt32 Nat} {l : Lifetime Node} {operation : Operation Node}
    (hname : e.engine.pool.name = pool.name) (h : Answers env results doc id e action)
    (hmakes : Makes e action id operation) (hlook : e.look id = some (true, l.workflow)) :
    Lifetime.Answers ((start Node pool).environment env) results l operation := by
  have heq : ∀ env, e.environment env = (start Node pool).environment env := environment_eq hname
  cases hmakes with
  | taskExecute hforker env' pid =>
    have hsame : env' = env := h _ _ _ hforker rfl
    rw [hsame, heq]
    rfl
  | taskStop _ task env' retval output =>
    have hsame := h rfl
    rw [hsame.1, heq]
    exact ⟨rfl, fun t ht ↦ hsame.2 _ t hlook ht⟩
  | alarm t env' =>
    have hsame : env' = env := h rfl
    rw [hsame, heq]
    rfl
  | removed hflush env' =>
    have hsame : env' = env := h _ _ _ hflush rfl
    rw [hsame, heq]
    rfl
  | cancel => exact absurd rfl h

/-- From one instance that the engine answers `env` and `results`, it is seen to make the calls of a lifetime
with these answers. -/
theorem projects_answers (A : Allocator (Task UInt32 Nat)) (B : Allocator (TimedEvent TimedTask))
    (env : Environment Node) (results : Nat → Nat → Int × String) {doc : Document Node}
    (hdoc : doc.WellFormed) (pool : QueuePool UInt32 Nat) (id : UInt32) :
    Projects (step A B) (fun e a ↦ Proper a ∧ Answers env results doc id e a) Lifetime.step
      (Lifetime.Answers ((start Node pool).environment env) results)
      (fun e ↦ (∃ ls events, e.Inv ls events) ∧ e.engine.pool.name = pool.name) (Absent doc id)
      (fun l ↦ l = Lifetime.start ((start Node pool).environment env) doc) (Mirrors id) := by
  constructor
  case keeps =>
    rintro e action e' ⟨⟨ls, events, h⟩, hname⟩ hok hstep
    rcases step_keeps h hok.1 hstep with ⟨ls', events', h', -⟩
    exact ⟨⟨ls', events', h'⟩, (step_names hstep).trans hname⟩
  case absent =>
    rintro e action e' ⟨⟨ls, events, h⟩, hname⟩ habsent hok hstep
    -- before `Start` the instance is as the constructor left it
    have hnot (i : ActiveInstance Node) (hi : e.instances id = some i) :
        i.started = false ∧ i.workflow = .create doc := by
      rcases habsent with hnone | hlook
      · rw [hnone] at hi
        cases hi
      · rw [look_some hi, Option.some.injEq, Prod.mk.injEq] at hlook
        exact hlook
    cases step_turn h hstep id with
    | same hlook =>
      refine .inl (habsent.imp (fun hnone ↦ ?_) fun hcreated ↦ hlook.trans hcreated)
      rw [← look_eq_none_iff] at hnone ⊢
      rw [hlook, hnone]
    | constructed doc' hnone hlook =>
      have hsame : doc' = doc := hok.2 rfl
      rw [hsame] at hlook
      exact .inl (.inr hlook)
    | started env' i hi _ hlook =>
      have hsame : env' = env := hok.2 rfl
      rw [hsame, (hnot i hi).2, environment_eq hname] at hlook
      exact .inr ⟨_, rfl, Lifetime.start_sound _ hdoc, hlook⟩
    | resumed saved env' order tid hnone hlook => exact absurd rfl hok.2
    | cancelled i hi hlook => exact absurd rfl hok.2
    | called i operation l hi hstarted =>
      rw [(hnot i hi).1] at hstarted
      cases hstarted
  case shows =>
    rintro e action e' l ⟨⟨ls, events, h⟩, hname⟩ hshows hok hstep
    have hlook := hshows.look
    cases step_turn h hstep id with
    | same hsame => exact .inl ⟨hshows.sound, hsame.trans hlook⟩
    | constructed doc' hnone hnew =>
      rw [look_eq_none_iff.mpr hnone] at hlook
      cases hlook
    | started env' i hi hnot hnew =>
      rw [look_some hi, hnot, Option.some.injEq] at hlook
      cases (Prod.mk.inj hlook).1
    | resumed saved env' order tid hnone hnew => exact absurd rfl hok.2
    | cancelled i hi hnew => exact absurd rfl hok.2
    | called i operation l' hi hstarted hbusy hmakes hone hnew =>
      have heq := (Shows.mk hshows.sound (.inl hlook)).eq_of_busy hi hbusy
      have hanswers := hok.2.operation hname hmakes hlook
      rw [← heq] at hone
      exact .inr ⟨operation, l', hanswers, hone, Lifetime.step_sound hshows.sound hone, hnew⟩

/-- **An instance comes to its outcome, whatever the others do.**  Where no loop, no condition and no input
is evaluated, every retry is limited, the instance itself is neither cancelled nor resumed and the engine knows
the same queues and tasks all along, the document of an instance that has ended, with every status, return value,
output and retry, and its number of errors depend on the results of its own executions alone. -/
theorem doc_eq_outcome_beside (A : Allocator (Task UInt32 Nat)) (B : Allocator (TimedEvent TimedTask))
    (rows : List (String × UInt32 × UInt32)) (maxpid : Fin (2 ^ 31)) (pool : QueuePool UInt32 Nat)
    (hcreate : QueuePool.create rows maxpid = .ok pool) (env : Environment Node)
    (results : Nat → Nat → Int × String) (doc : Document Node) (hdoc : doc.WellFormed)
    (hplain : doc.Plain) (hlimited : doc.Limited) (id : UInt32) (actions : List (CancelAction Node))
    (hproper : ∀ a ∈ actions, Proper a)
    (hanswers : Meets (step A B) (Answers env results doc id) (start Node pool) actions)
    (e : CancellingEngine Node) (hrun : run (step A B) (start Node pool) actions = some e)
    (i : ActiveInstance Node) (hi : e.instances id = some i) (hstarted : i.started = true)
    (hended : i.workflow.workflowEnded = true) (hcount : Lifetime.Countable i.workflow) :
    i.workflow.doc = doc.outcome ((start Node pool).environment env) results ∧
      i.workflow.errorTasks = .ofNat (doc.errors ((start Node pool).environment env) results) := by
  have hmeets := Meets.and (Meets.of_forall hproper) hanswers
  have hcomes := (projects_answers A B env results hdoc pool id).run ⟨⟨_, _, start_inv hcreate⟩, rfl⟩
    (.inl rfl) hmeets hrun
  rcases hcomes.2 with (hnone | hlook) | ⟨l, hcomes, hshows⟩
  · rw [hnone] at hi
    cases hi
  · rw [look_some hi, hstarted, Option.some.injEq] at hlook
    cases (Prod.mk.inj hlook).1
  · have hprogress := hcomes.invariant
      (P := Lifetime.Progress ((start Node pool).environment env) results doc)
      (fun l hl ↦ hl ▸ Lifetime.start_progress _ results hdoc hplain)
      (fun _ _ _ h hanswers hone ↦ Lifetime.step_progress hdoc hplain h hanswers hone)
    rcases hprogress with ⟨hsound, standings, hprogress⟩
    have hlook := hshows.look
    rw [look_some hi, Option.some.injEq, Prod.mk.injEq] at hlook
    rw [hlook.2] at hended hcount ⊢
    have hover := Lifetime.nothing_of_ended hsound.inv hcount hended
    exact hprogress.doc_eq hdoc hlimited hsound.inv (hprogress.tracks.idle hover.1 hover.2)

/-- Two instances share a queue; one of them is cancelled, while a task of the other one waits for its
retry. -/
def besideCancelled : List (CancelAction Unit) :=
  [.construct 7 Lifetime.bothThenStore, .start 7 Lifetime.twoNodes, .enqueueTask 7, .enqueueTask 7,
    .construct 8 Lifetime.retriedThenLooped, .start 8 Lifetime.twoNodes, .enqueueTask 8,
    .pool .dequeueTask, .pool .executeTask, .taskExecute Lifetime.twoNodes 100, .pool (.gather 100 1),
    .taskStop 7 3 Lifetime.twoNodes 0 "",
    .pool .dequeueTask, .pool .executeTask, .taskExecute Lifetime.twoNodes 101, .pool (.gather 101 2),
    .taskStop 7 4 Lifetime.twoNodes 1 "", .insertTask 7 1000,
    .pool .dequeueTask, .pool .executeTask, .taskExecute Lifetime.twoNodes 102, .cancel 8,
    .shiftEvent 2000, .alarm ⟨7, 4⟩ Lifetime.twoNodes, .enqueueTask 7,
    .pool (.gather 102 3), .taskStop 8 2 Lifetime.twoNodes 1 "",
    .pool .dequeueTask, .pool .executeTask, .taskExecute Lifetime.twoNodes 103, .pool (.gather 103 4),
    .taskStop 7 4 Lifetime.twoNodes 1 "", .remove 7]

def checkFails (id _ : Nat) : Int × String := (if id = 4 then 1 else 0, "")

theorem outcome_besideCancelled : ∃ (e : CancellingEngine Unit) (i : ActiveInstance Unit),
    run (step (.bump _) (.bump _)) (start Unit oneQueue) besideCancelled = some e ∧
    e.instances 7 = some i ∧
    i.workflow.doc = Lifetime.bothThenStore.outcome ((start Unit oneQueue).environment Lifetime.twoNodes)
      checkFails ∧
    i.workflow.errorTasks = .ofNat (Lifetime.bothThenStore.errors
      ((start Unit oneQueue).environment Lifetime.twoNodes) checkFails) := by
  have hends : (run (step (.bump _) (.bump _)) (start Unit oneQueue) besideCancelled).bind (fun e ↦
      (e.instances 7).map fun i ↦ (i.started, i.workflow.workflowEnded,
        decide (Lifetime.Countable i.workflow))) = some (true, true, true) := rfl
  rcases Option.bind_eq_some_iff.mp hends with ⟨e, hrun, hi⟩
  rcases Option.map_eq_some_iff.mp hi with ⟨i, hi, heq⟩
  rw [Prod.mk.injEq, Prod.mk.injEq] at heq
  have hproper : ∀ a ∈ besideCancelled, Proper a := by
    simp [besideCancelled, Proper, Lifetime.retriedThenLooped_wellFormed,
      Lifetime.bothThenStore_wellFormed]
  have hanswers : Meets (step (.bump _) (.bump _))
      (Answers Lifetime.twoNodes checkFails Lifetime.bothThenStore 7) (start Unit oneQueue)
      besideCancelled := by
    apply Meets.of_always
    simp [besideCancelled, Answers, checkFails]
  exact ⟨e, i, hrun, hi, doc_eq_outcome_beside (.bump _) (.bump _) [("default", 1, 1)] 8 oneQueue rfl
    Lifetime.twoNodes checkFails Lifetime.bothThenStore Lifetime.bothThenStore_wellFormed
    Lifetime.bothThenStore_plain Lifetime.bothThenStore_limited 7 besideCancelled hproper hanswers e hrun
    i hi heq.1 heq.2.1 (of_decide_eq_true heq.2.2)⟩

end CancellingEngine

end EvQueue
