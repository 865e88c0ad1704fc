import EvQueue.Base.Projection
import EvQueue.EngineCancelDeleted

/-!
# EngineCancelLifetimes — every instance goes through a lifetime of its own

What the threads of the engine do to one instance is a run of its calls: entries of the queues, events of
the `Retrier`, exit messages and cancel requests come to it as calls, and nothing else reaches it.  So what
holds along every lifetime holds of every instance of the engine, whatever the others do.
-/

namespace EvQueue

open Cells Runs

variable {Node : Type}

namespace CancellingEngine

variable {e e₁ e' : CancellingEngine Node} {id j : UInt32} {i i' : ActiveInstance Node}
variable {ls : List (QueuePool.Cells UInt32 Nat)} {events : List (TimedEvent TimedTask)}
variable {A : Allocator (Task UInt32 Nat)} {B : Allocator (TimedEvent TimedTask)}
variable {action : CancelAction Node} {operation : Operation Node}

/-! ## What an action does to one instance -/

/-- Whether the instance was started, and its workflow. -/
def look (e : CancellingEngine Node) (id : UInt32) : Option (Bool × WorkflowInstance Node) :=
  (e.instances id).map fun i ↦ (i.started, i.workflow)

/-- The call of the instance that the action makes. -/
inductive Makes (e : CancellingEngine Node) : CancelAction Node → UInt32 → Operation Node → Prop where
  | taskExecute {j tid : Nat} {t : Task UInt32 Nat} (h : e.engine.forker = .registered j t tid)
      (env : Environment Node) (pid : Nat) :
      Makes e (.taskExecute env pid) t.workflowInstance (.taskExecute (e.environment env) t.task)
  | taskStop (id : UInt32) (task : Nat) (env : Environment Node) (retval : Int) (output : String) :
      Makes e (.taskStop id task env retval output) id (.taskStop (e.environment env) task retval output)
  | alarm (t : TimedTask) (env : Environment Node) :
      Makes e (.alarm t env) t.workflowInstance (.taskRestart (e.environment env) t.task)
  | removed {request : Option Nat} {t : TimedTask} {rest : List TimedTask}
      (h : e.flush = some (request, t :: rest)) (env : Environment Node) :
      Makes e (.removed env) t.workflowInstance (.taskRestart (e.environment env) t.task)
  | cancel (id : UInt32) : Makes e (.cancel id) id .cancel

/-- What a step does to one instance. -/
inductive Turn (e e' : CancellingEngine Node) (id : UInt32) : CancelAction Node → Prop where
  | same {action : CancelAction Node} (h : e'.look id = e.look id) : Turn e e' id action
  | constructed (doc : Document Node) (hnone : e.instances id = none)
      (h : e'.look id = some (false, .create doc)) : Turn e e' id (.construct id doc)
  | started (env : Environment Node) (i : ActiveInstance Node) (hi : e.instances id = some i)
      (hnot : i.started = false)
      (h : e'.look id = some (true, (i.workflow.start (e.environment env)).1)) :
      Turn e e' id (.start id env)
  | resumed (saved : WorkflowInstance Node) (env : Environment Node) (order : List Nat) (tid : Nat → Nat)
      (hnone : e.instances id = none)
      (h : e'.look id = some (true, ((WorkflowInstance.fromSavepoint saved.doc saved.trace).resume
        (e.environment env) order).1)) : Turn e e' id (.resume id saved env order tid)
  | cancelled (i : ActiveInstance Node) (hi : e.instances id = some i)
      (h : e'.look id = some (i.started, i.workflow.cancel)) : Turn e e' id (.cancel id)
  | called {action : CancelAction Node} (i : ActiveInstance Node) (operation : Operation Node)
      (l : Lifetime Node) (hi : e.instances id = some i) (hstarted : i.started = true)
      (hbusy : ¬i.workflow.workflowEnded = true) (hmakes : Makes e action id operation)
      (hstep : Lifetime.step ⟨i.workflow, 0⟩ operation = some l)
      (h : e'.look id = some (true, l.workflow)) : Turn e e' id action

theorem look_some (hi : e.instances id = some i) : e.look id = some (i.started, i.workflow) := by
  unfold look
  rw [hi]
  rfl

theorem look_update (hinstances : e'.instances = Function.update e.instances j (some i')) :
    e'.look id = if id = j then some (i'.started, i'.workflow) else e.look id := by
  unfold look
  rw [hinstances]
  by_cases hid : id = j
  · rw [if_pos hid, hid, Function.update_self]
    rfl
  · rw [if_neg hid, Function.update_of_ne hid]

/-- An action that replaces one instance is none of the others'. -/
theorem Turn.of_update (i' : ActiveInstance Node)
    (hinstances : e'.instances = Function.update e.instances j (some i'))
    (h : e'.look j = some (i'.started, i'.workflow) → Turn e e' j action) : Turn e e' id action := by
  by_cases hid : id = j
  · rw [hid]
    apply h
    rw [look_update hinstances, if_pos rfl]
  · apply Turn.same
    rw [look_update hinstances, if_neg hid]

/-- An action that hands something over for an instance. -/
theorem Turn.of_kept (i' : ActiveInstance Node) (hi : e.instances j = some i)
    (hinstances : e'.instances = Function.update e.instances j (some i'))
    (hsame : i'.started = i.started ∧ i'.workflow = i.workflow) : Turn e e' id action := by
  apply Turn.of_update _ hinstances
  intro h
  apply Turn.same
  rw [h, look_some hi, hsame.1, hsame.2]

/-- A call, when what it was made for has been taken from the lists of the instance. -/
theorem Turn.of_calls {body : WorkflowInstance Node → WorkflowInstance Node × Bool}
    (hcalls : Calls e e₁ j body i i' e') (hstarted : i.started = true ∧ i'.started = true)
    (hbusy : i.workflow.workflowEnded = false) (hmakes : Makes e action j operation)
    (hstep : Lifetime.step ⟨i.workflow, 0⟩ operation = some (.after ⟨i.workflow, 0⟩ (body i'.workflow))) :
    Turn e e' id action := by
  apply Turn.of_update _ hcalls.instances.1
  intro h
  rw [show (i'.handOver (body i'.workflow).1).started = true from hstarted.2] at h
  exact .called i operation _ hcalls.found hstarted.1 (Bool.eq_false_iff.mp hbusy) hmakes hstep h

/-- An event that was taken from the `Retrier` is one of the instance. -/
theorem Turn.of_retry (h : e.Inv ls events) {t : TimedTask} {env : Environment Node}
    (ht : t ∈ e.flushing ∨ t ∈ e.shifted) (hbusy : i.workflow.workflowEnded = false)
    (hcalls : Calls e e₁ t.workflowInstance (fun s ↦ s.taskRestart (e.environment env) t.task) i
      { i with workflow := { i.workflow with retrier := i.workflow.retrier.erase t.task } } e')
    (hmakes : Makes e action t.workflowInstance (.taskRestart (e.environment env) t.task)) :
    Turn e e' id action := by
  have hin : (t.workflowInstance, t.task) ∈ e.awaited events := by
    apply List.mem_map.mpr
    refine ⟨t, ?_, rfl⟩
    rw [List.mem_append, List.mem_append]
    exact .inl ht
  have hmem := h.retrying.mem hin
  rw [slot_some hcalls.found] at hmem
  have hstarted := (h.sound _ i hcalls.found).started (.inr (.inl (List.ne_nil_of_mem hmem)))
  exact .of_calls hcalls ⟨hstarted, hstarted⟩ hbusy hmakes (if_pos ⟨rfl, hmem⟩)

/-- **What one step does to one instance.** -/
theorem step_turn (h : e.Inv ls events) (hstep : e.step A B action = some e') (id : UInt32) :
    Turn e e' id action := by
  cases steps_of_step hstep with
  | construct hnone => exact .of_update _ rfl fun h ↦ .constructed _ hnone h
  | @start _ env _ _ hnot hcalls =>
    exact .of_update _ hcalls.instances.1 fun h ↦ .started env _ hcalls.found hnot h
  | @resume _ saved env order tid hnone =>
    exact .of_update _ rfl fun h ↦ .resumed saved env order tid hnone h
  | enqueueTask hi => exact .of_kept _ hi rfl ⟨rfl, rfl⟩
  | insertTask _ hi => exact .of_kept _ hi rfl ⟨rfl, rfl⟩
  | pool => exact .same rfl
  | @taskExecute env pid _ _ t _ _ _ hforker hbusy _ hcalls =>
    -- the entry that the forker holds is one of the instance
    have hin : (t.workflowInstance, t.task) ∈ e.entered ls := by
      unfold entered
      rw [hforker]
      exact List.mem_cons_self
    have hmem := h.queued.mem hin
    rw [slot_some hcalls.found] at hmem
    have hstarted := (h.sound _ _ hcalls.found).started (.inl (List.ne_nil_of_mem hmem))
    exact .of_calls hcalls ⟨hstarted, hstarted⟩ hbusy (.taskExecute hforker env pid)
      (if_pos ⟨rfl, hmem⟩)
  | @taskStop j task env retval output i t _ hbusy hfind hstatus hcalls =>
    have hstarted : i.started = true := by
      apply (h.sound j i hcalls.found).started
      refine .inr (.inr ⟨t, (WorkflowInstance.task?_spec hfind).1, ?_⟩)
      rw [hstatus]
      exact nofun
    apply Turn.of_calls hcalls ⟨hstarted, hstarted⟩ hbusy (.taskStop j task env retval output)
    unfold Lifetime.step
    simp [hfind, hstatus]
  | shiftEvent => exact .same rfl
  | @alarm t env _ _ hin hbusy hcalls => exact .of_retry h (.inr hin) hbusy hcalls (.alarm t env)
  | @cancel j i hi =>
    exact .of_update { i with workflow := i.workflow.cancel } rfl fun h ↦ .cancelled i hi h
  | flushAll => exact .same rfl
  | flush => exact .same rfl
  | @removed env _ t rest _ _ hflush hbusy hcalls =>
    have hin : t ∈ e.flushing := by
      unfold flushing
      rw [hflush]
      exact List.mem_cons_self
    exact .of_retry h (.inl hin) hbusy hcalls (.removed hflush env)
  | flushAllEnd => exact .same rfl
  | flushEnd => exact .same rfl
  | cancelTasks => exact .same rfl
  | remove hi => exact .of_kept _ hi rfl ⟨rfl, rfl⟩

/-! ## Lifetimes -/

/-- How the lifetime of an instance begins: `Start`, of an instance that may have been cancelled before, or
`Resume`. -/
inductive Begins : Lifetime Node → Prop where
  | started (env : Environment Node) (doc : Document Node) (isCancelling : Bool) (hdoc : doc.WellFormed) :
      Begins (.after ⟨{ WorkflowInstance.create doc with isCancelling }, 0⟩
        ({ WorkflowInstance.create doc with isCancelling }.start env))
  | resumed (env : Environment Node) (saved : WorkflowInstance Node) (order : List Nat)
      (hsaved : saved.view.Inv 0 0) (horder : order.Perm saved.doc.found) :
      Begins (.after ⟨.fromSavepoint saved.doc saved.trace, 0⟩
        ((WorkflowInstance.fromSavepoint saved.doc saved.trace).resume env order))

theorem Begins.sound {l : Lifetime Node} (h : Begins l) : l.Sound := by
  cases h with
  | started env doc isCancelling hdoc =>
    exact Lifetime.after_sound rfl (LaunchRequest.start_view hdoc env isCancelling) rfl
  | resumed env saved order hsaved horder =>
    exact Lifetime.after_sound rfl (WorkflowInstance.resume_inv env hsaved horder) rfl

/-- The instance is what the lifetime says.  Between its end and its removal it may be cancelled. -/
structure Shows (id : UInt32) (e : CancellingEngine Node) (l : Lifetime Node) : Prop where
  sound : l.Sound
  look : e.look id = some (true, l.workflow) ∨
    l.deleted = 1 ∧ e.look id = some (true, l.workflow.cancel)

/-- The instance is not there, or was not started. -/
def NotStarted (id : UInt32) (e : CancellingEngine Node) : Prop :=
  ∀ i, e.instances id = some i → i.started = false

theorem NotStarted.of_look (h : NotStarted id e) (hlook : e'.look id = e.look id) : NotStarted id e' := by
  intro i' hi'
  rw [look_some hi'] at hlook
  rcases Option.map_eq_some_iff.mp hlook.symm with ⟨i, hi, heq⟩
  rw [← (Prod.mk.inj heq).1]
  exact h i hi

theorem notStarted_of_look {s : WorkflowInstance Node} (hlook : e.look id = some (false, s)) :
    NotStarted id e := by
  intro i hi
  rw [look_some hi, Option.some.injEq] at hlook
  exact (Prod.mk.inj hlook).1

theorem Shows.not_notStarted {l : Lifetime Node} (h : Shows id e l) : ¬NotStarted id e := by
  intro hnot
  have hstarted : ∃ s, e.look id = some (true, s) := by
    rcases h.look with hlook | ⟨-, hlook⟩
    · exact ⟨_, hlook⟩
    · exact ⟨_, hlook⟩
  rcases hstarted with ⟨s, hlook⟩
  rcases Option.map_eq_some_iff.mp hlook with ⟨i, hi, heq⟩
  have hno := hnot i hi
  rw [(Prod.mk.inj heq).1] at hno
  cases hno

/-- An instance that has not ended is its lifetime. -/
theorem Shows.eq_of_busy {l : Lifetime Node} (h : Shows id e l) (hi : e.instances id = some i)
    (hbusy : ¬i.workflow.workflowEnded = true) : l = ⟨i.workflow, 0⟩ := by
  have hdeleted := h.sound.deleted
  rcases h.look with hlook | ⟨hone, hlook⟩
  · rw [look_some hi, Option.some.injEq] at hlook
    have hworkflow := (Prod.mk.inj hlook).2
    rw [← hworkflow, if_neg hbusy] at hdeleted
    rw [hworkflow, ← hdeleted]
  · rw [look_some hi, Option.some.injEq] at hlook
    have hworkflow := (Prod.mk.inj hlook).2
    rw [hworkflow] at hbusy
    have hnot : ¬l.workflow.workflowEnded = true := hbusy
    rw [if_neg hnot, hone] at hdeleted
    cases hdeleted

theorem Shows.cancelled {l : Lifetime Node} (h : Shows id e l) (hi : e.instances id = some i) :
    i.started = true ∧ i.workflow.cancel = l.workflow.cancel := by
  rcases h.look with hlook | ⟨-, hlook⟩
  · rw [look_some hi, Option.some.injEq] at hlook
    exact ⟨(Prod.mk.inj hlook).1, by rw [(Prod.mk.inj hlook).2]⟩
  · rw [look_some hi, Option.some.injEq] at hlook
    refine ⟨(Prod.mk.inj hlook).1, ?_⟩
    rw [(Prod.mk.inj hlook).2]
    rfl

/-- From one instance, the engine is seen to make the calls of a lifetime. -/
theorem projects (A : Allocator (Task UInt32 Nat)) (B : Allocator (TimedEvent TimedTask)) (id : UInt32) :
    Projects (step A B) (fun _ a ↦ Proper a) (@Lifetime.step Node) (fun _ _ ↦ True)
      (fun e ↦ ∃ ls events, e.Inv ls events) (NotStarted id) Begins (Shows id) := by
  constructor
  case keeps =>
    rintro e action e' ⟨ls, events, h⟩ hproper hstep
    rcases step_keeps h hproper hstep with ⟨ls', events', h', -⟩
    exact ⟨ls', events', h'⟩
  case absent =>
    rintro e action e' ⟨ls, events, h⟩ habsent hproper hstep
    cases step_turn h hstep id with
    | same hlook => exact .inl (habsent.of_look hlook)
    | constructed doc hnone hlook => exact .inl (notStarted_of_look hlook)
    | started env i hi hnot hlook =>
      -- between the constructor and `Start` only a cancel request may have come
      rcases (h.sound id i hi).fresh hnot with ⟨doc, isCancelling, hdoc, hworkflow⟩
      have hbegins := Begins.started (e.environment env) doc isCancelling hdoc
      refine .inr ⟨_, hbegins, hbegins.sound, .inl ?_⟩
      rw [hlook, hworkflow]
      rfl
    | resumed saved env order tid hnone hlook =>
      have hbegins := Begins.resumed (e.environment env) saved order hproper.1 hproper.2
      exact .inr ⟨_, hbegins, hbegins.sound, .inl hlook⟩
    | cancelled i hi hlook =>
      rw [habsent i hi] at hlook
      exact .inl (notStarted_of_look hlook)
    | called i operation l hi hstarted =>
      rw [habsent i hi] at hstarted
      cases hstarted
  case shows =>
    rintro e action e' l ⟨ls, events, h⟩ hshows hproper hstep
    cases step_turn h hstep id with
    | same hlook =>
      refine .inl ⟨hshows.sound, ?_⟩
      rw [hlook]
      exact hshows.look
    | constructed doc hnone hlook =>
      have hnot : NotStarted id e := fun i hi ↦ absurd hi (by rw [hnone]; exact nofun)
      exact absurd hnot hshows.not_notStarted
    | started env i hi hnot hlook =>
      have hstarted := (hshows.cancelled hi).1
      rw [hnot] at hstarted
      cases hstarted
    | resumed saved env order tid hnone hlook =>
      have hnot : NotStarted id e := fun i hi ↦ absurd hi (by rw [hnone]; exact nofun)
      exact absurd hnot hshows.not_notStarted
    | cancelled i hi hlook =>
      have hsame := hshows.cancelled hi
      rw [hsame.1, hsame.2] at hlook
      have hdeleted := hshows.sound.deleted
      -- the instance is past its last operation and waits for its delete, or it takes the cancel
      by_cases hended : l.workflow.workflowEnded = true
      · rw [if_pos hended] at hdeleted
        exact .inl ⟨hshows.sound, .inr ⟨hdeleted, hlook⟩⟩
      · rw [if_neg hended] at hdeleted
        have hone : l.step .cancel = some { l with workflow := l.workflow.cancel } := if_pos hdeleted
        exact .inr ⟨.cancel, _, trivial, hone, Lifetime.step_sound hshows.sound hone, .inl hlook⟩
    | called i operation l' hi hstarted hbusy hmakes hone hlook =>
      rw [hshows.eq_of_busy hi hbusy]
      have hsound := hshows.sound
      rw [hshows.eq_of_busy hi hbusy] at hsound
      exact .inr ⟨operation, l', trivial, hone, Lifetime.step_sound hsound hone, .inl hlook⟩

/-- **Every instance goes through a lifetime of its own.**  Whatever the clients, the forker, the gatherer
and the retry threads do, in whatever order, an instance that was started is what a run of its own calls
makes of it, and it is removed after the call that reported its end. -/
theorem lifetime_of_run (A : Allocator (Task UInt32 Nat)) (B : Allocator (TimedEvent TimedTask))
    (rows : List (String × UInt32 × UInt32)) (maxpid : Fin (2 ^ 31)) (pool : QueuePool UInt32 Nat)
    (hcreate : QueuePool.create rows maxpid = .ok pool) (actions : List (CancelAction Node))
    (hproper : ∀ a ∈ actions, Proper a) (e : CancellingEngine Node)
    (hrun : run (step A B) (start Node pool) actions = some e) (id : UInt32) (i : ActiveInstance Node)
    (hi : e.instances id = some i) (hstarted : i.started = true) :
    ∃ (first : Lifetime Node) (operations : List (Operation Node)) (l : Lifetime Node),
      Begins first ∧ run Lifetime.step first operations = some l ∧
      (i.workflow = l.workflow ∨ l.deleted = 1 ∧ i.workflow = l.workflow.cancel) ∧
      (i.registered = false → l.deleted = 1) := by
  have hnone : NotStarted id (start Node pool) := nofun
  have hmeets : Meets (step A B) (fun _ a ↦ Proper a) (start Node pool) actions := Meets.of_forall hproper
  have hcomes := (projects A B id).run ⟨_, _, start_inv hcreate⟩ hnone hmeets hrun
  rcases run_deletedAtRest (start_inv hcreate) nofun hproper hrun with ⟨-, hdeleted⟩
  rcases hcomes.2 with hnot | ⟨l, ⟨first, operations, hbegins, -, hends⟩, hshows⟩
  · have hno := hnot i hi
    rw [hstarted] at hno
    cases hno
  · refine ⟨first, operations, l, hbegins, hends, ?_, ?_⟩
    · have hlook := hshows.look
      rw [look_some hi, Option.some.injEq, Option.some.injEq] at hlook
      exact hlook.imp (fun h ↦ (Prod.mk.inj h).2) fun h ↦ ⟨h.1, (Prod.mk.inj h.2).2⟩
    · intro hregistered
      have hended := (hdeleted id i hi hregistered).ended
      rcases hshows.look with hlook | ⟨hone, -⟩
      · rw [look_some hi, Option.some.injEq] at hlook
        rw [(Prod.mk.inj hlook).2] at hended
        have hone := hshows.sound.deleted
        rw [if_pos hended] at hone
        exact hone
      · exact hone

/-- Seen from the instance that waits for a retry when it is cancelled. -/
theorem lifetime_waiting : ∃ (e : CancellingEngine Unit) (i : ActiveInstance Unit),
    run (step (.bump _) (.bump _)) (start Unit oneQueue) cancelledWaiting = some e ∧
    e.instances 7 = some i ∧ i.workflow.isCancelling = true ∧ i.workflow.retrier = [2] ∧
    ∃ (first : Lifetime Unit) (operations : List (Operation Unit)) (l : Lifetime Unit),
      Begins first ∧ run Lifetime.step first operations = some l ∧
      (i.workflow = l.workflow ∨ l.deleted = 1 ∧ i.workflow = l.workflow.cancel) ∧
      (i.registered = false → l.deleted = 1) := by
  have hends : (run (step (.bump _) (.bump _)) (start Unit oneQueue) cancelledWaiting).bind (fun e ↦
      (e.instances 7).map fun i ↦ (i.started, i.workflow.isCancelling, i.workflow.retrier)) =
      some (true, true, [2]) := rfl
  rcases Option.bind_eq_some_iff.mp hends with ⟨e, hrun, hi⟩
  rcases Option.map_eq_some_iff.mp hi with ⟨i, hi, heq⟩
  rw [Prod.mk.injEq, Prod.mk.injEq] at heq
  have hproper : ∀ a ∈ cancelledWaiting, Proper a := by
    simp [cancelledWaiting, Proper, Lifetime.retriedThenLooped_wellFormed]
  exact ⟨e, i, hrun, hi, heq.2.1, heq.2.2, lifetime_of_run (.bump _) (.bump _) [("default", 1, 1)] 8
    oneQueue rfl cancelledWaiting hproper e hrun 7 i hi heq.1⟩

end CancellingEngine

end EvQueue
