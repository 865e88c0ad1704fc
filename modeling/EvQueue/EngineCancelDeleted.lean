import EvQueue.EngineCancelRuns

/-!
# EngineCancelDeleted — nothing points to an instance that was deleted

An instance is deleted by the call that reports its end, while its pointer stands in the cells of the
queues and in the events of the `Retrier`.  What is there, wherever it has got to, is of an instance that
is still there, stands for a task that is waiting for it, and stands there once.
-/

namespace EvQueue

open Cells Runs

variable {Node : Type}

namespace ActiveInstance

variable {i : ActiveInstance Node} {x : Nat}

/-- Every call is over, and no other one will be made. -/
structure AtRest (i : ActiveInstance Node) : Prop where
  started : i.started = true
  idle : i.idle = true
  ended : i.workflow.workflowEnded = true

/-- As long as its counters can count them, an instance that has ended has nothing left. -/
theorem Sound.nothing_of_ended (h : i.Sound) (hcount : Lifetime.Countable i.workflow)
    (hended : i.workflow.workflowEnded = true) :
    (∀ t ∈ i.workflow.doc.tasks, t.active = false) ∧ i.workflow.retrier = [] :=
  Lifetime.nothing_of_ended h.view hcount hended

/-- The task of an entry is queued. -/
theorem Sound.queued (h : i.Sound) (hx : x ∈ i.workflow.queued) :
    ∃ t, i.workflow.doc.task? x = some t ∧ t.status = some .queued := by
  rcases (h.view.queued x).mp hx with ⟨key, hkey, hid, hstatus⟩
  rcases WorkflowInstance.task?_of_mem h.view hkey with ⟨t, hfind, ht⟩
  rw [hid] at hfind
  rw [← ht] at hstatus
  exact ⟨t, hfind, hstatus⟩

/-- The task of an event has failed. -/
theorem Sound.retrying (h : i.Sound) (hx : x ∈ i.workflow.retrier) :
    ∃ t, i.workflow.doc.task? x = some t ∧ t.status = some .terminated ∧ t.retval ≠ some 0 := by
  rcases h.view.retrier x hx with ⟨key, hkey, hid, hstatus, hretval⟩
  rcases WorkflowInstance.task?_of_mem h.view hkey with ⟨t, hfind, ht⟩
  rw [hid] at hfind
  rw [← ht] at hstatus hretval
  exact ⟨t, hfind, hstatus, hretval⟩

theorem Sound.not_ended_of_queued (h : i.Sound) (hcount : Lifetime.Countable i.workflow)
    (hx : x ∈ i.workflow.queued) : ¬i.workflow.workflowEnded = true := by
  intro hended
  rcases h.queued hx with ⟨t, hfind, hstatus⟩
  have hno := (h.nothing_of_ended hcount hended).1 t (WorkflowInstance.task?_spec hfind).1
  simp [TaskNode.active, hstatus] at hno

theorem Sound.not_ended_of_retrier (h : i.Sound) (hcount : Lifetime.Countable i.workflow)
    (hx : x ∈ i.workflow.retrier) : ¬i.workflow.workflowEnded = true := by
  intro hended
  rw [(h.nothing_of_ended hcount hended).2] at hx
  cases hx

end ActiveInstance

namespace CancellingEngine

variable {e e₁ e' : CancellingEngine Node} {id : UInt32} {i i' : ActiveInstance Node}
variable {ls : List (QueuePool.Cells UInt32 Nat)} {events : List (TimedEvent TimedTask)}
variable {A : Allocator (Task UInt32 Nat)} {B : Allocator (TimedEvent TimedTask)}

/-! ## Deleted instances -/

/-- The instances that were deleted are at rest. -/
def DeletedAtRest (e : CancellingEngine Node) : Prop :=
  ∀ id i, e.instances id = some i → i.registered = false → i.AtRest

/-- At most one instance is replaced or made, and not one that is at rest. -/
inductive Replaces (e e' : CancellingEngine Node) : Prop where
  | same (h : e'.instances = e.instances)
  | made (id : UInt32) (i' : ActiveInstance Node)
      (h : e'.instances = Function.update e.instances id (some i')) (hregistered : i'.registered = true)
  | deleted (id : UInt32) (i' : ActiveInstance Node)
      (h : e'.instances = Function.update e.instances id (some i')) (hrest : i'.AtRest)
  | called (id : UInt32) (i i' : ActiveInstance Node) (hi : e.instances id = some i)
      (h : e'.instances = Function.update e.instances id (some i'))
      (hregistered : i'.registered = i.registered) (hbusy : ¬i.AtRest)

theorem Replaces.deletedAtRest (h : Replaces e e') (hdeleted : e.DeletedAtRest) :
    e'.DeletedAtRest := by
  cases h with
  | same h =>
    unfold DeletedAtRest
    rw [h]
    exact hdeleted
  | made id i' h hregistered =>
    apply forall_update h hdeleted
    intro hno
    rw [hregistered] at hno
    cases hno
  | deleted id i' h hrest => exact forall_update h hdeleted fun _ ↦ hrest
  | called id i i' hi h hregistered hbusy =>
    apply forall_update h hdeleted
    intro hno
    rw [hregistered] at hno
    exact absurd (hdeleted id i hi hno) hbusy

/-- A call of an instance that is not at rest. -/
theorem Replaces.of_calls {body : WorkflowInstance Node → WorkflowInstance Node × Bool}
    (hcalls : Calls e e₁ id body i i' e') (hregistered : i'.registered = i.registered)
    (hbusy : ¬i.AtRest) : Replaces e e' :=
  .called id i (i'.handOver (body i'.workflow).1) hcalls.found hcalls.instances.1 hregistered hbusy

/-- An instance that has not ended is not at rest. -/
theorem not_atRest (hbusy : i.workflow.workflowEnded = false) : ¬i.AtRest := by
  intro hrest
  rw [hrest.ended] at hbusy
  cases hbusy

/-- No step calls an instance that is at rest. -/
theorem step_replaces {action : CancelAction Node} (hstep : e.step A B action = some e') :
    Replaces e e' := by
  cases steps_of_step hstep with
  | construct hnone => exact .made _ _ rfl rfl
  | start hnot hcalls =>
    apply Replaces.of_calls hcalls rfl
    intro hrest
    rw [hrest.started] at hnot
    cases hnot
  | resume hnone => exact .made _ _ rfl rfl
  | enqueueTask hi henqueuing =>
    refine .called _ _ _ hi rfl rfl fun hrest ↦ ?_
    have hempty := (ActiveInstance.idle_iff.mp hrest.idle).1
    rw [henqueuing] at hempty
    cases hempty
  | insertTask _ hi hinserting =>
    refine .called _ _ _ hi rfl rfl fun hrest ↦ ?_
    have hempty := (ActiveInstance.idle_iff.mp hrest.idle).2
    rw [hinserting] at hempty
    cases hempty
  | pool => exact .same rfl
  | taskExecute _ hbusy _ hcalls => exact .of_calls hcalls rfl (not_atRest hbusy)
  | taskStop hbusy _ _ hcalls => exact .of_calls hcalls rfl (not_atRest hbusy)
  | shiftEvent => exact .same rfl
  | alarm _ hbusy hcalls => exact .of_calls hcalls rfl (not_atRest hbusy)
  | cancel _ hregistered => exact .made _ _ rfl hregistered
  | flushAll => exact .same rfl
  | flush => exact .same rfl
  | removed _ hbusy hcalls => exact .of_calls hcalls rfl (not_atRest hbusy)
  | flushAllEnd => exact .same rfl
  | flushEnd => exact .same rfl
  | cancelTasks => exact .same rfl
  | remove _ _ hstarted hidle hended => exact .deleted _ _ rfl ⟨hstarted, hidle, hended⟩

/-- The counters of every instance can count its tasks and its events. -/
def Countable (e : CancellingEngine Node) : Prop :=
  ∀ id i, e.instances id = some i → Lifetime.Countable i.workflow

/-! ## Entries and events -/

/-- Every entry stands once, for a queued task of an instance that was not deleted. -/
theorem Inv.entered_spec (h : e.Inv ls events) (hdeleted : e.DeletedAtRest)
    (hcount : e.Countable) :
    (e.entered ls).Nodup ∧ ∀ x ∈ e.entered ls, ∃ i t, e.instances x.1 = some i ∧
      i.registered = true ∧ i.workflow.doc.task? x.2 = some t ∧ t.status = some .queued := by
  constructor
  · apply h.queued.nodup
    intro id
    unfold slot
    cases hi : e.instances id with
    | none => exact List.nodup_nil
    | some i => exact (h.sound _ i hi).view.queuedNodup
  · intro x hx
    have hmem := h.queued.mem hx
    cases hi : e.instances x.1 with
    | none =>
      unfold slot at hmem
      rw [hi] at hmem
      cases hmem
    | some i =>
      rw [slot_some hi] at hmem
      have hsound := h.sound _ i hi
      rcases hsound.queued hmem with ⟨t, hfind, hstatus⟩
      refine ⟨i, t, rfl, ?_, hfind, hstatus⟩
      by_contra hno
      rw [Bool.not_eq_true] at hno
      exact hsound.not_ended_of_queued (hcount _ i hi) hmem (hdeleted _ i hi hno).ended

/-- Every event stands once, for a failed task of an instance that was not deleted. -/
theorem Inv.awaited_spec (h : e.Inv ls events) (hdeleted : e.DeletedAtRest)
    (hcount : e.Countable) :
    (e.awaited events).Nodup ∧ ∀ x ∈ e.awaited events, ∃ i t, e.instances x.1 = some i ∧
      i.registered = true ∧ i.workflow.doc.task? x.2 = some t ∧ t.status = some .terminated ∧
      t.retval ≠ some 0 := by
  constructor
  · apply h.retrying.nodup
    intro id
    unfold slot
    cases hi : e.instances id with
    | none => exact List.nodup_nil
    | some i => exact (h.sound _ i hi).view.retrierNodup
  · intro x hx
    have hmem := h.retrying.mem hx
    cases hi : e.instances x.1 with
    | none =>
      unfold slot at hmem
      rw [hi] at hmem
      cases hmem
    | some i =>
      rw [slot_some hi] at hmem
      have hsound := h.sound _ i hi
      rcases hsound.retrying hmem with ⟨t, hfind, hstatus, hretval⟩
      refine ⟨i, t, rfl, ?_, hfind, hstatus, hretval⟩
      by_contra hno
      rw [Bool.not_eq_true] at hno
      exact hsound.not_ended_of_retrier (hcount _ i hi) hmem (hdeleted _ i hi hno).ended

/-! ## Instances that are not there -/

/-- The instance that is constructed or resumed. -/
def made : CancelAction Node → Option UInt32
  | .construct id _ => some id
  | .resume id _ _ _ _ => some id
  | _ => none

/-- An action that replaces an instance finds it there. -/
theorem absent_of_update {j : UInt32} (hnone : e.instances id = none) (hi : e.instances j = some i)
    (hinstances : e'.instances = Function.update e.instances j (some i')) : e'.instances id = none := by
  have hne : id ≠ j := by
    intro heq
    rw [heq, hi] at hnone
    cases hnone
  rw [hinstances, Function.update_of_ne hne]
  exact hnone

theorem absent_of_step {action : CancelAction Node} (hnone : e.instances id = none)
    (hmade : made action ≠ some id) (hstep : e.step A B action = some e') : e'.instances id = none := by
  have hother {j : UInt32} (hj : made action = some j) (i' : ActiveInstance Node) :
      Function.update e.instances j (some i') id = none := by
    have hne : id ≠ j := fun heq ↦ hmade (heq ▸ hj)
    rw [Function.update_of_ne hne]
    exact hnone
  cases steps_of_step hstep with
  | construct => exact hother rfl _
  | resume => exact hother rfl _
  | start _ hcalls => exact absent_of_update hnone hcalls.found hcalls.instances.1
  | taskExecute _ _ _ hcalls => exact absent_of_update hnone hcalls.found hcalls.instances.1
  | taskStop _ _ _ hcalls => exact absent_of_update hnone hcalls.found hcalls.instances.1
  | alarm _ _ hcalls => exact absent_of_update hnone hcalls.found hcalls.instances.1
  | removed _ _ hcalls => exact absent_of_update hnone hcalls.found hcalls.instances.1
  | enqueueTask hi => exact absent_of_update hnone hi rfl
  | insertTask _ hi => exact absent_of_update hnone hi rfl
  | cancel hi => exact absent_of_update hnone hi rfl
  | remove hi => exact absent_of_update hnone hi rfl
  | pool => exact hnone
  | shiftEvent => exact hnone
  | flushAll => exact hnone
  | flush => exact hnone
  | flushAllEnd => exact hnone
  | flushEnd => exact hnone
  | cancelTasks => exact hnone

theorem absent_of_run {actions : List (CancelAction Node)} (hnone : e.instances id = none)
    (hmade : ∀ a ∈ actions, made a ≠ some id) (hrun : run (step A B) e actions = some e') :
    e'.instances id = none := by
  have hkeep (e : CancellingEngine Node) (action : CancelAction Node) (e₁ : CancellingEngine Node)
      (hnone : e.instances id = none) (hmade : made action ≠ some id)
      (hstep : e.step A B action = some e₁) : e₁.instances id = none :=
    absent_of_step hnone hmade hstep
  have hend := run_invariant hkeep hnone (Meets.of_forall hmade) hrun
  exact hend

/-! ## Runs -/

theorem run_deletedAtRest (h : e.Inv ls events) (hdeleted : e.DeletedAtRest)
    {actions : List (CancelAction Node)} (hproper : ∀ a ∈ actions, Proper a)
    (hrun : run (step A B) e actions = some e') :
    (∃ ls' events', e'.Inv ls' events') ∧ e'.DeletedAtRest := by
  have hkeep (e : CancellingEngine Node) (action : CancelAction Node) (e₁ : CancellingEngine Node)
      (hinv : (∃ ls events, e.Inv ls events) ∧ e.DeletedAtRest) (hok : Proper action)
      (hstep : e.step A B action = some e₁) :
      (∃ ls events, e₁.Inv ls events) ∧ e₁.DeletedAtRest := by
    rcases hinv with ⟨⟨ls, events, h⟩, hdeleted⟩
    rcases step_keeps h hok hstep with ⟨ls₁, events₁, h₁, -⟩
    exact ⟨⟨ls₁, events₁, h₁⟩, (step_replaces hstep).deletedAtRest hdeleted⟩
  have hend := run_invariant hkeep ⟨⟨ls, events, h⟩, hdeleted⟩ (Meets.of_forall hproper) hrun
  exact hend

/-- **Nothing points to an instance that was deleted.**  In every state of a run every entry of a queue,
pending or cancelled, and the one that the forker holds, is for a task of an instance that was not deleted,
and the task is queued; every event of the `Retrier`, and those that a retry thread or `Flush` has taken from
it, is for a task of an instance that was not deleted, and the task has failed.  None of them is there
twice, and of the instances that were deleted nothing is left to be done: as long as the `unsigned int`s of
the instances can count their tasks and events. -/
theorem references_of_run (A : Allocator (Task UInt32 Nat)) (B : Allocator (TimedEvent TimedTask))
    (rows : List (String × UInt32 × UInt32)) (maxpid : Fin (2 ^ 31)) (pool : QueuePool UInt32 Nat)
    (hcreate : QueuePool.create rows maxpid = .ok pool) (actions : List (CancelAction Node))
    (hproper : ∀ a ∈ actions, Proper a) (e : CancellingEngine Node)
    (hrun : run (step A B) (start Node pool) actions = some e) (hcount : e.Countable) :
    (∃ ls events, e.engine.pool.Holds ls ∧ e.retrier.scheduler.Holds events ∧
      (e.entered ls).Nodup ∧ (e.awaited events).Nodup ∧
      (∀ x ∈ e.entered ls, ∃ i t, e.instances x.1 = some i ∧ i.registered = true ∧
        i.workflow.doc.task? x.2 = some t ∧ t.status = some .queued) ∧
      ∀ x ∈ e.awaited events, ∃ i t, e.instances x.1 = some i ∧ i.registered = true ∧
        i.workflow.doc.task? x.2 = some t ∧ t.status = some .terminated ∧ t.retval ≠ some 0) ∧
    ∀ id i, e.instances id = some i → i.registered = false →
      i.idle = true ∧ (∀ t ∈ i.workflow.doc.tasks, t.active = false) ∧ i.workflow.retrier = [] := by
  rcases run_deletedAtRest (start_inv hcreate) nofun hproper hrun with ⟨⟨ls, events, h⟩, hdeleted⟩
  have hentered := h.entered_spec hdeleted hcount
  have hawaited := h.awaited_spec hdeleted hcount
  refine ⟨⟨ls, events, h.pool, h.retrier.holds, hentered.1, hawaited.1, hentered.2, hawaited.2⟩, ?_⟩
  intro id i hi hregistered
  have hrest := hdeleted id i hi hregistered
  have hended := (h.sound id i hi).nothing_of_ended (hcount id i hi) hrest.ended
  exact ⟨hrest.idle, hended.1, hended.2⟩

/-- While its task waits for a retry, the instance is there. -/
theorem references_waiting : ∃ (e : CancellingEngine Unit) (i : ActiveInstance Unit),
    run (step (.bump _) (.bump _)) (start Unit oneQueue) cancelledWaiting = some e ∧
    e.instances 7 = some i ∧ i.workflow.retrier = [2] ∧
    (∃ events, e.retrier.scheduler.Holds events ∧ (e.awaited events).Nodup) ∧
    (i.registered = false → i.workflow.retrier = []) := by
  have hends : (run (step (.bump _) (.bump _)) (start Unit oneQueue) cancelledWaiting).bind (fun e ↦
      (e.instances 7).map fun i ↦ i.workflow.retrier) = some [2] := rfl
  rcases Option.bind_eq_some_iff.mp hends with ⟨e, hrun, hi⟩
  rcases Option.map_eq_some_iff.mp hi with ⟨i, hi, hretrier⟩
  have hproper : ∀ a ∈ cancelledWaiting, Proper a := by
    intro a ha
    simp only [cancelledWaiting, List.mem_cons, List.not_mem_nil, or_false] at ha
    rcases ha with rfl | rfl | rfl | rfl | rfl | rfl | rfl | rfl | rfl
    · exact Lifetime.retriedThenLooped_wellFormed
    all_goals trivial
  have hcountable : Lifetime.Countable i.workflow := by
    have hsmall : (run (step (.bump _) (.bump _)) (start Unit oneQueue) cancelledWaiting).bind (fun e ↦
        (e.instances 7).map fun i ↦ decide (Lifetime.Countable i.workflow)) = some true := rfl
    rw [hrun, Option.bind_some, hi, Option.map_some, Option.some.injEq] at hsmall
    exact of_decide_eq_true hsmall
  have hcount : e.Countable := by
    intro id j hj
    by_cases hid : id = 7
    · rw [hid, hi, Option.some.injEq] at hj
      exact hj ▸ hcountable
    · have hnone : (start Unit oneQueue).instances id = none := rfl
      have hmade : ∀ a ∈ cancelledWaiting, made a ≠ some id := by
        simp [cancelledWaiting, made, Ne.symm hid]
      rw [absent_of_run hnone hmade hrun] at hj
      cases hj
  have hreferences := references_of_run (.bump _) (.bump _) [("default", 1, 1)] 8 oneQueue rfl
    cancelledWaiting hproper e hrun hcount
  rcases hreferences.1 with ⟨ls, events, -, hevents, -, hnodup, -⟩
  exact ⟨e, i, hrun, hi, hretrier, ⟨events, hevents, hnodup⟩,
    fun hregistered ↦ (hreferences.2 7 i hi hregistered).2.2⟩

end CancellingEngine

end EvQueue
