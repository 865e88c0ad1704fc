import EvQueue.Base.Accounted
import EvQueue.EngineCancel
import EvQueue.QueueEntries
import EvQueue.WorkflowInstanceCancelling

/-!
# EngineCancelAccounts — every entry and every event belongs to its instance

Every entry of a queue and every event of the `Retrier`, wherever it is, belongs to a task that its
instance counts as queued or as to be retried.  Once the flag is set the instance adds none, so what
`Flush` and `CancelTasks` have taken away does not come back.
-/

namespace EvQueue

open Cells Runs

/-! ## The invariant -/

variable {Node : Type}

namespace ActiveInstance

variable {i : ActiveInstance Node}

/-- The counters are right, and before `Start` nothing has been done. -/
structure Sound (i : ActiveInstance Node) : Prop where
  view : i.workflow.view.Inv 0 0
  fresh : i.started = false → ∃ (doc : Document Node) (isCancelling : Bool), doc.WellFormed ∧
    i.workflow = { WorkflowInstance.create doc with isCancelling }

theorem idle_iff : i.idle = true ↔ i.enqueuing = [] ∧ i.inserting = [] := by
  unfold idle
  rw [Bool.and_eq_true, List.isEmpty_iff, List.isEmpty_iff]

/-- An instance that has a task somewhere was started. -/
theorem Sound.started (h : i.Sound) (hbusy : i.workflow.queued ≠ [] ∨ i.workflow.retrier ≠ [] ∨
    ∃ t ∈ i.workflow.doc.tasks, t.status ≠ none) : i.started = true := by
  by_contra hnot
  rw [Bool.not_eq_true] at hnot
  rcases h.fresh hnot with ⟨doc, isCancelling, hdoc, hworkflow⟩
  rw [hworkflow] at hbusy
  rcases hbusy with hqueued | hretrier | ⟨t, ht, hstatus⟩
  · exact hqueued rfl
  · exact hretrier rfl
  · exact hstatus (hdoc.noStatus t ht)

end ActiveInstance

namespace CancellingEngine

variable {e e₁ e' : CancellingEngine Node} {id : UInt32} {i : ActiveInstance Node}
variable {ls ls' : List (QueuePool.Cells UInt32 Nat)} {events events' : List (TimedEvent TimedTask)}

/-- A list that the instances keep. -/
def slot (e : CancellingEngine Node) (f : ActiveInstance Node → List Nat) (id : UInt32) : List Nat :=
  ((e.instances id).map f).getD []

/-- The entries of the queues, and the one that the forker has taken. -/
def entered (e : CancellingEngine Node) (ls : List (QueuePool.Cells UInt32 Nat)) :
    List (UInt32 × Nat) :=
  ((e.engine.forker.task?.map Prod.snd).toList ++ QueuePool.entries ls).map fun t ↦
    (t.workflowInstance, t.task)

/-- The events that `Flush` still calls `event_removed` for. -/
def flushing (e : CancellingEngine Node) : List TimedTask := (e.flush.map Prod.snd).getD []

/-- The events of the retrier, and those that it has handed out. -/
def awaited (e : CancellingEngine Node) (events : List (TimedEvent TimedTask)) :
    List (UInt32 × Nat) :=
  (e.flushing ++ e.shifted ++ events.map TimedEvent.content).map fun t ↦ (t.workflowInstance, t.task)

/-- The entries and the events are those of the instances, a cancelled instance hands over nothing, and
what is requested to be cancelled is. -/
structure Accounts (e : CancellingEngine Node) (ls : List (QueuePool.Cells UInt32 Nat))
    (events : List (TimedEvent TimedTask)) : Prop where
  pool : e.engine.pool.Holds ls
  retrier : e.retrier.Inv events
  queued : Accounted (e.slot fun i ↦ i.workflow.queued) (e.slot ActiveInstance.enqueuing)
    (e.entered ls)
  retrying : Accounted (e.slot fun i ↦ i.workflow.retrier) (e.slot ActiveInstance.inserting)
    (e.awaited events)
  cancelling : ∀ id i, e.instances id = some i → i.workflow.isCancelling = true → i.idle = true
  requested : ∀ r ∈ e.requests, ∃ i, e.instances r.workflowInstanceId = some i ∧
    i.workflow.isCancelling = true

structure Inv (e : CancellingEngine Node) (ls : List (QueuePool.Cells UInt32 Nat))
    (events : List (TimedEvent TimedTask)) : Prop extends Accounts e ls events where
  sound : ∀ id i, e.instances id = some i → i.Sound

/-- What the requests have swept away so far. -/
structure Swept (e : CancellingEngine Node) (ls : List (QueuePool.Cells UInt32 Nat))
    (events : List (TimedEvent TimedTask)) : Prop where
  flushing : ∀ k rest, e.flush = some (some k, rest) → ∃ r, e.requests[k]? = some r ∧
    r.stage = .cancelled ∧ ∀ x ∈ events, x.content.workflowInstance ≠ r.workflowInstanceId
  flushed : ∀ r ∈ e.requests, r.stage ≠ .cancelled →
    ∀ x ∈ events, x.content.workflowInstance ≠ r.workflowInstanceId
  completed : ∀ r ∈ e.requests, r.stage = .completed →
    ∀ t ∈ QueuePool.pending ls, t.workflowInstance ≠ r.workflowInstanceId

/-- Nothing comes back behind a step, and no completed request is forgotten. -/
def SweptFrom (e e' : CancellingEngine Node) (ls' : List (QueuePool.Cells UInt32 Nat))
    (events' : List (TimedEvent TimedTask)) : Prop :=
  e'.Swept ls' events' ∧ ∀ r ∈ e.requests, r.stage = .completed → r ∈ e'.requests

/-- The cancelled instances stay so: no task becomes active, and the counters do not grow. -/
def Subsides (e e' : CancellingEngine Node) : Prop :=
  ∀ id i, e.instances id = some i → i.workflow.isCancelling = true →
    ∃ i', e'.instances id = some i' ∧ i'.workflow.isCancelling = true ∧
      WorkflowInstance.Subsides i.workflow i'.workflow ∧
      i'.workflow.runningTally ≤ i.workflow.runningTally ∧
      i'.workflow.retryingTally ≤ i.workflow.retryingTally

theorem Subsides.refl (e : CancellingEngine Node) : Subsides e e :=
  fun _ i hi hcancel ↦
    ⟨i, hi, hcancel, WorkflowInstance.Subsides.refl _, Int.le_refl _, Int.le_refl _⟩

theorem Subsides.trans (h : Subsides e e₁) (h' : Subsides e₁ e') : Subsides e e' := by
  intro id i hi hcancel
  rcases h id i hi hcancel with ⟨i₁, hi₁, hcancel₁, hsub₁, hrunning₁, hretrying₁⟩
  rcases h' id i₁ hi₁ hcancel₁ with ⟨i', hi', hcancel', hsub', hrunning', hretrying'⟩
  exact ⟨i', hi', hcancel', hsub₁.trans hsub', by omega, by omega⟩

/-- An instance is replaced, or made. -/
theorem Subsides.setInstance {i' : ActiveInstance Node}
    (hinstances : e'.instances = Function.update e.instances id (some i'))
    (h : ∀ i, e.instances id = some i → i.workflow.isCancelling = true →
      i'.workflow.isCancelling = true ∧ WorkflowInstance.Subsides i.workflow i'.workflow ∧
      i'.workflow.runningTally ≤ i.workflow.runningTally ∧
      i'.workflow.retryingTally ≤ i.workflow.retryingTally) : Subsides e e' := by
  intro x j hj hcancel
  rw [hinstances]
  by_cases hx : x = id
  · rw [hx] at hj ⊢
    rw [Function.update_self]
    exact ⟨i', rfl, h j hj hcancel⟩
  · rw [Function.update_of_ne hx]
    exact Subsides.refl e x j hj hcancel

theorem Subsides.of_instances (h : e'.instances = e.instances) : Subsides e e' := by
  intro x j hj hcancel
  rw [h]
  exact Subsides.refl e x j hj hcancel

/-! ## The lists of the instances -/

theorem slot_some (hi : e.instances id = some i) (f : ActiveInstance Node → List Nat) :
    e.slot f id = f i := by
  unfold slot
  rw [hi]
  rfl

theorem slot_update {i' : Option (ActiveInstance Node)} {xs : List Nat}
    (hinstances : e'.instances = Function.update e.instances id i')
    (f : ActiveInstance Node → List Nat) (hxs : (i'.map f).getD [] = xs) :
    e'.slot f = Function.update (e.slot f) id xs := by
  funext x
  unfold slot
  rw [hinstances]
  by_cases hx : x = id
  · rw [hx, Function.update_self, Function.update_self, hxs]
  · rw [Function.update_of_ne hx, Function.update_of_ne hx]

/-- A change that the list does not show. -/
theorem slot_same {i' : Option (ActiveInstance Node)}
    (hinstances : e'.instances = Function.update e.instances id i')
    (f : ActiveInstance Node → List Nat) (hsame : (i'.map f).getD [] = e.slot f id) :
    e'.slot f = e.slot f := by
  rw [slot_update hinstances f hsame, Function.update_eq_self]

theorem slot_replace {i' : ActiveInstance Node} (hi : e.instances id = some i)
    (hinstances : e'.instances = Function.update e.instances id (some i'))
    (f : ActiveInstance Node → List Nat) (hf : f i' = f i) : e'.slot f = e.slot f := by
  apply slot_same hinstances
  rw [slot_some hi]
  exact hf

/-- A property of all instances, when one is replaced. -/
theorem forall_update {P : UInt32 → ActiveInstance Node → Prop} {i' : ActiveInstance Node}
    (hinstances : e'.instances = Function.update e.instances id (some i'))
    (h : ∀ x i, e.instances x = some i → P x i) (hnew : P id i') :
    ∀ x i, e'.instances x = some i → P x i := by
  intro x j hj
  rw [hinstances] at hj
  by_cases hx : x = id
  · rw [hx, Function.update_self, Option.some.injEq] at hj
    rw [hx, ← hj]
    exact hnew
  · rw [Function.update_of_ne hx] at hj
    exact h x j hj

/-- There is only one instance with an ID. -/
theorem forall_instance {P : ActiveInstance Node → Prop} (hi : e.instances id = some i) (h : P i) :
    ∀ j, e.instances id = some j → P j := by
  intro j hj
  rw [hi, Option.some.injEq] at hj
  rw [← hj]
  exact h

theorem forall_no_instance {P : ActiveInstance Node → Prop} (hi : e.instances id = none) :
    ∀ j, e.instances id = some j → P j := by
  intro j hj
  rw [hi] at hj
  cases hj

theorem requested_update {i' : ActiveInstance Node}
    (hinstances : e'.instances = Function.update e.instances id (some i'))
    (h : ∀ r ∈ e.requests, ∃ i, e.instances r.workflowInstanceId = some i ∧
      i.workflow.isCancelling = true) (hrequests : e'.requests = e.requests)
    (hnew : ∀ i, e.instances id = some i → i.workflow.isCancelling = true →
      i'.workflow.isCancelling = true) :
    ∀ r ∈ e'.requests, ∃ i, e'.instances r.workflowInstanceId = some i ∧
      i.workflow.isCancelling = true := by
  intro r hr
  rw [hrequests] at hr
  rw [hinstances]
  rcases h r hr with ⟨j, hj, hcancel⟩
  by_cases hx : r.workflowInstanceId = id
  · rw [hx] at hj ⊢
    rw [Function.update_self]
    exact ⟨i', rfl, hnew j hj hcancel⟩
  · rw [Function.update_of_ne hx]
    exact ⟨j, hj, hcancel⟩

/-- The instance of a request has the flag. -/
theorem Accounts.not_requested (h : e.Accounts ls events) (hi : e.instances id = some i)
    (hflag : i.workflow.isCancelling ≠ true) : ∀ r ∈ e.requests, id ≠ r.workflowInstanceId := by
  intro r hr hid
  rcases h.requested r hr with ⟨j, hj, hcancel⟩
  rw [← hid] at hj
  rw [hi, Option.some.injEq] at hj
  rw [← hj] at hcancel
  exact hflag hcancel

/-! ## A call of an instance -/

variable {body : WorkflowInstance Node → WorkflowInstance Node × Bool}

/-- What a call adds to the lists of its instance is still to be handed over. -/
theorem Accounts.call (h : e.Accounts ls events) (hi : e.instances id = some i)
    (hext : WorkflowInstance.Extends i.workflow (body i.workflow).1)
    (hcall : e.call id body = some e') : e'.Accounts ls events := by
  rcases call_cases hcall with ⟨j, hj, hidle, heq⟩
  rw [hi, Option.some.injEq] at hj
  subst hj heq
  have hempty := ActiveInstance.idle_iff.mp hidle
  have hinstances : (e.setInstance id (i.handOver (body i.workflow).1)).instances =
      Function.update e.instances id (some (i.handOver (body i.workflow).1)) := rfl
  constructor
  case pool => exact h.pool
  case retrier => exact h.retrier
  case queued =>
    rw [slot_update hinstances _ rfl, slot_update hinstances _ rfl]
    apply h.queued.acquire
    · rw [slot_some hi]
      exact hempty.1
    · rw [slot_some hi]
      exact List.prefix_iff_eq_append.mp hext.queued
  case retrying =>
    rw [slot_update hinstances _ rfl, slot_update hinstances _ rfl]
    apply h.retrying.acquire
    · rw [slot_some hi]
      exact hempty.2
    · rw [slot_some hi]
      exact List.prefix_iff_eq_append.mp hext.retrier
  case cancelling =>
    apply forall_update hinstances h.cancelling
    -- with the flag nothing is added
    intro hcancel
    have hflag : i.workflow.isCancelling = true := hext.isCancelling.symm.trans hcancel
    have hheld := hext.held hflag
    apply ActiveInstance.idle_iff.mpr
    unfold ActiveInstance.handOver
    dsimp only
    rw [hheld.1, hheld.2.1, List.drop_length, List.drop_length]
    exact ⟨rfl, rfl⟩
  case requested =>
    apply requested_update hinstances h.requested rfl
    exact forall_instance hi fun hcancel ↦ hext.isCancelling.trans hcancel

/-- A call, when what it was made for has been taken from the lists of the instance. -/
theorem Inv.call (h : e.Inv ls events) {i₁ : ActiveInstance Node}
    (hcalls : Calls e e₁ id body i i₁ e') (haccounts : e₁.Accounts ls' events')
    (hstarted : i₁.started = true)
    (hsame : i₁.workflow.isCancelling = i.workflow.isCancelling ∧
      i₁.workflow.runningTally = i.workflow.runningTally ∧
      i₁.workflow.retryingTally = i.workflow.retryingTally)
    (hext : WorkflowInstance.Extends i₁.workflow (body i₁.workflow).1)
    (hview : (body i₁.workflow).1.view.Inv 0 0)
    (hsubsides : i₁.workflow.isCancelling = true →
      WorkflowInstance.Subsides i.workflow (body i₁.workflow).1) :
    e'.Inv ls' events' ∧ Subsides e e' := by
  have hi := hcalls.found
  have hi₁ : e₁.instances id = some i₁ := by
    rw [hcalls.taken, Function.update_self]
  have haccounts' := haccounts.call hi₁ hext hcalls.call
  have hnew := hcalls.instances.1
  refine ⟨⟨haccounts', forall_update hnew h.sound ?_⟩, Subsides.setInstance hnew ?_⟩
  · exact ⟨hview, fun hnot ↦ absurd (hstarted.symm.trans hnot) (by decide)⟩
  · refine forall_instance hi fun hcancel ↦ ?_
    have hflag := hsame.1.trans hcancel
    have hheld := hext.held hflag
    rw [hsame.2.1, hsame.2.2] at hheld
    exact ⟨hext.isCancelling.trans hflag, hsubsides hflag, hheld.2.2.1, hheld.2.2.2⟩

/-- Neither the requests nor what they are to sweep away are touched by a call. -/
theorem call_same (hcall : e.call id body = some e') :
    e'.requests = e.requests ∧ e'.flush = e.flush := by
  rcases call_cases hcall with ⟨i, -, -, heq⟩
  rw [heq]
  exact ⟨rfl, rfl⟩

/-! ## Steps -/

/-- What is swept away stays so when nothing of a requested instance is added. -/
theorem Swept.mono (h : e.Swept ls events) (hrequests : e'.requests = e.requests)
    (hflush : ∀ k rest, e'.flush = some (some k, rest) → ∃ rest', e.flush = some (some k, rest'))
    (hevents : ∀ x ∈ events', x ∈ events ∨
      ∀ r ∈ e.requests, x.content.workflowInstance ≠ r.workflowInstanceId)
    (hpending : ∀ t ∈ QueuePool.pending ls', t ∈ QueuePool.pending ls ∨
      ∀ r ∈ e.requests, t.workflowInstance ≠ r.workflowInstanceId) : SweptFrom e e' ls' events' := by
  refine ⟨?_, fun r hr _ ↦ hrequests ▸ hr⟩
  constructor
  case flushing =>
    intro k rest hf
    rcases hflush k rest hf with ⟨rest', hf'⟩
    rcases h.flushing k rest' hf' with ⟨r, hr, hstage, hnone⟩
    refine ⟨r, ?_, hstage, ?_⟩
    · rw [hrequests]
      exact hr
    · intro x hx
      rcases hevents x hx with hin | hout
      · exact hnone x hin
      · exact hout r (List.mem_of_getElem? hr)
  case flushed =>
    intro r hr hstage x hx
    rw [hrequests] at hr
    rcases hevents x hx with hin | hout
    · exact h.flushed r hr hstage x hin
    · exact hout r hr
  case completed =>
    intro r hr hstage t ht
    rw [hrequests] at hr
    rcases hpending t ht with hin | hout
    · exact h.completed r hr hstage t hin
    · exact hout r hr

theorem Swept.of_same (h : e.Swept ls events) (hrequests : e'.requests = e.requests)
    (hflush : e'.flush = e.flush) : SweptFrom e e' ls events := by
  apply h.mono hrequests
  · intro k rest hf
    exact ⟨rest, hflush.symm.trans hf⟩
  · exact fun x hx ↦ .inl hx
  · exact fun t ht ↦ .inl ht

/-- What a step does to a state of a run; `ok` is the condition on the step. -/
def Keeps (ok : Prop) (e : CancellingEngine Node) (ls : List (QueuePool.Cells UInt32 Nat))
    (events : List (TimedEvent TimedTask)) (e' : CancellingEngine Node) : Prop :=
  ∃ ls' events', e'.Inv ls' events' ∧ Subsides e e' ∧
    (ok → e.Swept ls events → SweptFrom e e' ls' events')

/-- An instance is replaced by one with the same lists. -/
theorem Accounts.replace (h : e.Accounts ls events) (hi : e.instances id = some i)
    {i' : ActiveInstance Node} (hinstances : e'.instances = Function.update e.instances id (some i'))
    (hlists : i'.workflow.queued = i.workflow.queued ∧ i'.workflow.retrier = i.workflow.retrier ∧
      i'.enqueuing = i.enqueuing ∧ i'.inserting = i.inserting)
    (hcancel : i'.workflow.isCancelling = true → i'.idle = true)
    (hkept : i.workflow.isCancelling = true → i'.workflow.isCancelling = true)
    (hengine : e'.engine.pool = e.engine.pool ∧ e'.engine.forker = e.engine.forker)
    (hretrier : e'.retrier = e.retrier ∧ e'.shifted = e.shifted ∧ e'.flush = e.flush)
    (hrequests : e'.requests = e.requests) : e'.Accounts ls events := by
  have hentered : e'.entered ls = e.entered ls := by
    unfold entered
    rw [hengine.2]
  have hawaited : e'.awaited events = e.awaited events := by
    unfold awaited flushing
    rw [hretrier.2.1, hretrier.2.2]
  have hslot (f : ActiveInstance Node → List Nat) (hf : f i' = f i) : e'.slot f = e.slot f :=
    slot_replace hi hinstances f hf
  constructor
  case pool =>
    rw [hengine.1]
    exact h.pool
  case retrier =>
    rw [hretrier.1]
    exact h.retrier
  case queued =>
    rw [hslot _ hlists.1, hslot _ hlists.2.2.1, hentered]
    exact h.queued
  case retrying =>
    rw [hslot _ hlists.2.1, hslot _ hlists.2.2.2, hawaited]
    exact h.retrying
  case cancelling => exact forall_update hinstances h.cancelling hcancel
  case requested =>
    exact requested_update hinstances h.requested hrequests (forall_instance hi hkept)

end CancellingEngine

end EvQueue
