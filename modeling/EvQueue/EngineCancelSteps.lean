import EvQueue.EngineCancelAccounts
import EvQueue.LaunchRequest

/-!
# EngineCancelSteps — what the threads of the engine do to the accounts

The calls of an instance, the forker, the gatherer and the retry threads: each of them keeps the
accounts, and none of them brings back what a cancel request has swept away.
-/

namespace EvQueue

open Cells Runs

variable {Node : Type}

namespace CancellingEngine

variable {e e₁ e' : CancellingEngine Node} {id : UInt32} {i : ActiveInstance Node}
variable {ls ls' : List (QueuePool.Cells UInt32 Nat)} {events events' : List (TimedEvent TimedTask)}
variable {A : Allocator (Task UInt32 Nat)} {B : Allocator (TimedEvent TimedTask)}

/-! ## The instances -/

theorem construct_keeps (h : e.Inv ls events) {doc : Document Node} (hdoc : doc.WellFormed)
    {ok : Prop} (hi : e.instances id = none) :
    Keeps ok e ls events (e.setInstance id ⟨.create doc, false, true, [], []⟩) := by
  have hinstances : (e.setInstance id ⟨.create doc, false, true, [], []⟩).instances =
      Function.update e.instances id (some ⟨.create doc, false, true, [], []⟩) := rfl
  have hslot (f : ActiveInstance Node → List Nat) (hf : f ⟨.create doc, false, true, [], []⟩ = []) :
      (e.setInstance id ⟨.create doc, false, true, [], []⟩).slot f = e.slot f := by
    apply slot_same hinstances
    unfold slot
    rw [hi]
    exact hf
  refine ⟨ls, events, ⟨⟨h.pool, h.retrier, ?_, ?_, ?_, ?_⟩, ?_⟩, ?_, ?_⟩
  · rw [hslot _ rfl, hslot _ rfl]
    exact h.queued
  · rw [hslot _ rfl, hslot _ rfl]
    exact h.retrying
  · exact forall_update hinstances h.cancelling fun _ ↦ rfl
  · exact requested_update hinstances h.requested rfl (forall_no_instance hi)
  · apply forall_update hinstances h.sound
    exact ⟨WorkflowInstance.create_inv hdoc, fun _ ↦ ⟨doc, false, hdoc, rfl⟩⟩
  · exact Subsides.setInstance hinstances (forall_no_instance hi)
  · exact fun _ hswept ↦ hswept.of_same rfl rfl

theorem start_keeps (h : e.Inv ls events) {env : Environment Node} {ok : Prop}
    (hnot : i.started = false)
    (hcalls : Calls e (e.setInstance id { i with started := true }) id
      (fun s ↦ s.start (e.environment env)) i { i with started := true } e') :
    Keeps ok e ls events e' := by
  have hi := hcalls.found
  have hsound := h.sound id i hi
  rcases hsound.fresh hnot with ⟨doc, isCancelling, hdoc, hworkflow⟩
  have haccounts : (e.setInstance id { i with started := true }).Accounts ls events :=
    h.toAccounts.replace hi hcalls.taken ⟨rfl, rfl, rfl, rfl⟩ (h.cancelling id i hi) (fun hc ↦ hc)
      ⟨rfl, rfl⟩ ⟨rfl, rfl, rfl⟩ rfl
  have hview : (i.workflow.start (e.environment env)).1.view.Inv 0 0 := by
    rw [hworkflow]
    exact LaunchRequest.start_view hdoc _ isCancelling
  have hsubsides (hcancel : i.workflow.isCancelling = true) :
      WorkflowInstance.Subsides i.workflow (i.workflow.start (e.environment env)).1 := by
    apply WorkflowInstance.subsides_runSubjobs _ hsound.view
    · rw [hworkflow]
      exact List.not_mem_nil
    · exact hsound.view.nextId
    · exact fun hne ↦ absurd rfl hne
    · exact hcancel
  have hcall := h.call hcalls haccounts rfl ⟨rfl, rfl, rfl⟩ (WorkflowInstance.extends_start _ _) hview
    hsubsides
  have hsame := call_same hcalls.call
  exact ⟨ls, events, hcall.1, hcall.2, fun _ hswept ↦ hswept.of_same hsame.1 hsame.2⟩

theorem registerTasks_holds {pool : QueuePool UInt32 Nat} (h : pool.Holds ls) (id : UInt32)
    (doc : Document Node) (order : List Nat) (tid : Nat → Nat) :
    (registerTasks pool id doc order tid).Holds ls := by
  unfold registerTasks
  generalize order.filter _ = tasks
  induction tasks generalizing pool with
  | nil => exact h
  | cons x tasks ih => exact ih (h.executeTask id x _ _)

theorem resume_keeps (h : e.Inv ls events) {saved : WorkflowInstance Node} {order : List Nat}
    (hsaved : saved.view.Inv 0 0) (horder : order.Perm saved.doc.found) {env : Environment Node}
    {tid : Nat → Nat} {ok : Prop} (hi : e.instances id = none) :
    Keeps ok e ls events ({ e with engine := { e.engine with
        pool := registerTasks e.engine.pool id saved.doc order tid } }.setInstance id
      (ActiveInstance.handOver ⟨.fromSavepoint saved.doc saved.trace, true, true, [], []⟩
        ((WorkflowInstance.fromSavepoint saved.doc saved.trace).resume (e.environment env) order).1)) := by
  have hview := WorkflowInstance.resume_inv (e.environment env) hsaved horder
  have hnodup := horder.nodup_iff.mpr
    (WorkflowInstance.found_nodup (WorkflowInstance.tasksNodup_of_inv hsaved))
  have hflag : ((WorkflowInstance.fromSavepoint saved.doc saved.trace).resume (e.environment env)
      order).1.isCancelling = false :=
    (WorkflowInstance.resumption_foldl hnodup rfl).isCancelling
  generalize ((WorkflowInstance.fromSavepoint saved.doc saved.trace).resume (e.environment env)
    order).1 = after at hview hflag ⊢
  generalize hstep : ({ e with engine := { e.engine with
    pool := registerTasks e.engine.pool id saved.doc order tid } }.setInstance id _) = e'
  have hempty (f : ActiveInstance Node → List Nat) : e.slot f id = [] := by
    unfold slot
    rw [hi]
    rfl
  have hinstances : e'.instances = Function.update e.instances id
      (some ⟨after, true, true, after.queued, after.retrier⟩) := by
    rw [← hstep]
    rfl
  have hsame : e'.entered ls = e.entered ls ∧ e'.awaited events = e.awaited events ∧
      e'.requests = e.requests ∧ e'.flush = e.flush := by
    rw [← hstep]
    exact ⟨rfl, rfl, rfl, rfl⟩
  refine ⟨ls, events, ⟨⟨?_, ?_, ?_, ?_, ?_, ?_⟩, ?_⟩, ?_, ?_⟩
  · rw [← hstep]
    exact registerTasks_holds h.pool id saved.doc order tid
  · rw [← hstep]
    exact h.retrier
  · rw [slot_update hinstances _ rfl, slot_update hinstances _ rfl, hsame.1]
    apply h.queued.acquire (hempty _)
    rw [hempty]
    rfl
  · rw [slot_update hinstances _ rfl, slot_update hinstances _ rfl, hsame.2.1]
    apply h.retrying.acquire (hempty _)
    rw [hempty]
    rfl
  · apply forall_update hinstances h.cancelling
    intro hcancel
    rw [hflag] at hcancel
    cases hcancel
  · exact requested_update hinstances h.requested hsame.2.2.1 (forall_no_instance hi)
  · exact forall_update hinstances h.sound ⟨hview, nofun⟩
  · exact Subsides.setInstance hinstances (forall_no_instance hi)
  · exact fun _ hswept ↦ hswept.of_same hsame.2.2.1 hsame.2.2.2

/-- An entry goes from the instance to its queue. -/
theorem enqueueTask_keeps (h : e.Inv ls events) {ok : Prop} {task : Nat} {enqueuing : List Nat}
    {engine : Engine UInt32 Nat} (hi : e.instances id = some i)
    (henqueuing : i.enqueuing = task :: enqueuing)
    (hengine : e.engine.step A getInstanceID (.enqueueTask
      (ActiveInstance.queueName i.workflow.doc task) id task) = some engine) :
    Keeps ok e ls events { e.setInstance id { i with enqueuing } with engine } := by
  rcases Option.map_eq_some_iff.mp hengine with ⟨⟨found, pool⟩, hpool, heq'⟩
  rcases h.pool.enqueueTask (t := ⟨id, task⟩) hpool with ⟨ls', hholds, hsub, hpending⟩
  generalize heq : { e.setInstance id { i with enqueuing } with engine } = e'
  have hinstances : e'.instances = Function.update e.instances id (some { i with enqueuing }) := by
    rw [← heq]
    rfl
  have hsame : e'.awaited events = e.awaited events ∧ e'.requests = e.requests ∧
      e'.flush = e.flush ∧ e'.engine.forker = e.engine.forker := by
    rw [← heq, ← heq']
    exact ⟨rfl, rfl, rfl, rfl⟩
  -- with the flag nothing would be handed over
  have hflag : i.workflow.isCancelling ≠ true := by
    intro hcancel
    have hidle := (ActiveInstance.idle_iff.mp (h.cancelling id i hi hcancel)).1
    rw [henqueuing] at hidle
    cases hidle
  refine ⟨ls', events, ⟨⟨?_, ?_, ?_, ?_, ?_, ?_⟩, ?_⟩, ?_, ?_⟩
  · rw [← heq, ← heq']
    exact hholds
  · rw [← heq]
    exact h.retrier
  · rw [slot_replace hi hinstances _ rfl, slot_update hinstances _ rfl]
    apply h.queued.send
    · rw [slot_some hi]
      exact henqueuing
    · have hentries := ((List.subperm_append_left (e.engine.forker.task?.map Prod.snd).toList).mpr
        hsub).trans List.perm_middle.subperm
      unfold entered
      rw [hsame.2.2.2]
      exact subperm_map _ hentries
  · rw [slot_replace hi hinstances _ rfl, slot_replace hi hinstances _ rfl,
      hsame.1]
    exact h.retrying
  · exact forall_update hinstances h.cancelling fun hcancel ↦ absurd hcancel hflag
  · exact requested_update hinstances h.requested hsame.2.1 (forall_instance hi fun hflag ↦ hflag)
  · exact forall_update hinstances h.sound ⟨(h.sound id i hi).view, (h.sound id i hi).fresh⟩
  · exact Subsides.setInstance hinstances (forall_instance hi fun hcancel ↦ absurd hcancel hflag)
  · intro _ hswept
    apply hswept.mono hsame.2.1
    · exact fun k rest hf ↦ ⟨rest, hsame.2.2.1.symm.trans hf⟩
    · exact fun x hx ↦ .inl hx
    · intro t ht
      rcases hpending t ht with hin | hnew
      · exact .inl hin
      · rw [hnew]
        exact .inr (h.not_requested hi hflag)

/-- An event goes from the instance to the retrier. -/
theorem insertTask_keeps (h : e.Inv ls events) {retryAt : Int} {ok : Prop} {task : Nat}
    {inserting : List Nat} {retrier : Scheduling TimedTask} (hi : e.instances id = some i)
    (hinserting : i.inserting = task :: inserting)
    (hretrier : e.retrier.step B (.insertEvent retryAt ⟨id, task⟩) = some retrier) :
    Keeps ok e ls events { e.setInstance id { i with inserting } with retrier } := by
  rcases Scheduling.insertEvent_inv B h.retrier retryAt ⟨id, task⟩ with ⟨s', hs', hinv⟩
  rw [hretrier, Option.some.injEq] at hs'
  subst hs'
  have hperm := List.perm_orderedInsert Scheduler.earlier
    ⟨retryAt, ⟨id, task⟩, e.retrier.inserted⟩ events
  generalize heq : { e.setInstance id { i with inserting } with retrier } = e'
  have hinstances : e'.instances = Function.update e.instances id (some { i with inserting }) := by
    rw [← heq]
    rfl
  have hsame : e'.entered ls = e.entered ls ∧ e'.requests = e.requests ∧ e'.flush = e.flush ∧
      e'.shifted = e.shifted := by
    rw [← heq]
    exact ⟨rfl, rfl, rfl, rfl⟩
  -- a cancelled instance has no insertion left, for `Cancel` takes the lock of the instance
  have hflag : i.workflow.isCancelling ≠ true := by
    intro hcancel
    have hidle := (ActiveInstance.idle_iff.mp (h.cancelling id i hi hcancel)).2
    rw [hinserting] at hidle
    cases hidle
  refine ⟨ls, events.orderedInsert Scheduler.earlier ⟨retryAt, ⟨id, task⟩, e.retrier.inserted⟩,
    ⟨⟨?_, ?_, ?_, ?_, ?_, ?_⟩, ?_⟩, ?_, ?_⟩
  · rw [← heq]
    exact h.pool
  · rw [← heq]
    exact hinv
  · rw [slot_replace hi hinstances _ rfl, slot_replace hi hinstances _ rfl, hsame.1]
    exact h.queued
  · rw [slot_replace hi hinstances _ rfl, slot_update hinstances _ rfl]
    -- the event goes from the instance to the list of the Retrier
    apply h.retrying.send
    · rw [slot_some hi]
      exact hinserting
    · unfold awaited flushing
      rw [hsame.2.2.1, hsame.2.2.2]
      have hcontents := (hperm.map TimedEvent.content).subperm
      have hawaited := ((List.subperm_append_left (((e.flush.map Prod.snd).getD []) ++
        e.shifted)).mpr hcontents).trans List.perm_middle.subperm
      exact subperm_map _ hawaited
  · exact forall_update hinstances h.cancelling fun hcancel ↦ absurd hcancel hflag
  · exact requested_update hinstances h.requested hsame.2.1 (forall_instance hi fun hflag ↦ hflag)
  · exact forall_update hinstances h.sound ⟨(h.sound id i hi).view, (h.sound id i hi).fresh⟩
  · exact Subsides.setInstance hinstances (forall_instance hi fun hcancel ↦ absurd hcancel hflag)
  · intro _ hswept
    apply hswept.mono hsame.2.1
    · exact fun k rest hf ↦ ⟨rest, hsame.2.2.1.symm.trans hf⟩
    · intro x hx
      rcases List.mem_cons.mp (hperm.mem_iff.mp hx) with hnew | hin
      · rw [hnew]
        exact .inr (h.not_requested hi hflag)
      · exact .inl hin
    · exact fun t ht ↦ .inl ht

/-! ## The forker -/

/-- The task that the forker has taken. -/
def taken (engine : Engine UInt32 Nat) : List (Task UInt32 Nat) :=
  (engine.forker.task?.map Prod.snd).toList

theorem finishDequeue_spec {engine engine' : Engine UInt32 Nat} {pool : QueuePool UInt32 Nat}
    (h : pool.Holds ls) (hstep : engine.finishDequeue pool = some engine') :
    ∃ ls', engine'.pool.Holds ls' ∧ (taken engine' ++ QueuePool.entries ls').Perm
      (QueuePool.entries ls) ∧ ∀ t ∈ QueuePool.pending ls', t ∈ QueuePool.pending ls := by
  rcases Option.map_eq_some_iff.mp hstep with ⟨⟨found, pool'⟩, hbody, heq⟩
  rcases h.dequeueBody hbody with ⟨ls', hholds, hperm, hpending⟩
  refine ⟨ls', ?_⟩
  rw [← heq]
  cases found with
  | none => exact ⟨hholds, hperm, hpending⟩
  | some t => exact ⟨hholds, hperm, hpending⟩

/-- An entry goes from its queue to the forker. -/
theorem onPool_spec {engine engine' : Engine UInt32 Nat} {action : EngineAction UInt32 Nat}
    (h : engine.pool.Holds ls) (hon : onPool action = true)
    (hstep : engine.step A getInstanceID action = some engine') :
    ∃ ls', engine'.pool.Holds ls' ∧ (taken engine' ++ QueuePool.entries ls').Perm
      (taken engine ++ QueuePool.entries ls) ∧ ∀ t ∈ QueuePool.pending ls', t ∈ QueuePool.pending ls := by
  cases action with
  | enqueueTask _ _ _ => cases hon
  | cancel _ => cases hon
  | cancelTasks _ => cases hon
  | taskExecute _ _ => cases hon
  | dequeueTask =>
    unfold Engine.step at hstep
    cases hforker : engine.forker with
    | idle =>
      -- the forker holds no entry before it dequeues one
      have hnone : taken engine = [] := by
        unfold taken
        rw [hforker]
        rfl
      rw [hnone, List.nil_append]
      simp only [hforker] at hstep
      unfold QueuePool.dequeueEnter at hstep
      by_cases hshut : engine.pool.isShuttingDown = true
      · rw [if_pos hshut] at hstep
        rw [Option.some.injEq] at hstep
        rw [← hstep]
        -- behind the shutdown it leaves with nothing
        exact ⟨ls, h, List.Perm.refl _, fun t ht ↦ ht⟩
      · rw [if_neg hshut] at hstep
        by_cases hpossible : engine.pool.forkPossible = true
        · rw [hpossible] at hstep
          exact finishDequeue_spec h hstep
        · rw [Bool.not_eq_true] at hpossible
          rw [hpossible] at hstep
          have hstep := Option.some.inj hstep
          rw [← hstep]
          exact ⟨ls, h, List.Perm.refl _, fun t ht ↦ ht⟩
    | _ => simp [hforker] at hstep
  | wakeUp =>
    unfold Engine.step at hstep
    cases hforker : engine.forker with
    | waiting =>
      have hnone : taken engine = [] := by
        unfold taken
        rw [hforker]
        rfl
      rw [hnone, List.nil_append]
      simp only [hforker] at hstep
      exact finishDequeue_spec h hstep
    | _ => simp [hforker] at hstep
  | executeTask =>
    unfold Engine.step at hstep
    cases hforker : engine.forker with
    | dequeued i queueName t =>
      simp only [hforker, Option.some.injEq] at hstep
      refine ⟨ls, ?_, ?_, fun t ht ↦ ht⟩
      · rw [← hstep]
        exact h.executeTask _ _ _ _
      · unfold taken
        rw [← hstep, hforker]
        exact List.Perm.refl _
    | _ => simp [hforker] at hstep
  | terminateFailed =>
    unfold Engine.step at hstep
    cases hforker : engine.forker with
    | releasing i tid =>
      simp only [hforker, Option.some.injEq] at hstep
      refine ⟨ls, ?_, ?_, fun t ht ↦ ht⟩
      · rw [← hstep]
        exact h.terminateTask tid
      · unfold taken
        rw [← hstep, hforker]
        exact List.Perm.refl _
    | _ => simp [hforker] at hstep
  | gather pid tid =>
    have hstep := Option.some.inj hstep
    refine ⟨ls, ?_, ?_, fun t ht ↦ ht⟩
    · rw [← hstep]
      exact h.terminateTask tid
    · unfold taken
      rw [← hstep]

theorem pool_keeps (h : e.Inv ls events) {action : EngineAction UInt32 Nat} {ok : Prop}
    {engine : Engine UInt32 Nat} (hpool : onPool action = true)
    (hengine : e.engine.step A getInstanceID action = some engine) :
    Keeps ok e ls events { e with engine } := by
  rcases onPool_spec h.pool hpool hengine with ⟨ls', hholds, hperm, hpending⟩
  refine ⟨ls', events, ⟨⟨hholds, h.retrier, ?_, h.retrying, h.cancelling, h.requested⟩, h.sound⟩,
    Subsides.of_instances rfl, ?_⟩
  · exact h.queued.subperm (subperm_map _ hperm.subperm)
  · intro _ hswept
    apply hswept.mono
    · rfl
    · exact fun k rest hf ↦ ⟨rest, hf⟩
    · exact fun x hx ↦ .inl hx
    · exact fun t ht ↦ .inl (hpending t ht)

/-- The forker is done with the task that it has taken. -/
theorem step_taskExecute {engine engine' : Engine UInt32 Nat} {j tid : Nat} {t : Task UInt32 Nat}
    {known : Bool} {fork : Option Nat} (hforker : engine.forker = .registered j t tid)
    (hstep : engine.step A getInstanceID (.taskExecute known fork) = some engine') :
    engine'.pool = engine.pool ∧ engine'.forker.task? = none := by
  unfold Engine.step at hstep
  simp only [hforker] at hstep
  cases hresult : taskExecuteResult
      (engine.isCancelling (getInstanceID t.workflowInstance)) known fork with
  | none =>
    simp only [hresult, Option.some.injEq] at hstep
    rw [← hstep]
    exact ⟨rfl, rfl⟩
  | some pid =>
    simp only [hresult, Option.some.injEq] at hstep
    rw [← hstep]
    exact ⟨rfl, rfl⟩

/-- The entry that the forker has taken is used up, and its task is executed or aborted. -/
theorem taskExecute_keeps (h : e.Inv ls events) {env : Environment Node} {ok : Prop}
    {j tid : Nat} {t : Task UInt32 Nat} {engine : Engine UInt32 Nat} {known : Bool} {fork : Option Nat}
    (hforker : e.engine.forker = .registered j t tid)
    (hengine : e.engine.step A getInstanceID (.taskExecute known fork) = some engine)
    (hcalls : Calls e { e.unqueue t.workflowInstance t.task with engine } t.workflowInstance
      (fun s ↦ s.taskExecute (e.environment env) t.task) i
      { i with workflow := { i.workflow with queued := i.workflow.queued.erase t.task } } e') :
    Keeps ok e ls events e' := by
  have hi := hcalls.found
  have hspec := step_taskExecute hforker hengine
  have hentered : e.entered ls =
      (t.workflowInstance, t.task) :: ({ e with engine } : CancellingEngine Node).entered ls := by
    unfold entered
    rw [hforker, hspec.2]
    rfl
  have hqueued := h.queued
  rw [hentered] at hqueued
  have hmem : t.task ∈ i.workflow.queued := by
    have hin := hqueued.mem List.mem_cons_self
    rw [slot_some hi] at hin
    exact hin
  have hinstances := hcalls.taken
  have haccounts :
      ({ e.unqueue t.workflowInstance t.task with engine } : CancellingEngine Node).Accounts
        ls events := by
    constructor
    case pool =>
      show engine.pool.Holds ls
      rw [hspec.1]
      exact h.pool
    case retrier => exact h.retrier
    case queued =>
      rw [slot_update hinstances _ rfl, slot_replace hi hinstances _ rfl]
      have harrive := hqueued.arrive
      rw [slot_some hi] at harrive
      exact harrive
    case retrying =>
      rw [slot_replace hi hinstances _ rfl, slot_replace hi hinstances _ rfl]
      exact h.retrying
    case cancelling => exact forall_update hinstances h.cancelling (h.cancelling _ i hi)
    case requested =>
      exact requested_update hinstances h.requested rfl (forall_instance hi fun hflag ↦ hflag)
  have hsound := h.sound _ i hi
  have hstarted : i.started = true := hsound.started (.inl (List.ne_nil_of_mem hmem))
  have hkept := h.call hcalls haccounts hstarted ⟨rfl, rfl, rfl⟩
    (WorkflowInstance.extends_taskExecute _ _ _) (WorkflowInstance.taskExecute_inv _ hsound.view hmem)
    (WorkflowInstance.subsides_taskExecute _ _)
  have hsame := call_same hcalls.call
  exact ⟨ls, events, hkept.1, hkept.2, fun _ hswept ↦ hswept.of_same hsame.1 hsame.2⟩

/-! ## The gatherer and the retrier -/

theorem taskStop_keeps (h : e.Inv ls events) {task : Nat} {env : Environment Node} {retval : Int}
    {output : String} {ok : Prop} {t : TaskNode Node} (hfind : i.workflow.doc.task? task = some t)
    (hstatus : t.status = some .executing)
    (hcalls : Calls e e id (fun s ↦ s.taskStop (e.environment env) task retval output) i i e') :
    Keeps ok e ls events e' := by
  have hsound := h.sound id i hcalls.found
  have hstarted : i.started = true := by
    apply hsound.started
    refine .inr (.inr ⟨t, List.mem_of_find?_eq_some hfind, ?_⟩)
    rw [hstatus]
    exact nofun
  have hkept := h.call hcalls h.toAccounts hstarted ⟨rfl, rfl, rfl⟩
    (WorkflowInstance.extends_taskStop _ _ _ _ _)
    (WorkflowInstance.taskStop_inv _ hsound.view hfind hstatus retval output)
    (WorkflowInstance.subsides_taskStop _ hsound.view hfind hstatus retval output)
  have hsame := call_same hcalls.call
  exact ⟨ls, events, hkept.1, hkept.2, fun _ hswept ↦ hswept.of_same hsame.1 hsame.2⟩

/-- `event_removed`: an event that was handed out is used up, and its task is queued or aborted.  The
state before the call is that behind `shift_event`, or that in `Flush`, without the event. -/
theorem eventRemoved_keeps (h : e.Inv ls events) {t : TimedTask} {env : Environment Node}
    (hcalls : Calls e (e₁.unretry t.workflowInstance t.task) t.workflowInstance
      (fun s ↦ s.taskRestart (e.environment env) t.task) i
      { i with workflow := { i.workflow with retrier := i.workflow.retrier.erase t.task } } e')
    (hsame : e₁.engine = e.engine ∧ e₁.retrier = e.retrier ∧ e₁.requests = e.requests)
    (hawaited : (e.awaited events).Perm ((t.workflowInstance, t.task) :: e₁.awaited events)) :
    e'.Inv ls events ∧ Subsides e e' ∧ e'.requests = e.requests ∧ e'.flush = e₁.flush := by
  rcases hsame with ⟨hengine, hretrier, hrequests⟩
  have hi := hcalls.found
  have hinstances := hcalls.taken
  have hretrying := h.retrying.subperm hawaited.symm.subperm
  have hmem := hretrying.mem List.mem_cons_self
  rw [slot_some hi] at hmem
  have haccounts : (e₁.unretry t.workflowInstance t.task).Accounts ls events := by
    constructor
    case pool =>
      show e₁.engine.pool.Holds ls
      rw [hengine]
      exact h.pool
    case retrier =>
      show e₁.retrier.Inv events
      rw [hretrier]
      exact h.retrier
    case queued =>
      rw [slot_replace hi hinstances _ rfl, slot_replace hi hinstances _ rfl]
      have hentered : (e₁.unretry t.workflowInstance t.task).entered ls = e.entered ls := by
        unfold entered
        show List.map _ ((e₁.engine.forker.task?.map _).toList ++ _) = _
        rw [hengine]
      rw [hentered]
      exact h.queued
    case retrying =>
      rw [slot_update hinstances _ rfl, slot_replace hi hinstances _ rfl]
      have harrive := hretrying.arrive
      rw [slot_some hi] at harrive
      exact harrive
    case cancelling => exact forall_update hinstances h.cancelling (h.cancelling _ i hi)
    case requested =>
      exact requested_update hinstances h.requested hrequests (forall_instance hi fun hflag ↦ hflag)
  have hsound := h.sound _ i hi
  have hstarted : i.started = true := hsound.started (.inr (.inl (List.ne_nil_of_mem hmem)))
  have hsubsides (hcancel : i.workflow.isCancelling = true) : WorkflowInstance.Subsides i.workflow
      ({ i.workflow with retrier := i.workflow.retrier.erase t.task }.taskRestart
        (e.environment env) t.task).1 :=
    WorkflowInstance.subsides_enqueueTask (s := { i.workflow with
      retrier := i.workflow.retrier.erase t.task }) _ t.task hcancel
  have hkept := h.call hcalls haccounts hstarted ⟨rfl, rfl, rfl⟩
    (WorkflowInstance.extends_taskRestart _ _ _) (WorkflowInstance.taskRestart_inv _ hsound.view hmem)
    hsubsides
  have hsame := call_same hcalls.call
  exact ⟨hkept.1, hkept.2, hsame.1.trans hrequests, hsame.2⟩

theorem handedOut_eq {s s' : Scheduling TimedTask} {found : List (TimedEvent TimedTask)}
    (h : s'.handed = s.handed ++ found) : handedOut s s' = found.map TimedEvent.content := by
  unfold handedOut
  rw [h, List.drop_left]

theorem shiftEvent_keeps (h : e.Inv ls events) {currTime : Int} {ok : Prop}
    {retrier : Scheduling TimedTask}
    (hretrier : e.retrier.step B (.shiftEvent currTime) = some retrier) :
    Keeps ok e ls events { e with
      retrier
      shifted := e.shifted ++ handedOut e.retrier retrier } := by
  rcases Scheduling.shiftEvent_inv B h.retrier currTime with ⟨s', found, rest, hs', hinv, hhanded, hevents⟩
  rw [hretrier, Option.some.injEq] at hs'
  subst hs'
  refine ⟨ls, rest, ⟨⟨h.pool, hinv, h.queued, ?_, h.cancelling, h.requested⟩, h.sound⟩,
    Subsides.of_instances rfl, ?_⟩
  · show Accounted _ _ ((e.flushing ++ (e.shifted ++ handedOut e.retrier retrier) ++
      rest.map TimedEvent.content).map _)
    rw [handedOut_eq hhanded, ← List.append_assoc, List.append_assoc (e.flushing ++ e.shifted),
      ← List.map_append, ← hevents]
    exact h.retrying
  · intro _ hswept
    apply hswept.mono
    · rfl
    · exact fun k rest hf ↦ ⟨rest, hf⟩
    · intro x hx
      rw [hevents]
      exact .inl (List.mem_append_right _ hx)
    · exact fun t ht ↦ .inl ht

theorem alarm_keeps (h : e.Inv ls events) {t : TimedTask} {env : Environment Node} {ok : Prop}
    (hin : t ∈ e.shifted)
    (hcalls : Calls e (unretry { e with shifted := e.shifted.erase t } t.workflowInstance t.task)
      t.workflowInstance (fun s ↦ s.taskRestart (e.environment env) t.task) i
      { i with workflow := { i.workflow with retrier := i.workflow.retrier.erase t.task } } e') :
    Keeps ok e ls events e' := by
  have hperm : (e.flushing ++ e.shifted ++ events.map TimedEvent.content).Perm
      (t :: (e.flushing ++ e.shifted.erase t ++ events.map TimedEvent.content)) := by
    rw [List.append_assoc, List.append_assoc]
    apply List.Perm.trans _ List.perm_middle
    exact ((List.perm_cons_erase hin).append_right _).append_left _
  have hawaited : (e.awaited events).Perm ((t.workflowInstance, t.task) ::
      ({ e with shifted := e.shifted.erase t } : CancellingEngine Node).awaited events) :=
    hperm.map _
  have hkept := eventRemoved_keeps h hcalls ⟨rfl, rfl, rfl⟩ hawaited
  exact ⟨ls, events, hkept.1, hkept.2.1, fun _ hswept ↦ hswept.of_same hkept.2.2.1 hkept.2.2.2⟩

end CancellingEngine

end EvQueue
