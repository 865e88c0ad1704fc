import EvQueue.EngineCancelSteps

/-!
# EngineCancelRuns — a cancelled instance comes to rest

The steps of a cancel request, and from all steps together what holds along every run: whatever the other
threads do, an instance stays cancelled, and what a completed request has swept away stays away.
-/

namespace EvQueue

open Cells Runs

variable {Node : Type}

namespace CancellingEngine

variable {e e₁ e' : CancellingEngine Node} {id : UInt32} {i : ActiveInstance Node}
variable {ls ls' : List (QueuePool.Cells UInt32 Nat)} {events events' : List (TimedEvent TimedTask)}
variable {A : Allocator (Task UInt32 Nat)} {B : Allocator (TimedEvent TimedTask)}

/-! ## The cancel request -/

theorem mem_advance {k : Nat} {stage : CancelStage} {r' : CancelRequest} (hr : r' ∈ e.advance k stage) :
    r' ∈ e.requests ∨ ∃ r, e.requests[k]? = some r ∧ r' = { r with stage } := by
  unfold advance at hr
  rcases List.mem_iff_getElem?.mp hr with ⟨j, hj⟩
  rw [List.getElem?_modify] at hj
  rcases Option.map_eq_some_iff.mp hj with ⟨r, hr, heq⟩
  by_cases hjk : k = j
  · rw [if_pos hjk] at heq
    exact .inr ⟨r, hjk ▸ hr, heq.symm⟩
  · rw [if_neg hjk] at heq
    rw [← heq]
    exact .inl (List.mem_of_getElem? hr)

/-- A property of all requests, when one moves on. -/
theorem forall_advance {k : Nat} {stage : CancelStage} {P : CancelRequest → Prop}
    (h : ∀ r ∈ e.requests, P r) (hnew : ∀ r, e.requests[k]? = some r → P { r with stage }) :
    ∀ r ∈ e.advance k stage, P r := by
  intro r' hr'
  rcases mem_advance hr' with hold | ⟨r, hr, heq⟩
  · exact h r' hold
  · rw [heq]
    exact hnew r hr

/-- A request that is not completed moves on. -/
theorem mem_advance_completed {k : Nat} {stage : CancelStage} {r r' : CancelRequest}
    (hr : e.requests[k]? = some r) (hstage : r.stage ≠ .completed) (hr' : r' ∈ e.requests)
    (hcompleted : r'.stage = .completed) : r' ∈ e.advance k stage := by
  rcases List.mem_iff_getElem?.mp hr' with ⟨j, hj⟩
  apply List.mem_iff_getElem?.mpr
  refine ⟨j, ?_⟩
  unfold advance
  rw [List.getElem?_modify, hj]
  by_cases hjk : k = j
  · rw [← hjk, hr, Option.some.injEq] at hj
    rw [hj] at hstage
    exact absurd hcompleted hstage
  · simp [hjk]

theorem getElem?_advance {k j : Nat} {stage : CancelStage} {r : CancelRequest}
    (hr : e.requests[j]? = some r) (hjk : k ≠ j) : (e.advance k stage)[j]? = some r := by
  unfold advance
  rw [List.getElem?_modify, hr]
  simp [hjk]

theorem requested_advance {k : Nat} {stage : CancelStage} (h : e.Inv ls events) :
    ∀ r ∈ e.advance k stage, ∃ i, e.instances r.workflowInstanceId = some i ∧
      i.workflow.isCancelling = true :=
  forall_advance h.requested fun r hr ↦ h.requested r (List.mem_of_getElem? hr)

/-- Nobody is in a call of the instance when the flag is set. -/
theorem cancel_keeps (h : e.Inv ls events) {ok : Prop} (hi : e.instances id = some i)
    (hidle : i.idle = true) :
    Keeps ok e ls events
      { e.setInstance id { i with workflow := i.workflow.cancel } with
        engine := { e.engine with isCancelling := Function.update e.engine.isCancelling id true }
        requests := e.requests ++ [⟨id, .cancelled⟩] } := by
  generalize hstep : ({ e.setInstance id { i with workflow := i.workflow.cancel } with
    engine := { e.engine with isCancelling := Function.update e.engine.isCancelling id true }
    requests := e.requests ++ [⟨id, .cancelled⟩] } : CancellingEngine Node) = e'
  have hinstances : e'.instances =
      Function.update e.instances id (some { i with workflow := i.workflow.cancel }) := by
    rw [← hstep]
    rfl
  -- only the flag of the instance changes, and no count depends on it
  have haccounts : (e.setInstance id { i with workflow := i.workflow.cancel }).Accounts ls events :=
    h.toAccounts.replace hi rfl ⟨rfl, rfl, rfl, rfl⟩ (fun _ ↦ hidle) (fun _ ↦ rfl) ⟨rfl, rfl⟩
      ⟨rfl, rfl, rfl⟩ rfl
  have hsound := h.sound id i hi
  refine ⟨ls, events, ⟨⟨?_, ?_, ?_, ?_, ?_, ?_⟩, ?_⟩, ?_, ?_⟩
  · rw [← hstep]
    exact haccounts.pool
  · rw [← hstep]
    exact haccounts.retrier
  · rw [← hstep]
    exact haccounts.queued
  · rw [← hstep]
    exact haccounts.retrying
  · exact forall_update hinstances h.cancelling fun _ ↦ hidle
  · intro r hr
    rw [← hstep] at hr
    rcases List.mem_append.mp hr with hold | hnew
    · rw [← hstep]
      exact haccounts.requested r hold
    · rw [List.mem_singleton.mp hnew, hinstances]
      exact ⟨_, Function.update_self _ _ _, rfl⟩
  · apply forall_update hinstances h.sound
    refine ⟨hsound.view, ?_⟩
    intro hnot
    rcases hsound.fresh hnot with ⟨doc, isCancelling, hdoc, hworkflow⟩
    refine ⟨doc, true, hdoc, ?_⟩
    show i.workflow.cancel = _
    rw [hworkflow]
    rfl
  · apply Subsides.setInstance hinstances
    exact forall_instance hi
      fun _ ↦ ⟨rfl, WorkflowInstance.Subsides.refl _, Int.le_refl _, Int.le_refl _⟩
  · -- the new request is at its first stage: it promises nothing of the queues yet
    intro _ hswept
    rw [← hstep]
    refine ⟨?_, fun r hr _ ↦ List.mem_append_left _ hr⟩
    constructor
    case flushing =>
      intro k rest hf
      rcases hswept.flushing k rest hf with ⟨r, hr, hnone⟩
      have hk := (List.getElem?_eq_some_iff.mp hr).1
      exact ⟨r, (List.getElem?_append_left hk).trans hr, hnone⟩
    case flushed =>
      intro r hr hstage
      rcases List.mem_append.mp hr with hold | hnew
      · exact hswept.flushed r hold hstage
      · rw [List.mem_singleton.mp hnew] at hstage
        exact absurd rfl hstage
    case completed =>
      intro r hr hstage
      rcases List.mem_append.mp hr with hold | hnew
      · exact hswept.completed r hold hstage
      · rw [List.mem_singleton.mp hnew] at hstage
        cases hstage

/-- The retrier behind `Flush`: what it kept, and how that was chosen if the counter is right. -/
theorem flush_spec (h : e.Inv ls events) {filter : Option (TimedEvent TimedTask → Bool)}
    {retrier : Scheduling TimedTask} (hstep : e.retrier.step B (.flush filter) = some retrier) :
    ∃ kept, retrier.Inv kept ∧
      (handedOut e.retrier retrier ++ kept.map TimedEvent.content).Perm
        (events.map TimedEvent.content) ∧ kept.Sublist events ∧
      ((e.retrier.scheduler.numberOfEvents = 0 → e.retrier.scheduler.firstEvent = none) →
        ∀ x ∈ kept, Scheduler.passes filter x = false) := by
  rcases Scheduling.flush_inv B h.retrier filter with
    ⟨s', removed, kept, hs', hinv, hhanded, hperm, hsub, hkept⟩
  rw [hstep, Option.some.injEq] at hs'
  subst hs'
  refine ⟨kept, hinv, ?_, hsub, ?_⟩
  · rw [handedOut_eq hhanded, ← List.map_append]
    exact hperm.map _
  · intro hguard x hx
    by_cases hzero : events.length % 2 ^ 32 = 0
    · -- the counter is 0, and the list is empty
      have hcount : e.retrier.scheduler.numberOfEvents = 0 := by
        rw [h.retrier.count]
        exact Scheduling.ofNat_eq_zero_iff.mpr hzero
      have hempty := h.retrier.holds.nil_iff.mp (hguard hcount)
      have hin := hsub.subset hx
      rw [hempty] at hin
      cases hin
    · rw [hkept hzero] at hx
      simpa using (List.mem_filter.mp hx).2

/-- Nothing was left to be removed before. -/
theorem awaited_flush (hflush : e.flush = none) {kept : List (TimedEvent TimedTask)}
    {retrier : Scheduling TimedTask}
    (hperm : (handedOut e.retrier retrier ++ kept.map TimedEvent.content).Perm
      (events.map TimedEvent.content)) :
    ((handedOut e.retrier retrier ++ e.shifted ++ kept.map TimedEvent.content).map
      fun t ↦ (t.workflowInstance, t.task)).Perm (e.awaited events) := by
  have hnone : e.flushing = [] := by
    unfold flushing
    rw [hflush]
    rfl
  unfold awaited
  rw [hnone, List.nil_append]
  apply List.Perm.map
  apply ((List.perm_append_comm).append_right _).trans
  rw [List.append_assoc]
  exact hperm.append_left _

theorem flushAll_keeps (h : e.Inv ls events) {ok : Prop} {retrier : Scheduling TimedTask}
    (hflush : e.flush = none) (hretrier : e.retrier.step B (.flush none) = some retrier) :
    Keeps ok e ls events { e with
      retrier
      flush := some (none, handedOut e.retrier retrier) } := by
  rcases flush_spec h hretrier with ⟨kept, hinv, hperm, hsub, -⟩
  refine ⟨ls, kept, ⟨⟨h.pool, hinv, h.queued, ?_, h.cancelling, h.requested⟩, h.sound⟩,
    Subsides.of_instances rfl, ?_⟩
  · exact h.retrying.subperm (awaited_flush hflush hperm).subperm
  · intro _ hswept
    apply hswept.mono
    · rfl
    · exact nofun
    · exact fun x hx ↦ .inl (hsub.subset hx)
    · exact fun t ht ↦ .inl ht

theorem flush_keeps (h : e.Inv ls events) {k : Nat} {retrier : Scheduling TimedTask}
    (hflush : e.flush = none) (hrequest : e.requests[k]? = some ⟨id, .cancelled⟩)
    (hretrier : e.retrier.step B (.flush (some (ofInstance id))) = some retrier) :
    Keeps (Guarded e (.flush (some k))) e ls events { e with
      retrier
      flush := some (some k, handedOut e.retrier retrier) } := by
  rcases flush_spec h hretrier with ⟨kept, hinv, hperm, hsub, hpasses⟩
  refine ⟨ls, kept, ⟨⟨h.pool, hinv, h.queued, ?_, h.cancelling, h.requested⟩, h.sound⟩,
    Subsides.of_instances rfl, ?_⟩
  · exact h.retrying.subperm (awaited_flush hflush hperm).subperm
  · intro hguard hswept
    refine ⟨?_, fun r hr _ ↦ hr⟩
    constructor
    case flushing =>
      intro j rest hf
      have hj : k = j := (Option.some.inj (Prod.mk.inj (Option.some.inj hf)).1)
      refine ⟨⟨id, .cancelled⟩, hj ▸ hrequest, rfl, ?_⟩
      intro x hx
      have hno := hpasses hguard x hx
      unfold Scheduler.passes ofInstance at hno
      simpa using hno
    case flushed =>
      exact fun r hr hstage x hx ↦ hswept.flushed r hr hstage x (hsub.subset hx)
    case completed => exact hswept.completed

theorem removed_keeps (h : e.Inv ls events) {env : Environment Node} {ok : Prop}
    {request : Option Nat} {t : TimedTask} {rest : List TimedTask}
    (hflush : e.flush = some (request, t :: rest))
    (hcalls : Calls e (unretry { e with flush := some (request, rest) } t.workflowInstance t.task)
      t.workflowInstance (fun s ↦ s.taskRestart (e.environment env) t.task) i
      { i with workflow := { i.workflow with retrier := i.workflow.retrier.erase t.task } } e') :
    Keeps ok e ls events e' := by
  have hawaited : (e.awaited events).Perm ((t.workflowInstance, t.task) ::
      ({ e with flush := some (request, rest) } : CancellingEngine Node).awaited events) := by
    unfold awaited flushing
    rw [hflush]
    exact List.Perm.refl _
  have hkept := eventRemoved_keeps h hcalls ⟨rfl, rfl, rfl⟩ hawaited
  refine ⟨ls, events, hkept.1, hkept.2.1, ?_⟩
  intro _ hswept
  apply hswept.mono hkept.2.2.1
  · intro k rest' hf
    rw [hkept.2.2.2] at hf
    have heq := Option.some.inj hf
    rw [Prod.mk.injEq] at heq
    rw [hflush, heq.1]
    exact ⟨t :: rest, rfl⟩
  · exact fun x hx ↦ .inl hx
  · exact fun t ht ↦ .inl ht

/-- Nothing is left to be removed. -/
theorem awaited_flushEnd {request : Option Nat} (hflush : e.flush = some (request, [])) :
    e.awaited events = (e.shifted ++ events.map TimedEvent.content).map
      fun t ↦ (t.workflowInstance, t.task) := by
  unfold awaited flushing
  rw [hflush]
  rfl

theorem flushAllEnd_keeps (h : e.Inv ls events) {ok : Prop} (hflush : e.flush = some (none, [])) :
    Keeps ok e ls events { e with flush := none } := by
  have hretrying := h.retrying
  rw [awaited_flushEnd hflush] at hretrying
  refine ⟨ls, events, ⟨⟨h.pool, h.retrier, h.queued, hretrying, h.cancelling, h.requested⟩,
    h.sound⟩, Subsides.of_instances rfl, ?_⟩
  intro _ hswept
  apply hswept.mono
  · rfl
  · exact nofun
  · exact fun x hx ↦ .inl hx
  · exact fun t ht ↦ .inl ht

theorem flushEnd_keeps (h : e.Inv ls events) {k : Nat} {ok : Prop}
    (hflush : e.flush = some (some k, [])) :
    Keeps ok e ls events { e with
      flush := none
      requests := e.advance k .flushed } := by
  have hretrying := h.retrying
  rw [awaited_flushEnd hflush] at hretrying
  refine ⟨ls, events, ⟨⟨h.pool, h.retrier, h.queued, hretrying, h.cancelling,
    requested_advance h⟩, h.sound⟩, Subsides.of_instances rfl, ?_⟩
  intro _ hswept
  rcases hswept.flushing k [] hflush with ⟨r, hr, hstage, hnone⟩
  have hnot : r.stage ≠ .completed := by
    rw [hstage]
    exact nofun
  refine ⟨?_, fun r' hr' ↦ mem_advance_completed hr hnot hr'⟩
  constructor
  case flushing => exact nofun
  case flushed =>
    apply forall_advance hswept.flushed
    intro r₁ hr₁ _
    rw [hr, Option.some.injEq] at hr₁
    rw [← hr₁]
    exact hnone
  case completed =>
    -- the request is only flushed
    apply forall_advance hswept.completed
    exact fun _ _ hstage ↦ absurd hstage nofun

theorem cancelTasks_keeps (h : e.Inv ls events) {k : Nat} {ok : Prop} {engine : Engine UInt32 Nat}
    (hrequest : e.requests[k]? = some ⟨id, .flushed⟩)
    (hengine : e.engine.step A getInstanceID (.cancelTasks id) = some engine) :
    Keeps ok e ls events { e with
      engine
      requests := e.advance k .completed } := by
  unfold Engine.step at hengine
  dsimp only at hengine
  split at hengine
  · rcases Option.map_eq_some_iff.mp hengine with ⟨pool, hpool, heq'⟩
    rcases h.pool.cancelTasks hpool with ⟨ls', hholds, hperm, hpending⟩
    subst heq'
    refine ⟨ls', events, ⟨⟨hholds, h.retrier, ?_, h.retrying, h.cancelling,
      requested_advance h⟩, h.sound⟩, Subsides.of_instances rfl, ?_⟩
    · exact h.queued.subperm (subperm_map _ (hperm.append_left _).subperm)
    · intro _ hswept
      refine ⟨?_, fun r' hr' ↦ mem_advance_completed hrequest (by simp) hr'⟩
      constructor
      case flushing =>
        intro j rest hf
        rcases hswept.flushing j rest hf with ⟨r, hr, hstage, hnone⟩
        refine ⟨r, getElem?_advance hr ?_, hstage, hnone⟩
        -- the flushing request is not the flushed one
        intro hjk
        rw [← hjk, hrequest, Option.some.injEq] at hr
        rw [← hr] at hstage
        cases hstage
      case flushed =>
        apply forall_advance hswept.flushed
        intro r hr _
        rw [hrequest, Option.some.injEq] at hr
        rw [← hr]
        have hold := hswept.flushed ⟨id, .flushed⟩ (List.mem_of_getElem? hrequest) (by simp)
        exact hold
      case completed =>
        -- what `CancelTasks` leaves is not of the instance
        apply forall_advance
        · exact fun r hr hstage t ht ↦ hswept.completed r hr hstage t (hpending t ht).1
        · intro r hr _ t ht
          rw [hrequest, Option.some.injEq] at hr
          rw [← hr]
          exact (hpending t ht).2
  · cases hengine

theorem remove_keeps (h : e.Inv ls events) {ok : Prop} (hi : e.instances id = some i) :
    Keeps ok e ls events (e.setInstance id { i with registered := false }) := by
  have haccounts : (e.setInstance id { i with registered := false }).Accounts ls events :=
    h.toAccounts.replace hi rfl ⟨rfl, rfl, rfl, rfl⟩ (h.cancelling id i hi) (fun hc ↦ hc) ⟨rfl, rfl⟩
      ⟨rfl, rfl, rfl⟩ rfl
  refine ⟨ls, events, ⟨haccounts, forall_update rfl h.sound ?_⟩, Subsides.setInstance rfl ?_, ?_⟩
  · exact ⟨(h.sound id i hi).view, (h.sound id i hi).fresh⟩
  · exact forall_instance hi
      fun hcancel ↦ ⟨hcancel, WorkflowInstance.Subsides.refl _, Int.le_refl _, Int.le_refl _⟩
  · exact fun _ hswept ↦ hswept.of_same rfl rfl

/-! ## Runs -/

theorem step_keeps (h : e.Inv ls events) {action : CancelAction Node} (hproper : Proper action)
    (hstep : e.step A B action = some e') : Keeps (Guarded e action) e ls events e' := by
  cases steps_of_step hstep with
  | construct hnone => exact construct_keeps h hproper hnone
  | start hnot hcalls => exact start_keeps h hnot hcalls
  | resume hnone => exact resume_keeps h hproper.1 hproper.2 hnone
  | enqueueTask hi henqueuing hengine => exact enqueueTask_keeps h hi henqueuing hengine
  | insertTask _ hi hinserting hretrier => exact insertTask_keeps h hi hinserting hretrier
  | pool hpool hengine => exact pool_keeps h hpool hengine
  | taskExecute hforker _ hengine hcalls => exact taskExecute_keeps h hforker hengine hcalls
  | taskStop _ hfind hstatus hcalls => exact taskStop_keeps h hfind hstatus hcalls
  | shiftEvent _ hretrier => exact shiftEvent_keeps h hretrier
  | alarm hin _ hcalls => exact alarm_keeps h hin hcalls
  | cancel hi _ hidle => exact cancel_keeps h hi hidle
  | flushAll hflush hretrier => exact flushAll_keeps h hflush hretrier
  | flush hflush hrequest hretrier => exact flush_keeps h hflush hrequest hretrier
  | removed hflush _ hcalls => exact removed_keeps h hflush hcalls
  | flushAllEnd hflush => exact flushAllEnd_keeps h hflush
  | flushEnd hflush => exact flushEnd_keeps h hflush
  | cancelTasks hrequest hengine => exact cancelTasks_keeps h hrequest hengine
  | remove hi => exact remove_keeps h hi

theorem run_keeps (h : e.Inv ls events) {actions : List (CancelAction Node)}
    (hproper : ∀ a ∈ actions, Proper a) (hrun : run (step A B) e actions = some e') :
    Keeps (Meets (step A B) Guarded e actions) e ls events e' := by
  induction actions generalizing e ls events with
  | nil =>
    rw [run_nil, Option.some.injEq] at hrun
    rw [← hrun]
    exact ⟨ls, events, h, Subsides.refl e, fun _ hswept ↦ ⟨hswept, fun r hr _ ↦ hr⟩⟩
  | cons action actions ih =>
    rcases run_cons_eq_some hrun with ⟨e₁, hstep, hrest⟩
    rcases step_keeps h (hproper action List.mem_cons_self) hstep with
      ⟨ls₁, events₁, hinv₁, hsub₁, hswept₁⟩
    rcases ih hinv₁ (fun a ha ↦ hproper a (List.mem_cons_of_mem _ ha)) hrest with
      ⟨ls', events', hinv', hsub', hswept'⟩
    refine ⟨ls', events', hinv', hsub₁.trans hsub', ?_⟩
    intro hok hswept
    have hfirst := hswept₁ hok.1 hswept
    have hlater := hswept' (hok.2 e₁ hstep) hfirst.1
    refine ⟨hlater.1, fun r hr hstage ↦ ?_⟩
    exact hlater.2 r (hfirst.2 r hr hstage) hstage

theorem start_inv {rows : List (String × UInt32 × UInt32)} {maxpid : Fin (2 ^ 31)}
    {pool : QueuePool UInt32 Nat} (hcreate : QueuePool.create rows maxpid = .ok pool) :
    (start Node pool).Inv (pool.queue.map fun _ ↦ ([], [])) [] where
  pool := QueuePool.holds_of_fresh (Engine.create_queue hcreate).1
  retrier := Scheduling.start_inv
  queued := by
    intro id x
    have hnone : (start Node pool).entered (pool.queue.map fun _ ↦ ([], [])) = [] := by
      show List.map _ ([] ++ QueuePool.entries _) = []
      unfold QueuePool.entries
      simp [Queue.payloads]
    rw [hnone]
    exact Nat.le_refl _
  retrying := fun _ _ ↦ Nat.le_refl _
  cancelling := nofun
  requested := nofun
  sound := nofun

theorem start_swept (pool : QueuePool UInt32 Nat) (ls : List (QueuePool.Cells UInt32 Nat)) :
    (start Node pool).Swept ls [] := ⟨nofun, nofun, nofun⟩

/-- Counters that can count what there is do not grow with what there is. -/
theorem counters_le {s s' : WorkflowInstance Node} (h : s.view.Inv 0 0) (h' : s'.view.Inv 0 0)
    (hrunning : s'.runningTally ≤ s.runningTally) (hretrying : s'.retryingTally ≤ s.retryingTally)
    (hcount : Lifetime.Countable s) :
    s'.runningTasks.toNat + s'.retryingTasks.toNat ≤ s.runningTasks.toNat + s.retryingTasks.toNat := by
  have hrun : s.runningTally = _ := h.running
  have hrun' : s'.runningTally = _ := h'.running
  have hretry : s.retryingTally = ((s.retrier.length : Nat) : Int) + 0 := h.retrying
  have hretry' : s'.retryingTally = ((s'.retrier.length : Nat) : Int) + 0 := h'.retrying
  rw [Lifetime.countP_active] at hrun hrun'
  rw [Lifetime.runningTasks_eq h, Lifetime.runningTasks_eq h', Lifetime.retryingTasks_eq h,
    Lifetime.retryingTasks_eq h']
  simp only [WorkflowInstance.toNat_ofInt]
  rcases hcount with ⟨hactive, hevents⟩
  rw [Nat.mod_eq_of_lt hactive, Nat.mod_eq_of_lt hevents, Nat.mod_eq_of_lt (by omega),
    Nat.mod_eq_of_lt (by omega)]
  omega

/-- In every run, from the moment that its flag is set, an instance stays flagged, no task of it becomes
queued or executing that was not so already, and its counters do not grow, if they could count its tasks.
If no `Flush` is misled by its counter, what is behind a completed request stays so: no event of the instance
is in the `Retrier`, and none of its entries can be reached from a `first_task`. -/
theorem cancelled_of_run (A : Allocator (Task UInt32 Nat)) (B : Allocator (TimedEvent TimedTask))
    (rows : List (String × UInt32 × UInt32)) (maxpid : Fin (2 ^ 31)) (pool : QueuePool UInt32 Nat)
    (hcreate : QueuePool.create rows maxpid = .ok pool) (actions later : List (CancelAction Node))
    (hproper : ∀ a ∈ actions ++ later, Proper a) (e e' : CancellingEngine Node)
    (hrun : run (step A B) (start Node pool) actions = some e)
    (hlater : run (step A B) e later = some e') :
    (∀ id i, e.instances id = some i → i.workflow.isCancelling = true →
      ∃ i', e'.instances id = some i' ∧ i'.workflow.isCancelling = true ∧
        WorkflowInstance.Subsides i.workflow i'.workflow ∧
        (Lifetime.Countable i.workflow →
          i'.workflow.runningTasks.toNat + i'.workflow.retryingTasks.toNat ≤
            i.workflow.runningTasks.toNat + i.workflow.retryingTasks.toNat)) ∧
    (Meets (step A B) Guarded (start Node pool) (actions ++ later) →
      ∀ r ∈ e.requests, r.stage = .completed →
        (∃ events, e'.retrier.scheduler.Holds events ∧
          ∀ x ∈ events, x.content.workflowInstance ≠ r.workflowInstanceId) ∧
        ∀ q ∈ e'.engine.pool.queue, ∃ ps, Chain q.heap q.firstTask ps ∧
          ∀ c ∈ ps, c.2.workflowInstance ≠ r.workflowInstanceId) := by
  rcases run_keeps (start_inv hcreate) (fun a ha ↦ hproper a (List.mem_append_left _ ha)) hrun with
    ⟨ls, events, hinv, -, hswept⟩
  rcases run_keeps hinv (fun a ha ↦ hproper a (List.mem_append_right _ ha)) hlater with
    ⟨ls', events', hinv', hsub, hswept'⟩
  constructor
  · intro id i hi hcancel
    rcases hsub id i hi hcancel with ⟨i', hi', hcancel', hsubsides, hrunning, hretrying⟩
    exact ⟨i', hi', hcancel', hsubsides,
      counters_le (hinv.sound id i hi).view (hinv'.sound id i' hi').view hrunning hretrying⟩
  · intro hok r hr hstage
    have hfirst := (hswept hok.prefix (start_swept pool _)).1
    have hlast := hswept' (hok.suffix hrun) hfirst
    have hr' := hlast.2 r hr hstage
    refine ⟨⟨events', hinv'.retrier.holds, ?_⟩, ?_⟩
    · exact hlast.1.flushed r hr' (by simp [hstage])
    · intro q hq
      rcases List.mem_iff_getElem?.mp hq with ⟨i, hi⟩
      rcases hinv'.pool.get hi with ⟨l, hl, hholds⟩
      refine ⟨l.1, hholds.lists.pending, ?_⟩
      intro c hc
      apply hlast.1.completed r hr' hstage
      exact QueuePool.mem_pending.mpr ⟨l, List.mem_of_getElem? hl, c, hc, rfl⟩

/-- One queue for one task. -/
def oneQueue : QueuePool UInt32 Nat where
  name := ["default"]
  queue := [Queue.fresh "default" 1 1]
  tid := fun _ ↦ none
  maxpid := ⟨8, by decide⟩
  lasttid := 0
  forkLocked := false
  forkPossible := false
  forkSignal := false
  isShuttingDown := false

/-- A task fails, and its instance is cancelled while the task waits in the `Retrier`. -/
def cancelledWaiting : List (CancelAction Unit) :=
  [.construct 7 Lifetime.retriedThenLooped, .start 7 Lifetime.twoNodes, .enqueueTask 7,
    .pool .dequeueTask, .pool .executeTask, .taskExecute Lifetime.twoNodes 100,
    .taskStop 7 2 Lifetime.twoNodes 1 "", .insertTask 7 1000, .cancel 7]

/-- The rest of the request. -/
def sweeping : List (CancelAction Unit) :=
  [.flush (some 0), .removed Lifetime.twoNodes, .flushEnd, .cancelTasks 0]

theorem cancelled_waiting : ∃ (e e' : CancellingEngine Unit) (i i' : ActiveInstance Unit),
    run (step (.bump _) (.bump _)) (start Unit oneQueue) (cancelledWaiting ++ sweeping) = some e ∧
    run (step (.bump _) (.bump _)) e [.shiftEvent 2000, .remove 7] = some e' ∧
    e.instances 7 = some i ∧ e'.instances 7 = some i' ∧
    WorkflowInstance.Subsides i.workflow i'.workflow ∧
    ∃ events, e'.retrier.scheduler.Holds events ∧ ∀ x ∈ events, x.content.workflowInstance ≠ 7 := by
  have hrequests : (run (step (.bump _) (.bump _)) (start Unit oneQueue)
      (cancelledWaiting ++ sweeping)).map requests = some [⟨7, .completed⟩] := rfl
  have hflags : (run (step (.bump _) (.bump _)) (start Unit oneQueue)
      (cancelledWaiting ++ sweeping)).map (fun e ↦
        (e.instances 7).map fun i ↦ i.workflow.isCancelling) = some (some true) := rfl
  have hcount : (run (step (.bump _) (.bump _)) (start Unit oneQueue) cancelledWaiting).map
      (fun e ↦ e.retrier.scheduler.numberOfEvents) = some 1 := rfl
  have hends : (run (step (.bump _) (.bump _)) (start Unit oneQueue)
      (cancelledWaiting ++ sweeping ++ [.shiftEvent 2000, .remove 7])).isSome = true := rfl
  rcases Option.map_eq_some_iff.mp hrequests with ⟨e, hrun, hrequests⟩
  rcases Option.isSome_iff_exists.mp hends with ⟨e', hends⟩
  rw [run_append, hrun, Option.bind_some] at hends
  rw [hrun, Option.map_some, Option.some.injEq] at hflags
  rcases Option.map_eq_some_iff.mp hflags with ⟨i, hi, hcancel⟩
  have hproper : ∀ a ∈ cancelledWaiting ++ sweeping ++ [.shiftEvent 2000, .remove 7], Proper a := by
    simp [cancelledWaiting, sweeping, Proper, Lifetime.retriedThenLooped_wellFormed]
  have hresult := cancelled_of_run (.bump _) (.bump _) [("default", 1, 1)] 8 oneQueue rfl
    (cancelledWaiting ++ sweeping) [.shiftEvent 2000, .remove 7] hproper e e' hrun hends
  rcases hresult.1 7 i hi hcancel with ⟨i', hi', -, hsub, -⟩
  have hmeets : Meets (step (.bump _) (.bump _)) Guarded (start Unit oneQueue)
      (cancelledWaiting ++ sweeping ++ [.shiftEvent 2000, .remove 7]) := by
    rw [List.append_assoc]
    apply Meets.append
    · apply Meets.of_always
      simp [cancelledWaiting, Guarded]
    · intro t ht
      rw [ht, Option.map_some, Option.some.injEq] at hcount
      refine ⟨fun hzero ↦ ?_, fun s _ ↦ Meets.of_always ?_⟩
      · -- one event is in the list, and counted
        rw [hcount] at hzero
        exact absurd hzero (by decide)
      · simp [Guarded]
  have hswept := hresult.2 hmeets ⟨7, .completed⟩ (by rw [hrequests]; exact List.mem_singleton_self _) rfl
  exact ⟨e, e', i, i', hrun, hends, hi, hi', hsub, hswept.1⟩

/-! ## A retrier that is full -/

/-- It has failed, and is to be tried once more. -/
def failedTask (id : Nat) : TaskNode Unit :=
  { id, job := 1, name := "fetch", queue := "default", loop := none, status := some .terminated,
    retval := some 1, error := none, details := none, retrySchedule := none,
    retryScheduleLevel := none, retryDelay := some 60, retryTimes := some 1, retryRetval := none,
    content := [], outputs := [] }

/-- A savepoint in which `n` tasks have failed. -/
def failedTasks (n : Nat) : WorkflowInstance Unit :=
  { WorkflowInstance.create {
      jobs :=
        [{ id := 1, parent := 0, condition := none, loop := none, status := none, details := none }]
      tasks := (List.range n).map fun x ↦ failedTask (x + 2)
      schedules := fun _ ↦ none
      nextId := n + 2 } with
    trace := [.runSubjobs 0] }

theorem mem_failedTasks {n : Nat} {t : TaskNode Unit} (ht : t ∈ (failedTasks n).doc.tasks) :
    ∃ x < n, t = failedTask (x + 2) := by
  rcases List.mem_map.mp ht with ⟨x, hx, heq⟩
  exact ⟨x, List.mem_range.mp hx, heq.symm⟩

theorem nodup_failedTasks (n : Nat) : ((failedTasks n).doc.tasks.map TaskNode.id).Nodup := by
  show (((List.range n).map fun x ↦ failedTask (x + 2)).map TaskNode.id).Nodup
  rw [List.map_map]
  exact List.nodup_range.map fun x y h ↦ Nat.add_right_cancel h

theorem failedTasks_inv (n : Nat) : (failedTasks n).view.Inv 0 0 := by
  -- every task has failed and waits for no retry, so nothing is counted and nothing is listed
  have hkeys {t : TaskKey} (ht : t ∈ (failedTasks n).view.tasks) :
      ∃ x < n, t = (failedTask (x + 2)).key := by
    rcases List.mem_map.mp ht with ⟨task, htask, heq⟩
    rcases mem_failedTasks htask with ⟨x, hx, htask⟩
    exact ⟨x, hx, by rw [← heq, htask]⟩
  constructor
  case nextId => exact Nat.succ_pos _
  case jobsNodup => exact List.nodup_singleton _
  case jobsBound =>
    intro j hj
    rw [List.mem_singleton.mp hj]
    exact ⟨Nat.one_ne_zero, by show 1 < n + 2; omega⟩
  case tasksNodup =>
    have hnodup := nodup_failedTasks n
    show (((failedTasks n).doc.tasks.map TaskNode.key).map TaskKey.id).Nodup
    rw [List.map_map]
    exact hnodup
  case tasksBound =>
    intro t ht
    rcases hkeys ht with ⟨x, hx, heq⟩
    rw [heq]
    refine ⟨?_, Nat.one_ne_zero, ?_⟩
    · show x + 2 < n + 2
      omega
    · show 1 < n + 2
      omega
  case running =>
    have hzero : (failedTasks n).view.tasks.countP TaskKey.active = 0 := by
      apply List.countP_eq_zero.mpr
      intro t ht
      rcases hkeys ht with ⟨x, -, heq⟩
      rw [heq]
      exact Bool.false_ne_true
    rw [hzero]
    rfl
  case retrying => rfl
  case queuedNodup => exact List.nodup_nil
  case queued =>
    intro id
    constructor
    · exact nofun
    · intro hin
      rcases hin with ⟨t, ht, -, hstatus⟩
      rcases hkeys ht with ⟨x, -, heq⟩
      rw [heq] at hstatus
      cases hstatus
  case retrierNodup => exact List.nodup_nil
  case retrier => exact nofun
  case launchedNodup => exact List.nodup_singleton _
  case launchedBound =>
    intro id hid
    rw [List.mem_singleton.mp hid]
    exact Nat.succ_pos _
  case launched =>
    intro id hid hne
    exact absurd (List.mem_singleton.mp hid) hne
  case dormant =>
    intro j hj hnot
    rw [List.mem_singleton.mp hj] at hnot
    exact absurd (List.mem_singleton_self _) hnot
  case ready => rfl

/-- Each of them is handed to the retrier. -/
theorem resumed_failedTasks (env : Environment Unit) {n x : Nat}
    (hx : x ∈ (failedTasks n).doc.found) :
    (failedTasks n).doc.resumed env x = .retried .planned := by
  rcases List.mem_map.mp hx with ⟨t, ht, heq⟩
  have hin := (List.mem_filter.mp ht).1
  unfold Document.resumed
  rw [← heq, WorkflowInstance.task?_of_nodup (nodup_failedTasks n) hin]
  rcases mem_failedTasks hin with ⟨y, -, htask⟩
  rw [htask]
  rfl

theorem length_found (n : Nat) : (failedTasks n).doc.found.length = n := by
  unfold Document.found
  have hall : (failedTasks n).doc.tasks.filter TaskNode.resumable = (failedTasks n).doc.tasks := by
    apply List.filter_eq_self.mpr
    intro t ht
    rcases mem_failedTasks ht with ⟨x, -, heq⟩
    rw [heq]
    rfl
  rw [hall, List.length_map]
  show ((List.range n).map fun x ↦ failedTask (x + 2)).length = n
  rw [List.length_map, List.length_range]

/-- The engine while it resumes savepoints: these events are in the retrier, and nobody asks for anything. -/
structure Filled (e : CancellingEngine Unit) (events : List (TimedEvent TimedTask)) : Prop where
  retrier : e.retrier.Inv events
  engine : e.engine = .start oneQueue
  flush : e.flush = none
  requests : e.requests = []

/-- The call that holds the instance inserts one event after the other. -/
theorem run_insertTasks {e : CancellingEngine Unit} {i : ActiveInstance Unit} {xs : List Nat}
    (hi : e.instances id = some i) (hxs : i.inserting = xs) (h : e.Filled events) :
    ∃ e' events', run (step A B) e (List.replicate xs.length (.insertTask id 0)) = some e' ∧
      e'.instances = Function.update e.instances id (some { i with inserting := [] }) ∧
      e'.Filled events' ∧ events'.length = events.length + xs.length ∧ (∀ x ∈ events, x ∈ events') ∧
      ∀ y ∈ xs, ∃ x ∈ events', x.content = ⟨id, y⟩ := by
  induction xs generalizing e i events with
  | nil =>
    refine ⟨e, events, rfl, ?_, h, rfl, fun _ hx ↦ hx, nofun⟩
    rw [← hxs]
    exact (Function.update_eq_self_iff.mpr hi.symm).symm
  | cons x xs ih =>
    rcases Scheduling.insertEvent_inv B h.retrier 0 ⟨id, x⟩ with ⟨retrier, hretrier, hinv⟩
    have hperm := List.perm_orderedInsert Scheduler.earlier ⟨0, ⟨id, x⟩, e.retrier.inserted⟩ events
    have hstep : e.step A B (.insertTask id 0) =
        some { e.setInstance id { i with inserting := xs } with retrier } := by
      unfold step
      dsimp only
      rw [h.flush, if_neg (by simp), hi, Option.bind_some]
      rw [hxs]
      dsimp only
      rw [hretrier]
      rfl
    rcases ih (e := { e.setInstance id { i with inserting := xs } with retrier })
      (i := { i with inserting := xs }) (Function.update_self _ _ _) rfl
      ⟨hinv, h.engine, h.flush, h.requests⟩ with
      ⟨e', events', hrun, hinstances, hfilled, hlength, hkept, hnew⟩
    refine ⟨e', events', ?_, ?_, hfilled, ?_, ?_, ?_⟩
    · rw [List.length_cons, List.replicate_succ, run_cons, hstep]
      exact hrun
    · rw [hinstances]
      exact Function.update_idem _ _ _
    · have hmore := hperm.length_eq
      rw [List.length_cons] at hmore ⊢
      omega
    · exact fun y hy ↦ hkept y (hperm.mem_iff.mpr (List.mem_cons_of_mem _ hy))
    · intro y hy
      rcases List.mem_cons.mp hy with heq | hy
      · exact ⟨_, hkept _ (hperm.mem_iff.mpr List.mem_cons_self), by rw [heq]⟩
      · exact hnew y hy

/-- The instance waits for retries only, and nobody holds its mutex. -/
def Waits (i : ActiveInstance Unit) : Prop :=
  i.registered = true ∧ i.idle = true ∧ i.workflow.workflowEnded = false

/-- The savepoint is resumed, and all its tasks go to the retrier. -/
def resumedFailed (n : Nat) (id : UInt32) : List (CancelAction Unit) :=
  .resume id (failedTasks n) Lifetime.twoNodes (failedTasks n).doc.found (fun _ ↦ 0) ::
    List.replicate n (.insertTask id 0)

theorem run_resumedFailed {e : CancellingEngine Unit} {n : Nat} (hpos : 0 < n) (hlt : n < 2 ^ 32)
    (hnone : e.instances id = none) (h : e.Filled events) :
    ∃ (e' : CancellingEngine Unit) (i : ActiveInstance Unit) (events' : List (TimedEvent TimedTask)),
      run (step A B) e (resumedFailed n id) = some e' ∧
      e'.instances = Function.update e.instances id (some i) ∧ Waits i ∧ e'.Filled events' ∧
      events'.length = events.length + n ∧ (∀ x ∈ events, x ∈ events') ∧
      ∃ x ∈ events', x.content.workflowInstance = id := by
  have hnodup := WorkflowInstance.found_nodup (nodup_failedTasks n)
  -- no task is executing, so none is registered
  have hpool : registerTasks oneQueue id (failedTasks n).doc (failedTasks n).doc.found (fun _ ↦ 0) =
      oneQueue := by
    have hnone : ((failedTasks n).doc.found.filter fun x ↦
        ((failedTasks n).doc.task? x).any fun t ↦ t.status = some .executing) = [] := by
      apply List.filter_eq_nil_iff.mpr
      intro x _
      cases hfind : (failedTasks n).doc.task? x with
      | none => simp
      | some t =>
        rcases mem_failedTasks (List.mem_of_find?_eq_some hfind) with ⟨y, -, heq⟩
        rw [heq]
        exact Bool.false_ne_true
    unfold registerTasks
    rw [hnone]
    rfl
  generalize hafter : ((WorkflowInstance.fromSavepoint (failedTasks n).doc (failedTasks n).trace).resume
    (e.environment Lifetime.twoNodes) (failedTasks n).doc.found).1 = after
  have hloop : WorkflowInstance.Resumption (e.environment Lifetime.twoNodes)
      (failedTasks n).doc.found
      (WorkflowInstance.fromSavepoint (failedTasks n).doc (failedTasks n).trace) after := by
    rw [← hafter]
    exact WorkflowInstance.resumption_foldl hnodup rfl
  have hresumed : ∀ x ∈ (failedTasks n).doc.found,
      (WorkflowInstance.fromSavepoint (failedTasks n).doc (failedTasks n).trace).doc.resumed
        (e.environment Lifetime.twoNodes) x = .retried .planned :=
    fun x hx ↦ resumed_failedTasks (e.environment Lifetime.twoNodes) hx
  -- nothing is queued, and every task is to be retried
  have hqueued : after.queued = [] := by
    rw [hloop.queued]
    apply List.filter_eq_nil_iff.mpr
    intro x hx
    rw [hresumed x hx]
    exact Bool.false_ne_true
  have hretrier : after.retrier = (failedTasks n).doc.found := by
    rw [hloop.retrier]
    apply List.filter_eq_self.mpr
    intro x hx
    rw [hresumed x hx]
    rfl
  -- fewer than 2^32 retries are pending, so the counter is not 0
  have hended : after.workflowEnded = false := by
    have hcount : after.retryingTally = ((n : Nat) : Int) := by
      have hall : (failedTasks n).doc.found.countP (fun x ↦
          ((WorkflowInstance.fromSavepoint (failedTasks n).doc (failedTasks n).trace).doc.resumed
            (e.environment Lifetime.twoNodes) x).retrying) = n := by
        rw [List.countP_eq_length.mpr fun x hx ↦ by rw [hresumed x hx]; rfl, length_found]
      rw [hloop.retrying, hall]
      exact Int.zero_add _
    apply decide_eq_false
    intro hzero
    have hwaiting : UInt32.ofInt after.retryingTally = 0 := hzero.2
    rw [hcount, WorkflowInstance.ofInt_eq_zero_iff hlt] at hwaiting
    omega
  have hstep : e.step A B (.resume id (failedTasks n) Lifetime.twoNodes
      (failedTasks n).doc.found fun _ ↦ 0) =
        some (e.setInstance id ⟨after, true, true, [], after.retrier⟩) := by
    have hsame : registerTasks e.engine.pool id (failedTasks n).doc (failedTasks n).doc.found
        (fun _ ↦ 0) = e.engine.pool := by
      rw [h.engine]
      exact hpool
    unfold step
    dsimp only
    rw [hnone, hsame, hafter]
    unfold ActiveInstance.handOver
    rw [hqueued]
    rfl
  rcases run_insertTasks (A := A) (B := B) (e := e.setInstance id ⟨after, true, true, [], after.retrier⟩)
    (i := ⟨after, true, true, [], after.retrier⟩) (Function.update_self _ _ _) hretrier
    ⟨h.retrier, h.engine, h.flush, h.requests⟩ with
    ⟨e', events', hrun, hinstances, hfilled, hlength, hkept, hnew⟩
  rw [length_found] at hrun hlength
  refine ⟨e', ⟨after, true, true, [], []⟩, events', ?_, ?_, ⟨rfl, rfl, hended⟩, hfilled, hlength, hkept, ?_⟩
  · unfold resumedFailed
    rw [run_cons, hstep]
    exact hrun
  · rw [hinstances]
    exact Function.update_idem _ _ _
  · have hne : (failedTasks n).doc.found ≠ [] := by
      intro hnil
      have hlength := length_found n
      rw [hnil] at hlength
      exact absurd hlength (Nat.ne_of_lt hpos)
    rcases List.exists_mem_of_ne_nil _ hne with ⟨y, hy⟩
    rcases hnew y hy with ⟨x, hx, hcontent⟩
    exact ⟨x, hx, by rw [hcontent]⟩

/-- The start of an engine that resumes `m` instances. -/
def resumedAll (n m : Nat) : List (CancelAction Unit) :=
  (List.range m).flatMap fun k ↦ resumedFailed n (.ofNat (k + 1))

theorem run_resumedAll {n m : Nat} (hpos : 0 < n) (hlt : n < 2 ^ 32) (hm : m + 1 < 2 ^ 32) :
    ∃ (e : CancellingEngine Unit) (events : List (TimedEvent TimedTask)),
      run (step A B) (start Unit oneQueue) (resumedAll n m) = some e ∧ e.Filled events ∧
      events.length = m * n ∧
      (∀ k < m, ∃ i, e.instances (.ofNat (k + 1)) = some i ∧ Waits i) ∧
      (∀ k, k + 1 < 2 ^ 32 → m ≤ k → e.instances (.ofNat (k + 1)) = none) ∧
      (0 < m → ∃ x ∈ events, x.content.workflowInstance = 1) := by
  -- instance after instance
  induction m with
  | zero =>
    exact ⟨start Unit oneQueue, [], rfl, ⟨Scheduling.start_inv, rfl, rfl, rfl⟩, (Nat.zero_mul n).symm,
      nofun, fun _ _ _ ↦ rfl, nofun⟩
  | succ m ih =>
    rcases ih (by omega) with ⟨e, events, hrun, hfilled, hlength, hwaits, hnone, hfirst⟩
    rcases run_resumedFailed (A := A) (B := B) hpos hlt (hnone m (by omega) (Nat.le_refl m)) hfilled with
      ⟨e', i, events', hrun', hinstances, hwaiting, hfilled', hlength', hkept, hnew⟩
    have hne : ∀ k, k + 1 < 2 ^ 32 → k ≠ m → UInt32.ofNat (k + 1) ≠ UInt32.ofNat (m + 1) := by
      intro k hk hkm heq
      have hsame := congrArg UInt32.toNat heq
      rw [UInt32.toNat_ofNat', UInt32.toNat_ofNat', Nat.mod_eq_of_lt hk,
        Nat.mod_eq_of_lt (by omega)] at hsame
      exact hkm (Nat.succ.inj hsame)
    refine ⟨e', events', ?_, hfilled', ?_, ?_, ?_, ?_⟩
    · unfold resumedAll
      rw [List.range_succ, List.flatMap_append, run_append]
      show (run _ _ (resumedAll n m)).bind _ = _
      rw [hrun, Option.bind_some, List.flatMap_singleton]
      exact hrun'
    · rw [hlength', hlength, Nat.succ_mul]
    · intro k hk
      rw [hinstances]
      by_cases hkm : k = m
      · rw [hkm, Function.update_self]
        exact ⟨i, rfl, hwaiting⟩
      · rw [Function.update_of_ne (hne k (by omega) hkm)]
        exact hwaits k (by omega)
    · intro k hk hle
      rw [hinstances, Function.update_of_ne (hne k hk (by omega))]
      exact hnone k hk (by omega)
    · intro _
      rcases Nat.eq_zero_or_pos m with hzero | hposm
      · rw [hzero] at hnew
        exact hnew
      · rcases hfirst hposm with ⟨x, hx, hid⟩
        exact ⟨x, hkept x hx, hid⟩

/-- A request whose `Flush` finds nothing to remove. -/
theorem run_request {retrier : Scheduling TimedTask} {engine : Engine UInt32 Nat}
    (hflush : e.flush = none) (hrequests : e.requests = [⟨id, .cancelled⟩])
    (hretrier : e.retrier.step B (.flush (some (ofInstance id))) = some retrier)
    (hhanded : handedOut e.retrier retrier = [])
    (hengine : e.engine.step A getInstanceID (.cancelTasks id) = some engine) :
    run (step A B) e [.flush (some 0), .flushEnd, .cancelTasks 0] =
      some { e with engine, retrier, flush := none, requests := [⟨id, .completed⟩] } := by
  have hfirst : e.step A B (.flush (some 0)) =
      some { e with retrier, flush := some (some 0, []) } := by
    unfold step
    dsimp only
    rw [hflush, if_neg (by simp), hrequests]
    dsimp only [List.getElem?_cons_zero]
    rw [hretrier, Option.map_some, hhanded]
  have hsecond : step A B { e with retrier, flush := some (some 0, []) } .flushEnd =
      some { e with retrier, flush := none, requests := [⟨id, .flushed⟩] } := by
    unfold step advance
    dsimp only
    rw [hrequests]
    rfl
  have hthird : step A B { e with retrier, flush := none, requests := [⟨id, .flushed⟩] }
      (.cancelTasks 0) =
        some { e with engine, retrier, flush := none, requests := [⟨id, .completed⟩] } := by
    unfold step
    dsimp only [List.getElem?_cons_zero]
    rw [hengine]
    rfl
  rw [run_cons, hfirst, Option.bind_some, run_cons, hsecond, Option.bind_some, run_cons, hthird]
  rfl

/-- A client cancels the first instance. -/
def cancelFirst : List (CancelAction Unit) := [.cancel 1, .flush (some 0), .flushEnd, .cancelTasks 0]

/-- When the number of events is a multiple of 2^32, `Flush` takes the retrier for empty. -/
theorem run_cancelledFailed {n m : Nat} (hpos : 0 < n) (hlt : n < 2 ^ 32) (hposm : 0 < m)
    (hm : m + 1 < 2 ^ 32) (hzero : m * n % 2 ^ 32 = 0) :
    ∃ e : CancellingEngine Unit,
      run (step A B) (start Unit oneQueue) (resumedAll n m ++ cancelFirst) = some e ∧
      e.requests = [⟨1, .completed⟩] ∧
      ∃ events, e.retrier.scheduler.Holds events ∧ ∃ x ∈ events, x.content.workflowInstance = 1 := by
  rcases run_resumedAll (A := A) (B := B) hpos hlt hm with
    ⟨e, events, hrun, hfilled, hlength, hwaits, -, hfirst⟩
  rcases hwaits 0 hposm with ⟨i, hi, hregistered, hidle, -⟩
  have hcount : e.retrier.scheduler.numberOfEvents = 0 := by
    rw [hfilled.retrier.count, hlength]
    exact Scheduling.ofNat_eq_zero_iff.mpr hzero
  generalize he₁ : ({ e.setInstance 1 { i with workflow := i.workflow.cancel } with
    engine := { e.engine with isCancelling := Function.update e.engine.isCancelling 1 true }
    requests := [⟨1, .cancelled⟩] } : CancellingEngine Unit) = e₁
  have hcancel : e.step A B (.cancel 1) = some e₁ := by
    have hi : e.instances 1 = some i := hi
    unfold step
    dsimp only
    rw [hi, Option.bind_some, if_pos (by rw [hregistered, hidle]; rfl), hfilled.requests, ← he₁]
    rfl
  have hretrier : e₁.retrier = e.retrier := by
    rw [← he₁]
    rfl
  have hflushed : e₁.retrier.step B (.flush (some (ofInstance 1))) =
      some { e₁.retrier with handed := e₁.retrier.handed ++ [] } := by
    unfold Scheduling.step Scheduler.flush
    dsimp only
    rw [hretrier, if_pos hcount]
    rfl
  have hengine₁ : ∃ engine, e₁.engine.step A getInstanceID (.cancelTasks 1) = some engine := by
    rw [← he₁, hfilled.engine]
    exact ⟨_, rfl⟩
  rcases hengine₁ with ⟨engine, hengine₁⟩
  have hnone : handedOut e₁.retrier { e₁.retrier with handed := e₁.retrier.handed ++ [] } = [] := by
    unfold handedOut
    rw [List.append_nil, List.drop_length]
    rfl
  have hrequest := run_request (A := A) (B := B) (e := e₁) (by rw [← he₁]; exact hfilled.flush)
    (by rw [← he₁]) hflushed hnone hengine₁
  have hall : run (step A B) (start Unit oneQueue) (resumedAll n m ++ cancelFirst) =
      run (step A B) e₁ [.flush (some 0), .flushEnd, .cancelTasks 0] := by
    unfold cancelFirst
    rw [run_append, hrun, Option.bind_some, run_cons, hcancel]
    rfl
  refine ⟨_, hall.trans hrequest, rfl, events, ?_, hfirst hposm⟩
  show e₁.retrier.scheduler.Holds events
  rw [hretrier]
  exact hfilled.retrier.holds

/-- 1024 instances, with 2^22 tasks to be retried in each of them: a request completes and leaves the tasks
of its instance in the `Retrier`. -/
theorem not_flushed_full : ∃ e : CancellingEngine Unit,
    QueuePool.create [("default", 1, 1)] 8 = .ok oneQueue ∧
      (∀ a ∈ resumedAll (2 ^ 22) 1024 ++ cancelFirst, Proper a) ∧
      run (step (.bump _) (.bump _)) (start Unit oneQueue) (resumedAll (2 ^ 22) 1024 ++ cancelFirst) =
        some e ∧
      e.requests = [⟨1, .completed⟩] ∧
      ∃ events, e.retrier.scheduler.Holds events ∧ ∃ x ∈ events, x.content.workflowInstance = 1 := by
  rcases run_cancelledFailed (A := .bump _) (B := .bump _) (Nat.two_pow_pos 22) (by decide)
    (show 0 < 1024 by decide) (by decide) (by decide) with ⟨e, hrun, hrequests, hevents⟩
  refine ⟨e, rfl, ?_, hrun, hrequests, hevents⟩
  intro a ha
  rcases List.mem_append.mp ha with ha | ha
  · rcases List.mem_flatMap.mp ha with ⟨k, -, ha⟩
    rcases List.mem_cons.mp ha with heq | ha
    · rw [heq]
      exact ⟨failedTasks_inv _, List.Perm.refl _⟩
    · rw [(List.mem_replicate.mp ha).2]
      trivial
  · simp only [cancelFirst, List.mem_cons, List.not_mem_nil, or_false] at ha
    rcases ha with heq | heq | heq | heq
    all_goals
      rw [heq]
      trivial

end CancellingEngine

end EvQueue
