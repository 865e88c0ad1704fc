import EvQueue.WorkflowInstanceRuns

/-!
# LaunchRequest — who uses an instance after `Start`, and who deletes it

The thread of a launch request constructs the instance, starts it and goes on using its pointer.  The
other threads find the instance by the tasks that they hold (in the queues, in the table of identifiers,
in the `Retrier`) or in `WorkflowInstances`, and the one whose call reports the end deletes it.
-/

namespace EvQueue

open Runs

variable {Node : Type}

/-- The next statement of `handle_connection`; `terminated` is what `Start` reported. -/
inductive Launcher where
  | start
  /-- `Logger::Log("Instanciated", wi->GetInstanceID())`. -/
  | log (terminated : Bool)
  /-- `WorkflowInstances::Wait(wi->GetInstanceID())`. -/
  | wait (terminated : Bool)
  /-- In `pthread_cond_wait`, until `WorkflowInstances::Remove`. -/
  | waiting (terminated : Bool)
  /-- `sprintf(buf, ..., wi->GetInstanceID())`. -/
  | answer (terminated : Bool)
  /-- `delete wi`: the destructor first calls `WorkflowInstances::Remove`. -/
  | delete
  | removed
  | done
deriving DecidableEq, Repr

structure LaunchRequest (Node : Type) where
  /-- The instance, and the number of calls that have reported its end. -/
  life : Lifetime Node
  launcher : Launcher
  /-- Other threads whose call has reported the end and that will delete the instance. -/
  ending : Nat
  /-- Other threads in the destructor, behind `WorkflowInstances::Remove`. -/
  removing : Nat
  registered : Bool
  freed : Bool
  /-- The object was read, called or deleted after it had been freed, or called after its end had been
  reported. -/
  misused : Bool

inductive LaunchAction (Node : Type) where
  | start (env : Environment Node)
  /-- The next statement of the launch request. -/
  | proceed
  /-- A call of the forker, the gatherer or the `Retrier`. -/
  | call (operation : Operation Node)
  /-- `CancelTasks` or the filter of `Flush` reads the id of an entry. -/
  | readId
  /-- A client cancels the instance, which it finds in `WorkflowInstances`. -/
  | cancel
  | remove
  | free

namespace LaunchRequest

/-- Behind the constructor. -/
def create (doc : Document Node) : LaunchRequest Node :=
  { life := ⟨.create doc, 0⟩
    launcher := .start
    ending := 0
    removing := 0
    registered := true
    freed := false
    misused := false }

def use (r : LaunchRequest Node) : LaunchRequest Node := { r with misused := r.misused || r.freed }

/-- One statement of `handle_connection`; `none` when it has to wait or is not its turn. -/
def proceed (synchronous : Bool) (r : LaunchRequest Node) : Option (LaunchRequest Node) :=
  match r.launcher with
  | .start => none
  | .log terminated =>
      some { r.use with launcher := if synchronous then .wait terminated else .answer terminated }
  | .wait terminated =>
      some { r.use with launcher := if r.registered then .waiting terminated else .answer terminated }
  | .waiting terminated => if r.registered then none else some { r with launcher := .answer terminated }
  | .answer terminated => some { r.use with launcher := if terminated then .delete else .done }
  | .delete => some { r.use with registered := false, launcher := .removed }
  | .removed => some { r.use with freed := true, launcher := .done }
  | .done => none

def step (synchronous : Bool) (r : LaunchRequest Node) :
    LaunchAction Node → Option (LaunchRequest Node)
  | .start env =>
      if r.launcher = .start then
        let result := r.life.workflow.start env
        some { r.use with life := r.life.after result, launcher := .log result.2 }
      else none
  | .proceed => r.proceed synchronous
  | .call .cancel => none
  | .call operation =>
      if Lifetime.offers r.life.workflow operation then
        match r.life.step operation with
        | some life =>
            some { r.use with life, ending := r.ending + (life.deleted - r.life.deleted) }
        | none => some { r with misused := true }
      else none
  | .readId =>
      if r.life.workflow.queued ≠ [] ∨ r.life.workflow.retrier ≠ [] then some r.use else none
  | .cancel =>
      if r.registered then
        some { r.use with life := { r.life with workflow := r.life.workflow.cancel } }
      else none
  | .remove =>
      if 0 < r.ending then
        some { r.use with
          ending := r.ending - 1
          removing := r.removing + 1
          registered := false }
      else none
  | .free =>
      if 0 < r.removing then
        some { r.use with
          removing := r.removing - 1
          freed := true }
      else none

/-- Another thread frees the instance only once `handle_connection` is done with it; it may remove it from
`WorkflowInstances` before.  And the counters of the instance do not wrap. -/
def Guarded (r : LaunchRequest Node) (action : LaunchAction Node) : Prop :=
  Lifetime.Countable r.life.workflow ∧ match action with
    | .free => r.launcher = .done
    | _ => True

/-! ## Who holds the report of the end -/

/-- Whether the launching thread will still delete the instance itself. -/
def owned : Launcher → Nat
  | .log true => 1
  | .wait true => 1
  | .waiting true => 1
  | .answer true => 1
  | .delete => 1
  | .removed => 1
  | _ => 0

/-- The end is reported once, and the report is with one thread until the instance is freed. -/
structure Inv (doc : Document Node) (r : LaunchRequest Node) : Prop where
  fresh : r.launcher = .start → r.life.deleted = 0 ∧
    ∃ isCancelling, r.life.workflow = { WorkflowInstance.create doc with isCancelling }
  sound : r.launcher ≠ .start → r.life.Sound
  report : r.life.deleted = owned r.launcher + r.ending + r.removing + if r.freed then 1 else 0
  removing : 0 < r.removing → r.registered = false
  removed : r.launcher = .removed → r.registered = false
  freed : r.freed = true → r.launcher = .done ∧ r.registered = false
  notMisused : r.misused = false

variable {doc : Document Node} {r r' : LaunchRequest Node} {synchronous : Bool}

theorem create_inv (doc : Document Node) : Inv doc (create doc) where
  fresh _ := ⟨rfl, false, rfl⟩
  sound h := absurd rfl h
  report := rfl
  removing := nofun
  removed := nofun
  freed := nofun
  notMisused := rfl

/-- As long as the launching thread has a statement to go, nothing is freed. -/
theorem Inv.not_freed (h : Inv doc r) (hlauncher : r.launcher ≠ .done) : r.freed = false := by
  cases hfreed : r.freed with
  | false => rfl
  | true => exact absurd (h.freed hfreed).1 hlauncher

/-- An instance that is not freed is used as it should be. -/
theorem use_eq (hfreed : r.freed = false) : r.use = r := by
  show { r with misused := r.misused || r.freed } = r
  cases r
  dsimp only at hfreed ⊢
  rw [hfreed, Bool.or_false]

theorem Inv.deleted_le (h : Inv doc r) : r.life.deleted ≤ 1 := by
  by_cases hlauncher : r.launcher = .start
  · rw [(h.fresh hlauncher).1]
    decide
  · rw [(h.sound hlauncher).deleted]
    split <;> decide

/-- A thread that is to delete the instance, or is doing so, is the only one, and nothing is freed. -/
theorem Inv.not_freed_of_ending (h : Inv doc r) (hpos : 0 < r.ending + r.removing) :
    r.freed = false := by
  have hreport := h.report
  have hle := h.deleted_le
  cases hfreed : r.freed with
  | false => rfl
  | true =>
    rw [hfreed, if_pos rfl] at hreport
    omega

/-- As long as an entry of a task is left, or an exit message is awaited, the end was not reported. -/
theorem Inv.not_freed_of_deleted (h : Inv doc r) (hdeleted : r.life.deleted = 0) : r.freed = false := by
  have hreport := h.report
  cases hfreed : r.freed with
  | false => rfl
  | true =>
    rw [hfreed, if_pos rfl] at hreport
    omega

/-- `Start`, whatever flag a client has set before. -/
theorem start_view (hdoc : doc.WellFormed) (env : Environment Node) (isCancelling : Bool) :
    ({ WorkflowInstance.create doc with isCancelling }.start env).1.view.Inv 0 0 := by
  have hcreate : View.Inv 0 0 { WorkflowInstance.create doc with isCancelling }.view :=
    WorkflowInstance.create_inv hdoc
  apply WorkflowInstance.runSubjobs_inv env hcreate
  · exact List.not_mem_nil
  · exact hdoc.nextId
  · exact fun hne ↦ absurd rfl hne

theorem start_inv (hdoc : doc.WellFormed) (h : Inv doc r) {env : Environment Node}
    (hstep : step synchronous r (.start env) = some r') : Inv doc r' := by
  unfold step at hstep
  dsimp only at hstep
  by_cases hlauncher : r.launcher = .start
  · have hfreed := h.not_freed (by rw [hlauncher]; decide)
    rw [if_pos hlauncher, Option.some.injEq, use_eq hfreed] at hstep
    rcases h.fresh hlauncher with ⟨hdeleted, isCancelling, hworkflow⟩
    have hinv : (r.life.workflow.start env).1.view.Inv 0 0 := by
      rw [hworkflow]
      exact start_view hdoc env isCancelling
    have hsound := Lifetime.after_sound hdeleted hinv rfl
    have hreport := h.report
    rw [hlauncher, hfreed, hdeleted] at hreport
    simp only [owned] at hreport
    rw [← hstep]
    constructor
    case fresh => exact nofun
    case sound => exact fun _ ↦ hsound
    case report =>
      show r.life.deleted + _ = owned (.log _) + r.ending + r.removing + if r.freed then 1 else 0
      rw [hdeleted, hfreed]
      cases (r.life.workflow.start env).2 with
      | false =>
        show 0 + 0 = 0 + r.ending + r.removing + 0
        omega
      | true =>
        show 0 + 1 = 1 + r.ending + r.removing + 0
        omega
    case removing => exact h.removing
    case removed => exact nofun
    case freed => exact fun hf ↦ absurd (hfreed.symm.trans hf) (by decide)
    case notMisused => exact h.notMisused
  · rw [if_neg hlauncher] at hstep
    cases hstep

/-- The launching thread goes on, and passes its report on. -/
theorem Inv.move (h : Inv doc r) {launcher : Launcher} {registered : Bool} (hne : r.launcher ≠ .done)
    (hstart : r.launcher ≠ .start) (hstart' : launcher ≠ .start)
    (hremoved : launcher = .removed → registered = false)
    (hregistered : registered = r.registered ∨ registered = false)
    (howned : owned launcher = owned r.launcher) : Inv doc { r with launcher, registered } := by
  have hfreed := h.not_freed hne
  constructor
  case fresh => exact fun hs ↦ absurd hs hstart'
  case sound => exact fun _ ↦ h.sound hstart
  case report =>
    show r.life.deleted = owned launcher + r.ending + r.removing + if r.freed then 1 else 0
    rw [howned]
    exact h.report
  case removing =>
    intro hpos
    rcases hregistered with heq | hfalse
    · exact heq.trans (h.removing hpos)
    · exact hfalse
  case removed => exact hremoved
  case freed => exact fun hf ↦ absurd (hfreed.symm.trans hf) (by decide)
  case notMisused => exact h.notMisused

/-- The destructor of the launching thread ends. -/
theorem Inv.free (h : Inv doc r) (hlauncher : r.launcher = .removed) :
    Inv doc { r with freed := true, launcher := .done } := by
  have hfreed := h.not_freed (by rw [hlauncher]; decide)
  have hreport := h.report
  rw [hlauncher, hfreed] at hreport
  simp only [owned] at hreport
  constructor
  case fresh => exact nofun
  case sound => exact fun _ ↦ h.sound (by rw [hlauncher]; decide)
  case report =>
    show r.life.deleted = 0 + r.ending + r.removing + 1
    rw [if_neg (by decide)] at hreport
    omega
  case removing => exact h.removing
  case removed => exact nofun
  case freed => exact fun _ ↦ ⟨rfl, h.removed hlauncher⟩
  case notMisused => exact h.notMisused

theorem proceed_inv (h : Inv doc r) (hstep : r.proceed synchronous = some r') : Inv doc r' := by
  by_cases hdone : r.launcher = .done
  · unfold proceed at hstep
    simp [hdone] at hstep
  have huse := use_eq (h.not_freed hdone)
  unfold proceed at hstep
  rw [huse] at hstep
  cases hlauncher : r.launcher with
  | start => simp [hlauncher] at hstep
  | log terminated =>
    simp only [hlauncher, Option.some.injEq] at hstep
    rw [← hstep]
    cases synchronous <;> cases terminated <;>
      exact h.move hdone (by simp [hlauncher]) (by simp) (by simp) (.inl rfl) (by rw [hlauncher]; rfl)
  | wait terminated =>
    simp only [hlauncher, Option.some.injEq] at hstep
    rw [← hstep]
    by_cases hregistered : r.registered = true
    · rw [if_pos hregistered]
      cases terminated <;>
        exact h.move hdone (by simp [hlauncher]) (by simp) (by simp) (.inl rfl) (by rw [hlauncher]; rfl)
    · rw [if_neg hregistered]
      cases terminated <;>
        exact h.move hdone (by simp [hlauncher]) (by simp) (by simp) (.inl rfl) (by rw [hlauncher]; rfl)
  | waiting terminated =>
    simp only [hlauncher] at hstep
    by_cases hregistered : r.registered = true
    · rw [if_pos hregistered] at hstep
      cases hstep
    · rw [if_neg hregistered, Option.some.injEq] at hstep
      rw [← hstep]
      cases terminated <;>
        exact h.move hdone (by simp [hlauncher]) (by simp) (by simp) (.inl rfl) (by rw [hlauncher]; rfl)
  | answer terminated =>
    simp only [hlauncher, Option.some.injEq] at hstep
    rw [← hstep]
    cases terminated <;>
      exact h.move hdone (by simp [hlauncher]) (by simp) (by simp) (.inl rfl) (by rw [hlauncher]; rfl)
  | delete =>
    simp only [hlauncher, Option.some.injEq] at hstep
    rw [← hstep]
    exact h.move hdone (by simp [hlauncher]) (by simp) (fun _ ↦ rfl) (.inr rfl) (by rw [hlauncher]; rfl)
  | removed =>
    simp only [hlauncher, Option.some.injEq] at hstep
    rw [← hstep]
    exact h.free hlauncher
  | done => exact absurd hlauncher hdone

/-! ## The other threads -/

/-- Before `Start` nobody has a task of the instance. -/
theorem offers_start (hdoc : doc.WellFormed)
    (hfresh : ∃ isCancelling, r.life.workflow = { WorkflowInstance.create doc with isCancelling })
    {operation : Operation Node} (hcancel : operation ≠ .cancel) :
    Lifetime.offers r.life.workflow operation = false := by
  rcases hfresh with ⟨isCancelling, hworkflow⟩
  rw [hworkflow]
  cases operation with
  | taskExecute env id => rfl
  | taskRestart env id => rfl
  | cancel => exact absurd rfl hcancel
  | taskStop env id retval output =>
    show ((doc.task? id).any fun task ↦ task.status = some .executing) = false
    cases hfind : doc.task? id with
    | none => rfl
    | some task =>
      have hnone := hdoc.noStatus task (List.mem_of_find?_eq_some hfind)
      rw [Option.any_some, hnone]
      rfl

/-- An instance whose end was reported offers nothing. -/
theorem Inv.deleted_of_offers (hdoc : doc.WellFormed) (h : Inv doc r)
    (hcount : Lifetime.Countable r.life.workflow) {operation : Operation Node}
    (hcancel : operation ≠ .cancel) (hoffers : Lifetime.offers r.life.workflow operation = true) :
    r.launcher ≠ .start ∧ r.life.deleted = 0 := by
  by_cases hlauncher : r.launcher = .start
  · rw [offers_start hdoc (h.fresh hlauncher).2 hcancel] at hoffers
    cases hoffers
  · have hsound := h.sound hlauncher
    refine ⟨hlauncher, ?_⟩
    rw [hsound.deleted, if_neg]
    intro hended
    have hnothing := Lifetime.nothing_of_ended hsound.inv hcount hended
    rw [Lifetime.offers_eq_false hsound.inv hnothing.1 hnothing.2 hcancel] at hoffers
    cases hoffers

/-- A call finds the instance alive, and reports the end or does not. -/
theorem report_inv (h : Inv doc r) (hlauncher : r.launcher ≠ .start) {operation : Operation Node}
    {life : Lifetime Node} (hlife : r.life.step operation = some life) :
    Inv doc { r.use with life, ending := r.ending + (life.deleted - r.life.deleted) } := by
  have hsound := h.sound hlauncher
  have hdeleted := Lifetime.deleted_of_step hlife
  have hfreed := h.not_freed_of_deleted hdeleted
  have hreport := h.report
  rw [use_eq hfreed]
  constructor
  case fresh => exact fun hs ↦ absurd hs hlauncher
  case sound => exact fun _ ↦ Lifetime.step_sound hsound hlife
  case report =>
    show life.deleted = owned r.launcher + (r.ending + (life.deleted - r.life.deleted)) + r.removing +
      if r.freed then 1 else 0
    omega
  case removing => exact h.removing
  case removed => exact h.removed
  case freed => exact h.freed
  case notMisused => exact h.notMisused

theorem step_call {operation : Operation Node} (hstep : step synchronous r (.call operation) = some r') :
    operation ≠ .cancel ∧ Lifetime.offers r.life.workflow operation = true ∧
      ((∃ life, r.life.step operation = some life ∧
        { r.use with life, ending := r.ending + (life.deleted - r.life.deleted) } = r') ∨
      r.life.step operation = none ∧ { r with misused := true } = r') := by
  have hcancel : operation ≠ .cancel := by
    intro heq
    rw [heq] at hstep
    cases hstep
  have hcall : step synchronous r (.call operation) =
      if Lifetime.offers r.life.workflow operation then
        match r.life.step operation with
        | some life => some { r.use with life, ending := r.ending + (life.deleted - r.life.deleted) }
        | none => some { r with misused := true }
      else none := by
    cases operation with
    | cancel => exact absurd rfl hcancel
    | _ => rfl
  rw [hcall] at hstep
  by_cases hoffers : Lifetime.offers r.life.workflow operation = true
  · rw [if_pos hoffers] at hstep
    refine ⟨hcancel, hoffers, ?_⟩
    cases hlife : r.life.step operation with
    | none =>
      rw [hlife] at hstep
      exact .inr ⟨rfl, Option.some.inj hstep⟩
    | some life =>
      rw [hlife] at hstep
      exact .inl ⟨life, rfl, Option.some.inj hstep⟩
  · rw [if_neg hoffers] at hstep
    cases hstep

theorem call_inv (hdoc : doc.WellFormed) (h : Inv doc r) {operation : Operation Node}
    (hcount : Lifetime.Countable r.life.workflow)
    (hstep : step synchronous r (.call operation) = some r') : Inv doc r' := by
  rcases step_call hstep with ⟨hcancel, hoffers, hcall⟩
  have hgoes := h.deleted_of_offers hdoc hcount hcancel hoffers
  rcases hcall with ⟨life, hlife, heq⟩ | ⟨hnone, -⟩
  · rw [← heq]
    exact report_inv h hgoes.1 hlife
  · have hsome := (Lifetime.isSome_step_iff r.life operation).mpr ⟨hgoes.2, hoffers⟩
    rw [hnone] at hsome
    cases hsome

/-- An entry in a queue or in the `Retrier` keeps the instance alive. -/
theorem Inv.not_freed_of_entry (h : Inv doc r) (hcount : Lifetime.Countable r.life.workflow)
    (hentry : r.life.workflow.queued ≠ [] ∨ r.life.workflow.retrier ≠ []) : r.freed = false := by
  apply h.not_freed_of_deleted
  by_cases hlauncher : r.launcher = .start
  · exact (h.fresh hlauncher).1
  · have hsound := h.sound hlauncher
    rw [hsound.deleted, if_neg]
    intro hended
    have hnothing := Lifetime.nothing_of_ended hsound.inv hcount hended
    have hqueued := Lifetime.queued_eq_nil hsound.inv hnothing.1
    exact hentry.elim (absurd hqueued) (absurd hnothing.2)

theorem cancel_inv (h : Inv doc r) (hregistered : r.registered = true) :
    Inv doc { r.use with life := { r.life with workflow := r.life.workflow.cancel } } := by
  have hfreed : r.freed = false := by
    cases hfreed : r.freed with
    | false => rfl
    | true => exact absurd ((h.freed hfreed).2.symm.trans hregistered) (by decide)
  rw [use_eq hfreed]
  constructor
  case fresh =>
    intro hlauncher
    rcases h.fresh hlauncher with ⟨hdeleted, isCancelling, hworkflow⟩
    refine ⟨hdeleted, true, ?_⟩
    show r.life.workflow.cancel = _
    rw [hworkflow]
    rfl
  case sound =>
    -- only `is_cancelling` changes
    intro hlauncher
    exact ⟨(h.sound hlauncher).inv, (h.sound hlauncher).deleted⟩
  case report => exact h.report
  case removing => exact h.removing
  case removed => exact h.removed
  case freed => exact h.freed
  case notMisused => exact h.notMisused

theorem remove_inv (h : Inv doc r) (hending : 0 < r.ending) :
    Inv doc { r.use with ending := r.ending - 1, removing := r.removing + 1, registered := false } := by
  have hreport := h.report
  have hfreed := h.not_freed_of_ending (by omega)
  rw [use_eq hfreed]
  constructor
  case fresh => exact h.fresh
  case sound => exact h.sound
  case report =>
    show r.life.deleted = owned r.launcher + (r.ending - 1) + (r.removing + 1) +
      if r.freed then 1 else 0
    omega
  case removing => exact fun _ ↦ rfl
  case removed => exact fun _ ↦ rfl
  case freed => exact fun hf ↦ absurd (hfreed.symm.trans hf) (by decide)
  case notMisused => exact h.notMisused

theorem free_inv (h : Inv doc r) (hlauncher : r.launcher = .done) (hremoving : 0 < r.removing) :
    Inv doc { r.use with removing := r.removing - 1, freed := true } := by
  have hfreed := h.not_freed_of_ending (by omega)
  have hreport := h.report
  rw [hfreed, if_neg (by decide)] at hreport
  rw [use_eq hfreed]
  constructor
  case fresh => exact h.fresh
  case sound => exact h.sound
  case report =>
    show r.life.deleted = owned r.launcher + r.ending + (r.removing - 1) + 1
    omega
  case removing => exact fun _ ↦ h.removing hremoving
  case removed => exact h.removed
  case freed => exact fun _ ↦ ⟨hlauncher, h.removing hremoving⟩
  case notMisused => exact h.notMisused

theorem step_inv (hdoc : doc.WellFormed) (h : Inv doc r) {action : LaunchAction Node}
    (hok : Guarded r action) (hstep : step synchronous r action = some r') : Inv doc r' := by
  cases action with
  | start env => exact start_inv hdoc h hstep
  | proceed => exact proceed_inv h hstep
  | call operation => exact call_inv hdoc h hok.1 hstep
  | readId =>
    unfold step at hstep
    dsimp only at hstep
    by_cases hentry : r.life.workflow.queued ≠ [] ∨ r.life.workflow.retrier ≠ []
    · rw [if_pos hentry, Option.some.injEq, use_eq (h.not_freed_of_entry hok.1 hentry)] at hstep
      rw [← hstep]
      exact h
    · rw [if_neg hentry] at hstep
      cases hstep
  | cancel =>
    unfold step at hstep
    dsimp only at hstep
    by_cases hregistered : r.registered = true
    · rw [if_pos hregistered, Option.some.injEq] at hstep
      rw [← hstep]
      exact cancel_inv h hregistered
    · rw [if_neg hregistered] at hstep
      cases hstep
  | remove =>
    unfold step at hstep
    dsimp only at hstep
    by_cases hending : 0 < r.ending
    · rw [if_pos hending, Option.some.injEq] at hstep
      rw [← hstep]
      exact remove_inv h hending
    · rw [if_neg hending] at hstep
      cases hstep
  | free =>
    unfold step at hstep
    dsimp only at hstep
    by_cases hremoving : 0 < r.removing
    · rw [if_pos hremoving, Option.some.injEq] at hstep
      rw [← hstep]
      exact free_inv h hok.2 hremoving
    · rw [if_neg hremoving] at hstep
      cases hstep

/-- In every run in which the other threads free the instance only once the launching thread is done with
it, and its counters do not wrap, no thread uses the instance after it was freed. -/
theorem not_misused_of_guarded (synchronous : Bool) (doc : Document Node) (hdoc : doc.WellFormed)
    (actions : List (LaunchAction Node)) (r : LaunchRequest Node)
    (hok : Meets (step synchronous) Guarded (create doc) actions)
    (hrun : run (step synchronous) (create doc) actions = some r) : r.misused = false := by
  have hinv : Inv doc r :=
    run_invariant (fun _ _ _ h hguard hstep ↦ step_inv hdoc h hguard hstep) (create_inv doc) hok hrun
  exact hinv.notMisused

/-- The client has its answer before the task is executed. -/
def answeredFirst : List (LaunchAction Unit) :=
  [.start Lifetime.twoNodes, .proceed, .proceed, .readId, .call (.taskExecute Lifetime.twoNodes 2),
    .call (.taskStop Lifetime.twoNodes 2 0 ""), .remove, .free]

/-- The client waits for the end, and has its answer between `Remove` and the end of the destructor. -/
def answeredWhileRemoved : List (LaunchAction Unit) :=
  [.start Lifetime.twoNodes, .proceed, .proceed, .readId, .call (.taskExecute Lifetime.twoNodes 2),
    .call (.taskStop Lifetime.twoNodes 2 0 ""), .remove, .proceed, .proceed, .free]

theorem not_misused_answeredFirst :
    (∃ r, run (step false) (create Lifetime.oneTask) answeredFirst = some r ∧
      r.freed = true ∧ r.misused = false) ∧
    ∃ r, run (step true) (create Lifetime.oneTask) answeredWhileRemoved = some r ∧
      r.launcher = .done ∧ r.freed = true ∧ r.misused = false := by
  apply And.intro
  · refine ⟨_, rfl, rfl, not_misused_of_guarded false Lifetime.oneTask Lifetime.oneTask_wellFormed
      answeredFirst _ ?_ rfl⟩
    refine Meets.cons ⟨by decide, trivial⟩ rfl (Meets.cons ⟨by decide, trivial⟩ rfl ?_)
    refine Meets.cons ⟨by decide, trivial⟩ rfl (Meets.cons ⟨by decide, trivial⟩ rfl ?_)
    refine Meets.cons ⟨by decide, trivial⟩ rfl (Meets.cons ⟨by decide, trivial⟩ rfl ?_)
    exact Meets.cons ⟨by decide, trivial⟩ rfl (Meets.cons ⟨by decide, rfl⟩ rfl trivial)
  · refine ⟨_, rfl, rfl, rfl, not_misused_of_guarded true Lifetime.oneTask Lifetime.oneTask_wellFormed
      answeredWhileRemoved _ ?_ rfl⟩
    refine Meets.cons ⟨by decide, trivial⟩ rfl (Meets.cons ⟨by decide, trivial⟩ rfl ?_)
    refine Meets.cons ⟨by decide, trivial⟩ rfl (Meets.cons ⟨by decide, trivial⟩ rfl ?_)
    refine Meets.cons ⟨by decide, trivial⟩ rfl (Meets.cons ⟨by decide, trivial⟩ rfl ?_)
    refine Meets.cons ⟨by decide, trivial⟩ rfl (Meets.cons ⟨by decide, trivial⟩ rfl ?_)
    exact Meets.cons ⟨by decide, trivial⟩ rfl (Meets.cons ⟨by decide, rfl⟩ rfl trivial)

/-- The task is executed, ends and takes the instance with it, and then the launching thread goes on. -/
def fastTask : List (LaunchAction Unit) :=
  [.start Lifetime.twoNodes, .call (.taskExecute Lifetime.twoNodes 2),
    .call (.taskStop Lifetime.twoNodes 2 0 ""), .remove, .free, .proceed]

theorem misused_fastTask :
    (∃ r, run (step false) (create Lifetime.oneTask) fastTask = some r ∧ r.misused = true) ∧
      ∃ r, run (step true) (create Lifetime.oneTask) fastTask = some r ∧ r.misused = true :=
  ⟨⟨_, rfl, rfl⟩, ⟨_, rfl, rfl⟩⟩

/-- A synchronous request that is in time for `Wait` only wakes up at `Remove`, and may read the id too late. -/
example : ((run (step true) (create Lifetime.oneTask)
    [.start Lifetime.twoNodes, .proceed, .proceed, .call (.taskExecute Lifetime.twoNodes 2),
      .call (.taskStop Lifetime.twoNodes 2 0 ""), .remove, .free, .proceed, .proceed]).map
        LaunchRequest.misused) = some true := rfl

end LaunchRequest

end EvQueue
