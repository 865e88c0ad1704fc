import EvQueue.LaunchRequest

/-!
# SynchronousLaunch — when a synchronous launch is answered

The thread of the request waits until `WorkflowInstances::Remove` broadcasts, which only the destructor of
the instance does.  `Wait` makes one call of `pthread_cond_wait`, which may also return by itself.
-/

namespace EvQueue

open Runs

variable {Node : Type}

/-- A step of a synchronous launch. -/
inductive WaitAction (Node : Type) where
  | launch (action : LaunchAction Node)
  /-- `pthread_cond_wait` returns. -/
  | wakeUp

namespace LaunchRequest

def waitStep (r : LaunchRequest Node) : WaitAction Node → Option (LaunchRequest Node)
  | .launch action => step true r action
  | .wakeUp =>
      match r.launcher with
      | .waiting terminated => some { r with launcher := .answer terminated }
      | _ => none

/-- The thread is not blocked when it is the one that is to delete the instance, and it sends its answer
when the instance has ended and is forgotten. -/
structure RepliesInTime (r : LaunchRequest Node) : Prop where
  notBlocked : ¬ (r.launcher = .waiting true ∧ r.registered = true)
  ended : ∀ terminated, r.launcher = .answer terminated →
    r.life.workflow.workflowEnded = true ∧ r.registered = false

/-- The thread does not go on with an instance whose end `Start` has reported, and does not wake up
before `Remove`. -/
def Signalled (r : LaunchRequest Node) : WaitAction Node → Prop
  | .launch .proceed => r.launcher ≠ .log true
  | .wakeUp => r.registered = false
  | _ => True

/-! ## Another thread has the report of the end -/

/-- The thread is not going to delete the instance, as far as it waits for it or answers. -/
def delegates : Launcher → Bool
  | .wait terminated => !terminated
  | .waiting terminated => !terminated
  | .answer terminated => !terminated
  | .delete => false
  | .removed => false
  | _ => true

/-- Whoever is to remove the instance, or has removed it, was told of the end. -/
structure WaitInv (doc : Document Node) (r : LaunchRequest Node) : Prop where
  fresh : r.launcher = .start → r.ending = 0 ∧ r.registered = true ∧
    r.life.deleted = 0 ∧ ∃ isCancelling, r.life.workflow = { WorkflowInstance.create doc with isCancelling }
  sound : r.launcher ≠ .start → r.life.Sound
  others : 0 < r.ending ∨ r.registered = false → 0 < r.life.deleted
  delegated : delegates r.launcher = true
  answer : ∀ terminated, r.launcher = .answer terminated → r.registered = false

variable {doc : Document Node} {r r' : LaunchRequest Node}

theorem create_waitInv (doc : Document Node) : WaitInv doc (create doc) where
  fresh _ := ⟨rfl, rfl, rfl, false, rfl⟩
  sound h := absurd rfl h
  others := nofun
  delegated := rfl
  answer := nofun

theorem WaitInv.repliesInTime (h : WaitInv doc r) : RepliesInTime r := by
  constructor
  case notBlocked =>
    intro hblocked
    have hdelegated := h.delegated
    rw [hblocked.1] at hdelegated
    cases hdelegated
  case ended =>
    intro terminated hlauncher
    have hregistered := h.answer terminated hlauncher
    have hdeleted := h.others (.inr hregistered)
    have hsound := h.sound (by rw [hlauncher]; exact nofun)
    apply And.intro _ hregistered
    rw [hsound.deleted] at hdeleted
    by_contra hrunning
    rw [if_neg hrunning] at hdeleted
    omega

/-- The thread goes on, and nothing else changes. -/
theorem WaitInv.move (h : WaitInv doc r) {launcher : Launcher} {misused : Bool}
    (hstart : r.launcher ≠ .start) (hstart' : launcher ≠ .start)
    (hdelegated : delegates launcher = true)
    (hanswer : ∀ terminated, launcher = .answer terminated → r.registered = false) :
    WaitInv doc { r with launcher, misused } where
  fresh hs := absurd hs hstart'
  sound _ := h.sound hstart
  others := h.others
  delegated := hdelegated
  answer := hanswer

theorem start_waitInv (hdoc : doc.WellFormed) (h : WaitInv doc r) {env : Environment Node}
    (hstep : step true r (.start env) = some r') : WaitInv doc r' := by
  unfold step at hstep
  dsimp only at hstep
  by_cases hlauncher : r.launcher = .start
  · rw [if_pos hlauncher, Option.some.injEq] at hstep
    rcases h.fresh hlauncher with ⟨hending, hregistered, hdeleted, isCancelling, hworkflow⟩
    have hinv : (r.life.workflow.start env).1.view.Inv 0 0 := by
      rw [hworkflow]
      exact start_view hdoc env isCancelling
    rw [← hstep]
    constructor
    case fresh => exact nofun
    case sound => exact fun _ ↦ Lifetime.after_sound hdeleted hinv rfl
    case others =>
      -- nobody else has heard of the instance yet
      intro hothers
      rcases hothers with hpos | hremoved
      · exact absurd (show 0 < r.ending from hpos) (by omega)
      · exact absurd (hregistered.symm.trans hremoved) (by decide)
    case delegated => rfl
    case answer => exact nofun
  · rw [if_neg hlauncher] at hstep
    cases hstep

theorem proceed_waitInv (h : WaitInv doc r) (hlog : r.launcher ≠ .log true)
    (hstep : r.proceed true = some r') : WaitInv doc r' := by
  have hdelegated := h.delegated
  unfold proceed at hstep
  cases hlauncher : r.launcher with
  | start => simp [hlauncher] at hstep
  | log terminated =>
    cases terminated with
    | true => exact absurd hlauncher hlog
    | false =>
      simp only [hlauncher, if_true, Option.some.injEq] at hstep
      rw [← hstep]
      exact h.move (by rw [hlauncher]; exact nofun) nofun rfl nofun
  | wait terminated =>
    rw [hlauncher] at hdelegated
    simp only [hlauncher, Option.some.injEq] at hstep
    rw [← hstep]
    by_cases hregistered : r.registered = true
    · rw [if_pos hregistered]
      exact h.move (by rw [hlauncher]; exact nofun) nofun hdelegated nofun
    · rw [if_neg hregistered]
      exact h.move (by rw [hlauncher]; exact nofun) nofun hdelegated
        fun _ _ ↦ Bool.eq_false_iff.mpr hregistered
  | waiting terminated =>
    rw [hlauncher] at hdelegated
    simp only [hlauncher] at hstep
    by_cases hregistered : r.registered = true
    · rw [if_pos hregistered] at hstep
      cases hstep
    · rw [if_neg hregistered, Option.some.injEq] at hstep
      rw [← hstep]
      exact h.move (by rw [hlauncher]; exact nofun) nofun hdelegated
        fun _ _ ↦ Bool.eq_false_iff.mpr hregistered
  | answer terminated =>
    rw [hlauncher] at hdelegated
    cases terminated with
    | true => cases hdelegated
    | false =>
      simp only [hlauncher, Option.some.injEq] at hstep
      rw [← hstep]
      exact h.move (by rw [hlauncher]; exact nofun) nofun rfl nofun
  | delete =>
    rw [hlauncher] at hdelegated
    cases hdelegated
  | removed =>
    rw [hlauncher] at hdelegated
    cases hdelegated
  | done => simp [hlauncher] at hstep

/-- A call that reports the end hands the instance to its thread. -/
theorem report_waitInv (h : WaitInv doc r) (hlauncher : r.launcher ≠ .start)
    {operation : Operation Node} {life : Lifetime Node} (hlife : r.life.step operation = some life) :
    WaitInv doc { r.use with life, ending := r.ending + (life.deleted - r.life.deleted) } := by
  have hsound := h.sound hlauncher
  have hdeleted := Lifetime.deleted_of_step hlife
  constructor
  case fresh => exact fun hs ↦ absurd hs hlauncher
  case sound => exact fun _ ↦ Lifetime.step_sound hsound hlife
  case others =>
    -- nobody was told before this call
    intro hothers
    have hnone : ¬ (0 < r.ending ∨ r.registered = false) := by
      intro hbefore
      have hpos := h.others hbefore
      omega
    rcases hothers with hpos | hremoved
    · have hpos' : 0 < r.ending + (life.deleted - r.life.deleted) := hpos
      show 0 < life.deleted
      by_contra hzero
      exact hnone (.inl (by omega))
    · exact absurd (.inr hremoved) hnone
  case delegated => exact h.delegated
  case answer => exact h.answer

/-- What another thread does that neither reports the end nor removes the instance. -/
theorem WaitInv.of_same (h : WaitInv doc r) {removing : Nat} {freed misused : Bool} :
    WaitInv doc { r with removing, freed, misused } :=
  ⟨h.fresh, h.sound, h.others, h.delegated, h.answer⟩

theorem call_waitInv (hdoc : doc.WellFormed) (h : WaitInv doc r) {operation : Operation Node}
    (hstep : step true r (.call operation) = some r') : WaitInv doc r' := by
  rcases step_call hstep with ⟨hcancel, hoffers, ⟨life, hlife, heq⟩ | ⟨-, heq⟩⟩
  · have hlauncher : r.launcher ≠ .start := by
      intro hstart
      rw [offers_start hdoc (h.fresh hstart).2.2.2 hcancel] at hoffers
      cases hoffers
    rw [← heq]
    exact report_waitInv h hlauncher hlife
  · rw [← heq]
    exact h.of_same

theorem cancel_waitInv (h : WaitInv doc r) :
    WaitInv doc { r.use with life := { r.life with workflow := r.life.workflow.cancel } } where
  fresh hlauncher := by
    rcases h.fresh hlauncher with ⟨hending, hregistered, hdeleted, isCancelling, hworkflow⟩
    refine ⟨hending, hregistered, hdeleted, true, ?_⟩
    show r.life.workflow.cancel = _
    rw [hworkflow]
    rfl
  sound hlauncher := ⟨(h.sound hlauncher).inv, (h.sound hlauncher).deleted⟩
  others := h.others
  delegated := h.delegated
  answer := h.answer

theorem remove_waitInv (h : WaitInv doc r) (hending : 0 < r.ending) :
    WaitInv doc
      { r.use with ending := r.ending - 1, removing := r.removing + 1, registered := false } where
  fresh hlauncher := by
    have hzero := (h.fresh hlauncher).1
    omega
  sound := h.sound
  others _ := h.others (.inl hending)
  delegated := h.delegated
  answer _ _ := rfl

theorem step_waitInv (hdoc : doc.WellFormed) (h : WaitInv doc r) {action : LaunchAction Node}
    (hok : Signalled r (.launch action)) (hstep : step true r action = some r') : WaitInv doc r' := by
  cases action with
  | start env => exact start_waitInv hdoc h hstep
  | proceed => exact proceed_waitInv h hok hstep
  | call operation => exact call_waitInv hdoc h hstep
  | readId =>
    unfold step at hstep
    dsimp only at hstep
    split at hstep
    · rw [← Option.some.inj hstep]
      exact h.of_same
    · cases hstep
  | cancel =>
    unfold step at hstep
    dsimp only at hstep
    split at hstep
    · rw [← Option.some.inj hstep]
      exact cancel_waitInv h
    · cases hstep
  | remove =>
    unfold step at hstep
    dsimp only at hstep
    split at hstep
    · rename_i hending
      rw [← Option.some.inj hstep]
      exact remove_waitInv h hending
    · cases hstep
  | free =>
    unfold step at hstep
    dsimp only at hstep
    split at hstep
    · rw [← Option.some.inj hstep]
      exact h.of_same
    · cases hstep

theorem waitStep_waitInv (hdoc : doc.WellFormed) (h : WaitInv doc r) {action : WaitAction Node}
    (hok : Signalled r action) (hstep : waitStep r action = some r') : WaitInv doc r' := by
  cases action with
  | launch action => exact step_waitInv hdoc h hok hstep
  | wakeUp =>
    have hregistered : r.registered = false := hok
    have hdelegated := h.delegated
    unfold waitStep at hstep
    cases hlauncher : r.launcher with
    | waiting terminated =>
      rw [hlauncher] at hdelegated
      simp only [hlauncher, Option.some.injEq] at hstep
      rw [← hstep]
      exact h.move (by rw [hlauncher]; exact nofun) nofun hdelegated fun _ _ ↦ hregistered
    | _ => simp [hlauncher] at hstep

/-- In every run in which the thread does not go on with an instance that has ended in `Start`, and wakes
up only behind `Remove`, it is not blocked by itself and answers when the instance has ended. -/
theorem repliesInTime_of_signalled (doc : Document Node) (hdoc : doc.WellFormed)
    (actions : List (WaitAction Node)) (r : LaunchRequest Node)
    (hok : Meets waitStep Signalled (create doc) actions)
    (hrun : run waitStep (create doc) actions = some r) : RepliesInTime r := by
  have hinv : WaitInv doc r :=
    run_invariant (fun _ _ _ h hguard hstep ↦ waitStep_waitInv hdoc h hguard hstep)
      (create_waitInv doc) hok hrun
  exact hinv.repliesInTime

/-- The task is executed while the thread waits. -/
def waitsForTask : List (WaitAction Unit) :=
  [.launch (.start Lifetime.twoNodes), .launch .proceed, .launch .proceed,
    .launch (.call (.taskExecute Lifetime.twoNodes 2)),
    .launch (.call (.taskStop Lifetime.twoNodes 2 0 "")), .launch .remove, .wakeUp]

theorem repliesInTime_waitsForTask :
    ∃ r, run waitStep (create Lifetime.oneTask) waitsForTask = some r ∧
      r.launcher = .answer false ∧ RepliesInTime r :=
  ⟨_, rfl, rfl, repliesInTime_of_signalled Lifetime.oneTask Lifetime.oneTask_wellFormed waitsForTask _
    (by
      refine Meets.cons trivial rfl (Meets.cons ?_ rfl (Meets.cons ?_ rfl ?_))
      · exact nofun
      · exact nofun
      · refine Meets.cons trivial rfl (Meets.cons trivial rfl (Meets.cons trivial rfl ?_))
        exact Meets.cons rfl rfl trivial) rfl⟩

/-! ## A thread that waits for itself -/

/-- `Start` has reported the end, and the thread is in `pthread_cond_wait`. -/
structure Blocked (r : LaunchRequest Node) : Prop where
  launcher : r.launcher = .waiting true
  registered : r.registered = true
  ending : r.ending = 0
  sound : r.life.Sound
  deleted : 0 < r.life.deleted

theorem Blocked.step (h : Blocked r) {action : LaunchAction Node}
    (hstep : step true r action = some r') : Blocked r' := by
  unfold LaunchRequest.step at hstep
  cases action with
  | start env => simp [h.launcher] at hstep
  | proceed => simp [proceed, h.launcher, h.registered] at hstep
  | call operation =>
    -- an instance whose end was reported takes no call
    rcases step_call hstep with ⟨-, -, ⟨life, hlife, -⟩ | ⟨-, heq⟩⟩
    · have hzero := Lifetime.deleted_of_step hlife
      have hpos := h.deleted
      omega
    · rw [← heq]
      exact ⟨h.launcher, h.registered, h.ending, h.sound, h.deleted⟩
  | readId =>
    dsimp only at hstep
    split at hstep
    · rw [← Option.some.inj hstep]
      exact ⟨h.launcher, h.registered, h.ending, h.sound, h.deleted⟩
    · cases hstep
  | cancel =>
    rw [h.registered] at hstep
    dsimp only at hstep
    rw [if_pos rfl, Option.some.injEq] at hstep
    rw [← hstep]
    exact ⟨h.launcher, h.registered, h.ending, ⟨h.sound.inv, h.sound.deleted⟩, h.deleted⟩
  | remove => simp [h.ending] at hstep
  | free =>
    dsimp only at hstep
    split at hstep
    · rw [← Option.some.inj hstep]
      exact ⟨h.launcher, h.registered, h.ending, h.sound, h.deleted⟩
    · cases hstep

/-- Whatever the other threads do, the thread is not woken. -/
theorem Blocked.run (h : Blocked r) {actions : List (WaitAction Node)} (hwake : .wakeUp ∉ actions)
    (hrun : run waitStep r actions = some r') : Blocked r' := by
  have hmeets : Meets waitStep (fun _ a ↦ a ≠ .wakeUp) r actions :=
    Meets.of_forall fun a ha heq ↦ hwake (heq ▸ ha)
  apply run_invariant _ h hmeets hrun
  intro s a s' hs ha hstep
  cases a with
  | launch action => exact hs.step hstep
  | wakeUp => exact absurd rfl ha

/-- A workflow without jobs. -/
def noJob : Document Unit where
  jobs := []
  tasks := []
  schedules := fun _ ↦ none
  nextId := 1

theorem noJob_wellFormed : noJob.WellFormed where
  nextId := by decide
  jobsNodup := by decide
  jobsBound := by decide
  parents := by decide
  parentsFirst := by decide
  tasksNodup := by decide
  tasksBound := by decide
  noStatus := by decide

/-- The thread waits for the instance of an empty workflow, which it is to delete itself; and a thread
that wakes up by itself answers while the task has still to be executed. -/
theorem not_repliesInTime :
    (∃ r, run waitStep (create noJob)
        [.launch (.start Lifetime.twoNodes), .launch .proceed, .launch .proceed] = some r ∧
      ¬ RepliesInTime r ∧
      ∀ actions r', .wakeUp ∉ actions → run waitStep r actions = some r' →
        r'.launcher = .waiting true ∧ r'.registered = true) ∧
    ∃ r, run waitStep (create Lifetime.oneTask)
        [.launch (.start Lifetime.twoNodes), .launch .proceed, .launch .proceed, .wakeUp] = some r ∧
      r.launcher = .answer false ∧ r.life.workflow.queued = [2] ∧ ¬ RepliesInTime r := by
  apply And.intro
  · refine ⟨_, rfl, fun h ↦ h.notBlocked ⟨rfl, rfl⟩, ?_⟩
    intro actions r' hwake hrun
    have hblocked := Blocked.run ⟨rfl, rfl, rfl, Lifetime.start_sound Lifetime.twoNodes noJob_wellFormed,
      by decide⟩ hwake hrun
    exact ⟨hblocked.launcher, hblocked.registered⟩
  · exact ⟨_, rfl, rfl, rfl, fun h ↦ absurd (h.ended false rfl).2 (by decide)⟩

end LaunchRequest

end EvQueue
