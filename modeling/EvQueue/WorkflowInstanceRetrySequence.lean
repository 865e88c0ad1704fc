import EvQueue.WorkflowInstanceReexecutions
import EvQueue.WorkflowInstanceRetryTexts

/-!
# WorkflowInstanceRetrySequence — the retries of a task that always fails

Where a task stands in its retries is kept in its attributes `retry_schedule_level`, `retry_delay` and
`retry_times`.  From one failure to the next `retry_task` counts down the times of a level, and goes on to
the next level on the failure after the last retry of a level.
-/

namespace EvQueue

variable {Node : Type}

namespace TaskNode

variable {schedules : String → Option (List (Int × Int))} {t t' : TaskNode Node}
variable {uninitialised retry : Int × Int} {name : String} {levels : List (Int × Int)}
variable {level : Nat} {delay times : Int}

/-! ## One call -/

/-- No retry is planned with a delay or times of zero. -/
theorem retry_exhausted (hparameters : t.retryParameters uninitialised schedules = some (t', retry))
    (hend : (t'.nextLevel schedules retry).2.1 = 0 ∨ (t'.nextLevel schedules retry).2.2 = 0) :
    t.retry uninitialised schedules = ((t'.nextLevel schedules retry).1, .exhausted) ∧
      t.plan uninitialised schedules = none := by
  unfold TaskNode.retry plan
  rw [hparameters]
  dsimp only
  rw [if_pos hend, if_pos hend]
  exact ⟨rfl, rfl⟩

/-- Otherwise one is planned, and counted. -/
theorem retry_planned (hparameters : t.retryParameters uninitialised schedules = some (t', retry))
    (hdelay : (t'.nextLevel schedules retry).2.1 ≠ 0) (htimes : (t'.nextLevel schedules retry).2.2 ≠ 0)
    (hretval : t.retryRetval = none) :
    t.retry uninitialised schedules =
        ({ (t'.nextLevel schedules retry).1 with
            retryTimes := some ((t'.nextLevel schedules retry).2.2 - 1) }, .planned) ∧
      t.plan uninitialised schedules = some (t'.nextLevel schedules retry).2.1 := by
  have hsame := (sameBut_retryParameters hparameters).trans (sameBut_nextLevel schedules t' retry)
  have hnone : ¬((t'.nextLevel schedules retry).1.retryRetval.isSome = true ∧
      (t'.nextLevel schedules retry).1.retryRetval ≠ (t'.nextLevel schedules retry).1.retval) := by
    rw [hsame.retryRetval, hretval]
    exact fun hno ↦ absurd hno.1 (by decide)
  have hgo : ¬((t'.nextLevel schedules retry).2.1 = 0 ∨ (t'.nextLevel schedules retry).2.2 = 0) := by
    omega
  unfold TaskNode.retry plan
  rw [hparameters]
  dsimp only
  rw [if_neg hgo, if_neg hgo, if_neg hnone, if_neg hnone]
  exact ⟨rfl, rfl⟩

/-- The task is at a level of its schedule, with so many retries left. -/
structure AtLevel (name : String) (level : Nat) (delay times : Int) (t : TaskNode Node) : Prop where
  schedule : t.retrySchedule = some name
  level : t.retryScheduleLevel = some level
  delay : t.retryDelay = some delay
  times : t.retryTimes = some times

theorem AtLevel.congr (h : t.AtLevel name level delay times) (hsame : SameRetry t t') :
    t'.AtLevel name level delay times :=
  ⟨hsame.schedule.trans h.schedule, hsame.level.trans h.level, hsame.delay.trans h.delay,
    hsame.times.trans h.times⟩

/-- Behind its first level, the parameters of a task are those of its attributes. -/
theorem AtLevel.retryParameters (h : t.AtLevel name (level + 1) delay times)
    (uninitialised : Int × Int) (schedules : String → Option (List (Int × Int))) :
    t.retryParameters uninitialised schedules = some (t, delay, times) := by
  unfold TaskNode.retryParameters
  rw [h.schedule, h.level, h.delay, h.times]
  rfl

theorem nextLevel_left (t : TaskNode Node) (schedules : String → Option (List (Int × Int))) (delay : Int)
    (htimes : times ≠ 0) : t.nextLevel schedules (delay, times) = (t, delay, times) := by
  unfold nextLevel
  cases t.retrySchedule with
  | none => rfl
  | some name => exact if_neg htimes

/-- A level that is used up gives way to the next one. -/
theorem nextLevel_spent (hschedule : t.retrySchedule = some name) :
    t.nextLevel schedules (delay, 0) = t.scheduleUpdate schedules name (delay, 0) := by
  unfold nextLevel
  rw [hschedule]
  exact if_pos rfl

theorem scheduleUpdate_end (hknown : schedules name = some levels)
    (hend : levels[t.retryScheduleLevel.getD 0]? = none) (retry : Int × Int) :
    t.scheduleUpdate schedules name retry =
      ({ t with retryScheduleLevel := some (t.retryScheduleLevel.getD 0 + 1) }, 0, 0) := by
  unfold scheduleUpdate
  rw [hknown]
  dsimp only
  rw [Nat.add_sub_cancel, hend]

theorem scheduleUpdate_level (hknown : schedules name = some levels)
    (hlevel : levels[t.retryScheduleLevel.getD 0]? = some (delay, times)) (retry : Int × Int) :
    t.scheduleUpdate schedules name retry =
      ({ t with
          retryScheduleLevel := some (t.retryScheduleLevel.getD 0 + 1)
          retryDelay := some delay
          retryTimes := some times }, delay, times) := by
  unfold scheduleUpdate
  rw [hknown]
  dsimp only
  rw [Nat.add_sub_cancel, hlevel]

/-! ## The plan of the retries -/

/-- From failure to failure `retry_task` plans retries with these delays, and gives the task up then;
whatever is left uninitialised, and whatever else becomes of the task in between. -/
def Plan (schedules : String → Option (List (Int × Int))) : List Int → TaskNode Node → Prop
  | [], t => ∀ uninitialised, (t.retry uninitialised schedules).2 = .exhausted ∧
      t.plan uninitialised schedules = none
  | delay :: delays, t => ∀ uninitialised, (t.retry uninitialised schedules).2 = .planned ∧
      t.plan uninitialised schedules = some delay ∧
      ∀ t', SameRetry (t.retry uninitialised schedules).1 t' → t'.retryRetval = none →
        Plan schedules delays t'

/-- A call that works with a delay and times of at least one retries, and leaves one retry less. -/
theorem plan_retried {t₂ : TaskNode Node} {n : Nat} {later : List Int} (hdelay : 0 < delay)
    (hworks : ∀ uninitialised, ∃ t₁ retry, t.retryParameters uninitialised schedules = some (t₁, retry) ∧
      t₁.nextLevel schedules retry = (t₂, delay, ((n + 1 : Nat) : Int)))
    (hretval : t.retryRetval = none)
    (hlater : ∀ t' : TaskNode Node, SameRetry { t₂ with retryTimes := some (n : Int) } t' →
      t'.retryRetval = none → t'.Plan schedules later) :
    t.Plan schedules (delay :: later) := by
  intro u
  obtain ⟨t₁, retry, hparameters, hnext⟩ := hworks u
  have htimes : ((n + 1 : Nat) : Int) ≠ 0 := by omega
  have hless : ((n + 1 : Nat) : Int) - 1 = n := by omega
  obtain ⟨hretry, hplan⟩ := retry_planned hparameters (by rw [hnext]; exact Int.ne_of_gt hdelay)
    (by rw [hnext]; exact htimes) hretval
  rw [hnext] at hretry hplan
  dsimp only at hretry
  rw [hless] at hretry
  refine ⟨congrArg Prod.snd hretry, hplan, ?_⟩
  intro t' hsame hretval'
  rw [hretry] at hsame
  exact hlater t' hsame hretval'

/-- Without a schedule the delay stays, and the times are counted down. -/
theorem plan_constant {n : Nat} (hschedule : t.retrySchedule = none) (hdelay : t.retryDelay = some delay)
    (htimes : t.retryTimes = some (n : Int)) (hpos : 0 < delay) (hretval : t.retryRetval = none) :
    t.Plan schedules (List.replicate n delay) := by
  have hparameters (u : Int × Int) {n : Nat} {t : TaskNode Node} (hschedule : t.retrySchedule = none)
      (hdelay : t.retryDelay = some delay) (htimes : t.retryTimes = some (n : Int)) :
      t.retryParameters u schedules = some (t, delay, (n : Int)) := by
    unfold retryParameters
    rw [hschedule, hdelay, htimes]
  have hnext {times : Int} {t : TaskNode Node} (hschedule : t.retrySchedule = none) :
      t.nextLevel schedules (delay, times) = (t, delay, times) := by
    unfold nextLevel
    rw [hschedule]
  induction n generalizing t with
  | zero =>
    intro u
    have hgone := retry_exhausted (hparameters u hschedule hdelay htimes)
      (by rw [hnext hschedule]; exact .inr rfl)
    exact ⟨congrArg Prod.snd hgone.1, hgone.2⟩
  | succ n ih =>
    apply plan_retried hpos (fun u ↦ ⟨t, _, hparameters u hschedule hdelay htimes, hnext hschedule⟩) hretval
    intro t' hsame hretval'
    exact ih (hsame.schedule.trans hschedule) (hsame.delay.trans hdelay) hsame.times hretval'

/-- The delays of the retries that `levels` allow. -/
def delays (levels : List (Int × Int)) : List Int :=
  levels.flatMap fun l ↦ List.replicate l.2.toNat l.1

/-- The retries left at a level come before what is planned behind it. -/
theorem plan_countdown {n : Nat} {behind : List Int}
    (hbehind : ∀ t' : TaskNode Node, t'.AtLevel name (level + 1) delay 0 → t'.retryRetval = none →
      t'.Plan schedules behind)
    (hdelay : 0 < delay) (h : t.AtLevel name (level + 1) delay n) (hretval : t.retryRetval = none) :
    t.Plan schedules (List.replicate n delay ++ behind) := by
  induction n generalizing t with
  | zero => exact hbehind t h hretval
  | succ n ih =>
    have htimes : ((n + 1 : Nat) : Int) ≠ 0 := by omega
    apply plan_retried hdelay (fun u ↦ ⟨t, _, h.retryParameters u schedules,
      nextLevel_left t schedules delay htimes⟩) hretval
    intro t' hsame hretval'
    have hless : ({ t with retryTimes := some (n : Int) } : TaskNode Node).AtLevel name (level + 1) delay n :=
      ⟨h.schedule, h.level, h.delay, rfl⟩
    exact ih (hless.congr hsame) hretval'

/-- A call that takes a level begins its retries. -/
theorem plan_taken {t₂ : TaskNode Node} {behind : List Int} (hdelay : 0 < delay) (htimes : 0 < times)
    (hworks : ∀ uninitialised, ∃ t₁ retry, t.retryParameters uninitialised schedules = some (t₁, retry) ∧
      t₁.nextLevel schedules retry = (t₂, delay, times))
    (hat : t₂.AtLevel name (level + 1) delay times) (hretval : t.retryRetval = none)
    (hbehind : ∀ t' : TaskNode Node, t'.AtLevel name (level + 1) delay 0 → t'.retryRetval = none →
      t'.Plan schedules behind) :
    t.Plan schedules (List.replicate times.toNat delay ++ behind) := by
  obtain ⟨n, rfl⟩ : ∃ n : Nat, times = ((n + 1 : Nat) : Int) := ⟨(times - 1).toNat, by omega⟩
  rw [Int.toNat_natCast, List.replicate_succ, List.cons_append]
  apply plan_retried hdelay hworks hretval
  intro t' hsame hretval'
  have hless : ({ t₂ with retryTimes := some (n : Int) } : TaskNode Node).AtLevel name (level + 1) delay n :=
    ⟨hat.schedule, hat.level, hat.delay, rfl⟩
  exact plan_countdown hbehind hdelay (hless.congr hsame) hretval'

/-- At the end of a level the levels behind it follow. -/
theorem plan_behind {rest : List (Int × Int)} (hknown : schedules name = some levels)
    (hrest : levels.drop (level + 1) = rest) (hpos : ∀ l ∈ rest, 0 < l.1 ∧ 0 < l.2)
    (h : t.AtLevel name (level + 1) delay 0) (hretval : t.retryRetval = none) :
    t.Plan schedules (delays rest) := by
  have hlevel : t.retryScheduleLevel.getD 0 = level + 1 := congrArg (Option.getD · 0) h.level
  induction rest generalizing level delay t with
  | nil =>
    intro u
    have hnone : levels[t.retryScheduleLevel.getD 0]? = none := by
      rw [hlevel, List.getElem?_eq_none_iff]
      exact List.drop_eq_nil_iff.mp hrest
    have hgone := retry_exhausted (h.retryParameters u schedules) (by
      rw [nextLevel_spent h.schedule, scheduleUpdate_end hknown hnone]
      exact .inl rfl)
    exact ⟨congrArg Prod.snd hgone.1, hgone.2⟩
  | cons next rest ih =>
    obtain ⟨hdelay', htimes'⟩ := hpos next List.mem_cons_self
    have hnext : levels[t.retryScheduleLevel.getD 0]? = some (next.1, next.2) := by
      rw [hlevel, ← List.head?_drop, hrest]
      rfl
    have hdrop : levels.drop (level + 1 + 1) = rest := by
      rw [← List.drop_drop, hrest]
      rfl
    apply plan_taken hdelay' htimes' (fun u ↦ ⟨t, _, h.retryParameters u schedules,
      (nextLevel_spent h.schedule).trans (scheduleUpdate_level hknown hnext (delay, 0))⟩)
      ⟨h.schedule, congrArg (fun level ↦ some (level + 1)) hlevel, rfl, rfl⟩ hretval
    -- the levels behind the next one are planned at its end
    intro t' hat' hretval'
    exact ih hdrop (fun l hl ↦ hpos l (List.mem_cons_of_mem _ hl)) hat' hretval'
      (congrArg (Option.getD · 0) hat'.level)

theorem plan_levels (hschedule : t.retrySchedule = some name) (hknown : schedules name = some levels)
    (hfresh : t.retryScheduleLevel.getD 0 = 0) (hpos : ∀ l ∈ levels, 0 < l.1 ∧ 0 < l.2)
    (hretval : t.retryRetval = none) : t.Plan schedules (delays levels) := by
  cases levels with
  | nil =>
    intro u
    have hparameters := retryParameters_fresh hschedule hfresh u schedules
    have hend : ([] : List (Int × Int))[t.retryScheduleLevel.getD 0]? = none := rfl
    rw [scheduleUpdate_end hknown hend] at hparameters
    have hnext := (nextLevel_spent (t := { t with
        retryScheduleLevel := some (t.retryScheduleLevel.getD 0 + 1) }) hschedule).trans
      (scheduleUpdate_end hknown rfl (0, 0))
    have hgone := retry_exhausted hparameters (by rw [hnext]; exact .inl rfl)
    exact ⟨congrArg Prod.snd hgone.1, hgone.2⟩
  | cons first rest =>
    obtain ⟨hdelay, htimes⟩ := hpos first List.mem_cons_self
    have hlevel : (first :: rest)[t.retryScheduleLevel.getD 0]? = some (first.1, first.2) := by
      rw [hfresh]
      rfl
    -- the first call takes the first level, whatever its variables hold
    have hparameters (u : Int × Int) : t.retryParameters u schedules =
        some (({ t with
          retryScheduleLevel := some (t.retryScheduleLevel.getD 0 + 1)
          retryDelay := some first.1
          retryTimes := some first.2 } : TaskNode Node), first.1, first.2) := by
      rw [retryParameters_fresh hschedule hfresh u schedules, scheduleUpdate_level hknown hlevel]
    apply plan_taken hdelay htimes (fun u ↦ ⟨_, _, hparameters u,
      nextLevel_left _ schedules first.1 (Int.ne_of_gt htimes)⟩)
      ⟨hschedule, congrArg (fun level ↦ some (level + 1)) hfresh, rfl, rfl⟩ hretval
    intro t' hat' hretval'
    exact plan_behind hknown rfl (fun l hl ↦ hpos l (List.mem_cons_of_mem _ hl)) hat' hretval'

end TaskNode

namespace RetryTexts

open SavedWorkflow

/-- The attributes that say where a task stands in its retries. -/
structure SameRetry (a a' : RetryTexts) : Prop where
  schedule : a'.retrySchedule = a.retrySchedule
  level : a'.retryScheduleLevel = a.retryScheduleLevel
  delay : a'.retryDelay = a.retryDelay
  times : a'.retryTimes = a.retryTimes

variable {schedules : String → Option (List (String × String))} {a a' : RetryTexts} {c : RetryCall}

theorem SameRetry.refl (a : RetryTexts) : SameRetry a a := ⟨rfl, rfl, rfl, rfl⟩

theorem SameRetry.scheduleLevel (h : SameRetry a a') : a'.scheduleLevel = a.scheduleLevel := by
  unfold RetryTexts.scheduleLevel
  rw [h.level]

theorem SameRetry.read (h : SameRetry a a') (t t' : TaskNode Node) :
    TaskNode.SameRetry (a.read t) (a'.read t') :=
  ⟨h.schedule, congrArg (Option.map _) h.level, congrArg (Option.map _) h.delay,
    congrArg (Option.map _) h.times⟩

theorem Ready.congr (h : a.Ready schedules) (hsame : SameRetry a a') (hretval : a'.retryRetval = none) :
    a'.Ready schedules := by
  refine ⟨hretval, ?_, ?_, ?_⟩
  · rw [hsame.schedule]
    exact h.schedule
  · rw [hsame.schedule, hsame.scheduleLevel]
    exact h.level
  · unfold Begun
    rw [hsame.schedule, hsame.scheduleLevel, hsame.delay, hsame.times]
    exact h.attributes

theorem read_retval (h : a.retryRetval = none) (t : TaskNode Node) : (a.read t).retryRetval = none :=
  congrArg (Option.map number) h

end RetryTexts

/-! ## Failures of one task -/

/-- A failure: what `retry_task` finds when it is called for the task, and when. -/
structure Failure (Node : Type) where
  call : RetryCall
  now : Int
  state : TextInstance Node

namespace Failure

open SavedWorkflow

variable {id : Nat} {f g : Failure Node} {failures : List (Failure Node)} {a a' : RetryTexts}
variable {schedules : String → Option (List (String × String))} {delays : List Int} {outcome : RetryOutcome}
variable {t : TaskNode Node}

/-- The instance behind the call, and the events that are inserted into the `Retrier`. -/
def after (f : Failure Node) (id : Nat) : Option (TextInstance Node × List (Nat × Int)) :=
  f.state.retryTask f.call f.now id

/-- One event, `delay` seconds ahead, and no error. -/
def Retries (f : Failure Node) (id : Nat) (delay : Int) : Prop :=
  ∃ s, f.after id = some (s, [(id, f.now + delay)]) ∧
    s.workflow.retryingTasks = f.state.workflow.retryingTasks + 1 ∧
    s.workflow.errorTasks = f.state.workflow.errorTasks

/-- No event, and one error. -/
def GivesUp (f : Failure Node) (id : Nat) : Prop :=
  ∃ s, f.after id = some (s, []) ∧ s.workflow.retryingTasks = f.state.workflow.retryingTasks ∧
    s.workflow.errorTasks = f.state.workflow.errorTasks + 1

/-- The call comes back, and what happens from one failure to the next leaves the retry attributes and the
schedules alone. -/
def Follows (id : Nat) (f g : Failure Node) : Prop :=
  g.state.schedules = f.state.schedules ∧ g.state.workflow.doc.task? id ≠ none ∧
    (g.state.attributes id).retryRetval = none ∧
    ∃ s events, f.after id = some (s, events) ∧ (s.attributes id).SameRetry (g.state.attributes id)

/-- The failures are retried with these delays, and the one behind them is not. -/
def Sequence (id : Nat) (failures : List (Failure Node)) (delays : List Int) : Prop :=
  (∀ (i : Nat) (f : Failure Node) (delay : Int), failures[i]? = some f → delays[i]? = some delay →
    f.Retries id delay) ∧
    ∀ f : Failure Node, failures[delays.length]? = some f → f.GivesUp id

/-- A task with these attributes begins, or goes on, to fail. -/
def Begins (id : Nat) (a : RetryTexts) (schedules : String → Option (List (String × String)))
    (f : Failure Node) : Prop :=
  f.state.workflow.doc.task? id ≠ none ∧ f.state.attributes id = a ∧ f.state.schedules = schedules

theorem sequence_nil (id : Nat) (delays : List Int) : Sequence id ([] : List (Failure Node)) delays := by
  constructor
  · intro i f delay hf
    rw [List.getElem?_nil] at hf
    cases hf
  · intro f hf
    rw [List.getElem?_nil] at hf
    cases hf

theorem after_eq (hfind : f.state.workflow.doc.task? id = some t) (ha : f.state.attributes id = a)
    (hretry : a.retry f.call f.state.schedules t.retval = some (a', outcome)) :
    f.after id = some (
      { f.state with
        attributes := Function.update f.state.attributes id a'
        workflow := f.state.workflow.retried id f.state.workflow.doc outcome.kind },
      (outcome.delay?.map fun delay ↦ (id, f.now + delay)).toList) :=
  TextInstance.retryTask_eq f.now hfind (by rw [ha]; exact hretry)

theorem retries_of_planned {delay : Int} (hfind : f.state.workflow.doc.task? id = some t)
    (ha : f.state.attributes id = a)
    (hretry : a.retry f.call f.state.schedules t.retval = some (a', .planned delay)) : f.Retries id delay :=
  ⟨_, after_eq hfind ha hretry, UInt32.ofInt_add _ 1, rfl⟩

theorem givesUp_of_exhausted (hfind : f.state.workflow.doc.task? id = some t)
    (ha : f.state.attributes id = a)
    (hretry : a.retry f.call f.state.schedules t.retval = some (a', .exhausted)) : f.GivesUp id :=
  ⟨_, after_eq hfind ha hretry, rfl, UInt32.ofInt_add _ 1⟩

/-- A plan is carried out over any sequence of failures. -/
theorem sequence_of_plan (hchain : failures.IsChain (Follows id))
    (hfirst : ∀ f ∈ failures.head?, f.Begins id a schedules) (hready : a.Ready schedules)
    (hplan : ∀ t : TaskNode Node, (a.read t).Plan (readSchedules schedules) delays) :
    Sequence id failures delays := by
  induction failures generalizing a delays with
  | nil => exact sequence_nil id delays
  | cons f failures ih =>
    obtain ⟨hfind, ha, hschedules⟩ := hfirst f rfl
    obtain ⟨t, hfind⟩ := Option.ne_none_iff_exists'.mp hfind
    obtain ⟨a', outcome, hretry, hready'⟩ := hready.call f.call t.retval
    obtain ⟨hread, hdelay?⟩ := RetryTexts.retry_read (t := t) hretry
    rw [← hschedules] at hretry
    cases delays with
    | nil =>
      obtain ⟨hgone, -⟩ := hplan t f.call.unset
      rw [hread] at hgone
      constructor
      · intro i f' delay' _ hdelay'
        rw [List.getElem?_nil] at hdelay'
        cases hdelay'
      · intro f' hf'
        rw [List.length_nil, List.getElem?_cons_zero, Option.some.injEq] at hf'
        rw [← hf']
        cases outcome with
        | exhausted => exact givesUp_of_exhausted hfind ha hretry
        | passedOver => cases hgone
        | planned delay => cases hgone
    | cons delay delays =>
      obtain ⟨-, hdelay, hlater⟩ := hplan t f.call.unset
      rw [hread] at hlater
      rw [hdelay?] at hdelay
      obtain rfl : outcome = .planned delay := by
        cases outcome with
        | exhausted => cases hdelay
        | passedOver => cases hdelay
        | planned delay' => exact congrArg RetryOutcome.planned (Option.some.inj hdelay)
      have hone : f.Retries id delay := retries_of_planned hfind ha hretry
      -- the rest of the plan is carried out by the later failures
      have hrest : Sequence id failures delays := by
        cases failures with
        | nil => exact sequence_nil id delays
        | cons g failures =>
          obtain ⟨⟨hsame, hfind', hretval, s, events, hafter, hattributes⟩, hchain⟩ :=
            List.isChain_cons_cons.mp hchain
          -- the task of the next failure is the one this call has left, up to other attributes
          have ha' : s.attributes id = a' := by
            rw [after_eq hfind ha hretry, Option.some.injEq, Prod.mk.injEq] at hafter
            rw [← hafter.1]
            exact Function.update_self ..
          rw [ha'] at hattributes
          apply ih hchain _ ((hready' ⟨delay, rfl⟩).congr hattributes hretval)
          · intro t'
            exact hlater _ (hattributes.read t t') (RetryTexts.read_retval hretval t')
          · rintro g' hg'
            cases hg'
            exact ⟨hfind', rfl, hsame.trans hschedules⟩
      constructor
      · intro i f' delay' hf' hdelay'
        cases i with
        | zero =>
          rw [List.getElem?_cons_zero, Option.some.injEq] at hf' hdelay'
          rw [← hf', ← hdelay']
          exact hone
        | succ i =>
          rw [List.getElem?_cons_succ] at hf' hdelay'
          exact hrest.1 i f' delay' hf' hdelay'
      · intro f' hf'
        rw [List.length_cons, List.getElem?_cons_succ] at hf'
        exact hrest.2 f' hf'

/-- The retries of a task that always fails.  Without a schedule they are as many as `retry_times` says,
each `retry_delay` seconds ahead; with one, each level has its turn.  Then the task is an error. -/
theorem sequence_spec (id : Nat) (failures : List (Failure Node)) (a : RetryTexts)
    (schedules : String → Option (List (String × String))) (hchain : failures.IsChain (Follows id))
    (hfirst : ∀ f ∈ failures.head?, f.Begins id a schedules) (hretval : a.retryRetval = none) :
    (∀ (delay times : String) (d n : Int), a.retrySchedule = none → a.scheduleLevel ≠ none →
      a.retryDelay = some delay → a.retryTimes = some times → parseInt delay = some d →
      parseInt times = some n → 0 < d → 0 < n → Sequence id failures (List.replicate n.toNat d)) ∧
    ∀ (name : String) (levels : List (String × String)), a.retrySchedule = some name →
      a.scheduleLevel = some 0 → Quotable name → schedules name = some levels →
      levels.length + 1 < 2 ^ 31 →
      (∀ l ∈ levels, ∃ d n, parseInt l.1 = some d ∧ parseInt l.2 = some n ∧ 0 < d ∧ 0 < n) →
      Sequence id failures (levels.flatMap fun l ↦ List.replicate (number l.2).toNat (number l.1)) := by
  constructor
  · intro delay times d n hschedule hlevel hdelay htimes hd hn hdpos hnpos
    obtain ⟨level, hlevel⟩ := Option.ne_none_iff_exists'.mp hlevel
    have hready : a.Ready schedules := by
      refine ⟨hretval, fun name h ↦ ?_, ⟨level, hlevel, fun name levels h ↦ ?_⟩, fun _ ↦ ?_⟩
      · rw [hschedule] at h
        cases h
      · rw [hschedule] at h
        cases h
      · exact ⟨delay, times, hdelay, htimes, ⟨d, hd⟩, n, hn, Int.le_of_lt hnpos⟩
    -- the calls on texts insert what the plan of the parsed attributes says
    apply sequence_of_plan hchain hfirst hready
    intro t
    obtain ⟨n, rfl⟩ : ∃ m : Nat, n = m := ⟨n.toNat, by omega⟩
    rw [Int.toNat_natCast]
    apply TaskNode.plan_constant hschedule _ _ hdpos (RetryTexts.read_retval hretval t)
    · show a.retryDelay.map number = some d
      rw [hdelay, Option.map_some, number_of_parseInt hd]
    · show a.retryTimes.map number = _
      rw [htimes, Option.map_some, number_of_parseInt hn]
  · intro name levels hschedule hfresh hquotable hknown hcount hpos
    have hready : a.Ready schedules := by
      refine ⟨hretval, fun name' h ↦ ?_, ⟨0, hfresh, fun _ _ _ _ ↦ ⟨Int.le_refl 0, by omega⟩⟩, fun h ↦ ?_⟩
      · obtain rfl := Option.some.inj (hschedule.symm.trans h)
        refine ⟨levels, hquotable, hknown, hcount, fun l hl ↦ ?_⟩
        obtain ⟨d, n, hd, hn, -, hnpos⟩ := hpos l hl
        exact ⟨⟨d, hd⟩, n, hn, Int.le_of_lt hnpos⟩
      · rcases h with hnone | hbegun
        · rw [hschedule] at hnone
          cases hnone
        · exact absurd hfresh hbegun
    apply sequence_of_plan hchain hfirst hready
    intro t
    have hread : readSchedules schedules name = some (levels.map readLevel) := congrArg (Option.map _) hknown
    have hlevels : (levels.flatMap fun l ↦ List.replicate (number l.2).toNat (number l.1)) =
        TaskNode.delays (levels.map readLevel) := by
      unfold TaskNode.delays
      rw [List.flatMap_map]
      rfl
    rw [hlevels]
    apply TaskNode.plan_levels hschedule hread (RetryTexts.getD_read hfresh t) _
      (RetryTexts.read_retval hretval t)
    intro l hl
    obtain ⟨l', hl', rfl⟩ := List.mem_map.mp hl
    obtain ⟨d, n, hd, hn, hdpos, hnpos⟩ := hpos l' hl'
    unfold readLevel
    rw [number_of_parseInt hd, number_of_parseInt hn]
    exact ⟨hdpos, hnpos⟩

/-- A task that fails every 100 seconds, while nothing else happens. -/
def everyTime (c : RetryCall) (id : Nat) : Nat → Int → TextInstance Node → List (Failure Node)
  | 0, _, _ => []
  | n + 1, now, s => ⟨c, now, s⟩ ::
      match s.retryTask c now id with
      | none => []
      | some (s, _) => everyTime c id n (now + 100) s

/-- A call changes neither `retry_retval` nor what is outside of the retry attributes. -/
theorem after_keeps {s : TextInstance Node} {events : List (Nat × Int)}
    (hfind : f.state.workflow.doc.task? id ≠ none) (hretval : (f.state.attributes id).retryRetval = none)
    (h : f.after id = some (s, events)) :
    s.schedules = f.state.schedules ∧ s.workflow.doc.task? id ≠ none ∧ (s.attributes id).retryRetval = none := by
  obtain ⟨t, hfind⟩ := Option.ne_none_iff_exists'.mp hfind
  cases hretry : (f.state.attributes id).retry f.call f.state.schedules t.retval with
  | none =>
    unfold after TextInstance.retryTask at h
    rw [hfind] at h
    dsimp only at h
    rw [hretry] at h
    cases h
  | some found =>
    rcases found with ⟨a', outcome⟩
    rw [after_eq hfind rfl hretry, Option.some.injEq, Prod.mk.injEq] at h
    rw [← h.1]
    refine ⟨rfl, ?_, ?_⟩
    · cases outcome <;> exact hfind ▸ nofun
    · have hread := (RetryTexts.retry_read (t := t) hretry).1
      have hsame := TaskNode.sameBut_retry f.call.unset (readSchedules f.state.schedules)
        ((f.state.attributes id).read t)
      rw [hread] at hsame
      show (Function.update f.state.attributes id a' id).retryRetval = none
      rw [Function.update_self]
      exact Option.map_eq_none_iff.mp (hsame.retryRetval.trans (RetryTexts.read_retval hretval t))

theorem everyTime_head {c : RetryCall} {n : Nat} {now : Int} {s : TextInstance Node}
    (hfind : s.workflow.doc.task? id ≠ none) :
    ∀ f ∈ (everyTime c id n now s).head?, f.Begins id (s.attributes id) s.schedules := by
  intro f hf
  cases n with
  | zero => cases hf
  | succ n =>
    cases hf
    exact ⟨hfind, rfl, rfl⟩

theorem everyTime_follows (c : RetryCall) (n : Nat) (now : Int) {s : TextInstance Node}
    (hfind : s.workflow.doc.task? id ≠ none) (hretval : (s.attributes id).retryRetval = none) :
    (everyTime c id n now s).IsChain (Follows id) := by
  induction n generalizing now s with
  | zero => exact .nil
  | succ n ih =>
    unfold everyTime
    cases hafter : s.retryTask c now id with
    | none => exact .singleton _
    | some found =>
      rcases found with ⟨s', events⟩
      obtain ⟨hschedules, hfind', hretval'⟩ := after_keeps (f := ⟨c, now, s⟩) hfind hretval hafter
      dsimp only
      cases n with
      | zero => exact .singleton _
      | succ n =>
        refine .cons_cons ?_ (ih (now + 100) hfind' hretval')
        exact ⟨hschedules, hfind', hretval', s', events, hafter, RetryTexts.SameRetry.refl _⟩

/-- A task, the only one of its instance, that has failed. -/
def failed (levels : List (String × String)) (a : RetryTexts) : TextInstance Unit where
  workflow :=
    { doc :=
        { jobs := []
          tasks := [{
            id := 1
            job := 0
            name := "fetch"
            queue := "default"
            loop := none
            status := some .terminated
            retval := some 2
            error := none
            details := none
            retrySchedule := none
            retryScheduleLevel := none
            retryDelay := none
            retryTimes := none
            retryRetval := none
            content := []
            outputs := [] }]
          schedules := fun _ ↦ none
          nextId := 2 }
      isCancelling := false
      runningTally := 0
      retryingTally := 0
      errorTally := 0
      queued := []
      retrier := []
      trace := [] }
  attributes := fun _ ↦ a
  schedules := fun name ↦ if name = "slowly" then some levels else none

/-- A call whose variables hold 0, and whose warnings are logged. -/
def logged : RetryCall := ⟨(0, 0), (true, true)⟩

/-- Two levels with one retry each, and two retries without a schedule. -/
theorem sequence_everyTime :
    Sequence 1 (everyTime logged 1 3 0
      (failed [("5", "1"), ("60", "1")] ⟨some "slowly", none, none, none, none⟩)) [5, 60] ∧
    Sequence 1 (everyTime logged 1 3 0
      (failed [] ⟨none, none, some "10", some "2", none⟩)) [10, 10] := by
  constructor
  · have hfails := sequence_spec 1 _ _ _ (everyTime_follows logged 3 0
      (s := failed [("5", "1"), ("60", "1")] ⟨some "slowly", none, none, none, none⟩) nofun rfl)
      (everyTime_head nofun) rfl
    have hdelays : ([("5", "1"), ("60", "1")].flatMap fun l ↦
        List.replicate (number l.2).toNat (number l.1)) = [5, 60] := by decide
    rw [← hdelays]
    apply hfails.2 "slowly" [("5", "1"), ("60", "1")] rfl rfl (by decide) rfl (by decide)
    intro l hl
    rcases List.mem_cons.mp hl with rfl | hl
    · exact ⟨5, 1, by decide, by decide, by decide, by decide⟩
    · obtain rfl := List.mem_singleton.mp hl
      exact ⟨60, 1, by decide, by decide, by decide, by decide⟩
  · have hfails := sequence_spec 1 _ _ _ (everyTime_follows logged 3 0
      (s := failed [] ⟨none, none, some "10", some "2", none⟩) nofun rfl) (everyTime_head nofun) rfl
    exact hfails.1 "10" "2" 10 2 rfl nofun rfl rfl (by decide) (by decide) (by decide) (by decide)

theorem not_sequence_of_givesUp {delay : Int} (h : f.GivesUp id) : ¬Sequence id [f] (delay :: delays) := by
  intro hsequence
  obtain ⟨s, hnone, -⟩ := h
  obtain ⟨s', hone, -⟩ := hsequence.1 0 f delay rfl rfl
  rw [hnone, Option.some.injEq, Prod.mk.injEq] at hone
  exact List.cons_ne_nil _ _ hone.2.symm

theorem not_sequence_of_raised {delay : Int} (h : f.after id = none) :
    ¬Sequence id [f] (delay :: delays) := by
  intro hsequence
  obtain ⟨s, hone, -⟩ := hsequence.1 0 f delay rfl rfl
  rw [h] at hone
  cases hone

/-- Levels that an `int` does not count. -/
theorem after_uncounted (levels : List (String × String)) (hmany : 2 ^ 31 ≤ levels.length) :
    (⟨logged, 0, failed levels ⟨some "slowly", none, none, none, none⟩⟩ : Failure Unit).after 1 = none := by
  have hupdate : RetryTexts.scheduleUpdate true (fun name ↦ if name = "slowly" then some levels else none)
      ⟨some "slowly", none, none, none, none⟩ "slowly" (0, 0) = none := by
    unfold RetryTexts.scheduleUpdate
    rw [if_neg (by decide)]
    exact if_pos hmany
  have hretry : RetryTexts.retry logged (fun name ↦ if name = "slowly" then some levels else none)
      ⟨some "slowly", none, none, none, none⟩ (some 2) = none := by
    unfold RetryTexts.retry
    rw [Option.bind_eq_none_iff]
    intro found hfound
    have hparameters := (congrArg (Option.map some) hupdate).symm.trans hfound
    cases hparameters
  exact congrArg (Option.map _) hretry

/-- A delay of 2^32 seconds is cut to 0: the task is an error at its first failure, with three retries left.
Where its level is no number, the name of its schedule has an apostrophe or the levels are too many for an
`int`, the call for the first failure does not come back. -/
theorem not_sequence_delayCut :
    (∃ f : Failure Unit, f.state = failed [] ⟨none, none, some "4294967296", some "3", none⟩ ∧
      f.GivesUp 1 ∧ ¬Sequence 1 [f] (List.replicate 3 4294967296)) ∧
    (∃ f : Failure Unit, f.state = failed [] ⟨none, some "x", some "10", some "3", none⟩ ∧
      f.after 1 = none ∧ ¬Sequence 1 [f] (List.replicate 3 10)) ∧
    (∃ f : Failure Unit, f.state = { failed [] ⟨some "it's", none, none, none, none⟩ with
        schedules := fun name ↦ if name = "it's" then some [("5", "3")] else none } ∧
      f.after 1 = none ∧ ¬Sequence 1 [f] (List.replicate 3 5)) ∧
    ∃ f : Failure Unit,
      f.state = failed (List.replicate (2 ^ 31) ("5", "1")) ⟨some "slowly", none, none, none, none⟩ ∧
        f.after 1 = none ∧ ¬Sequence 1 [f] (List.replicate (2 ^ 31) 5) := by
  have hcut : (⟨logged, 0, failed [] ⟨none, none, some "4294967296", some "3", none⟩⟩ :
      Failure Unit).GivesUp 1 := ⟨_, rfl, rfl, rfl⟩
  have hlevel : (⟨logged, 0, failed [] ⟨none, some "x", some "10", some "3", none⟩⟩ :
      Failure Unit).after 1 = none := rfl
  have hquote : (⟨logged, 0, { failed [] ⟨some "it's", none, none, none, none⟩ with
      schedules := fun name ↦ if name = "it's" then some [("5", "3")] else none }⟩ :
      Failure Unit).after 1 = none := rfl
  have hmany := after_uncounted (List.replicate (2 ^ 31) ("5", "1")) (Nat.le_of_eq List.length_replicate.symm)
  refine ⟨⟨_, rfl, hcut, not_sequence_of_givesUp hcut⟩, ⟨_, rfl, hlevel, not_sequence_of_raised hlevel⟩,
    ⟨_, rfl, hquote, not_sequence_of_raised hquote⟩, _, rfl, hmany, ?_⟩
  have hdelays : List.replicate (2 ^ 31) (5 : Int) = 5 :: List.replicate (2 ^ 31 - 1) 5 := List.replicate_succ
  rw [hdelays]
  exact not_sequence_of_raised hmany

end Failure

end EvQueue
