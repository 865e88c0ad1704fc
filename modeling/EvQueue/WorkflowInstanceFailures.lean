import EvQueue.WorkflowInstanceRetrySequence

/-!
# WorkflowInstanceFailures — which failures are counted

A failed task waits for a retry and is one of `retrying_tasks`, or it is an error and one of `error_tasks`.
`TaskStop` counts it as neither while the instance is cancelled, when `retry_retval` asks for another return
value than the one that the task has failed with, and when something that `retry_task` does raises.
-/

namespace EvQueue

open SavedWorkflow

variable {Node : Type}

namespace RetryTexts

variable {c : RetryCall} {logged : Bool} {schedules : String → Option (List (String × String))}
variable {a a' a₁ a₂ : RetryTexts} {name : String} {levels : List (String × String)}
variable {level delay times : Int} {retry retry' : Int × Int}

/-! ## What decides about a task -/

/-- A level of a schedule: its delay and times, or 0 behind the last one. -/
inductive LevelIs (levels : List (String × String)) (level : Nat) : Int → Int → Prop
  | known {retryDelay retryTimes : String} {delay times : Int}
      (hlevel : levels[level]? = some (retryDelay, retryTimes)) (hdelay : parseInt retryDelay = some delay)
      (htimes : parseInt retryTimes = some times) : LevelIs levels level delay times
  | behind (hbehind : levels[level]? = none) : LevelIs levels level 0 0

/-- The attributes `retry_delay` and `retry_times` are there, and are numbers. -/
def HasAttributes (a : RetryTexts) (delay times : Int) : Prop :=
  ∃ retryDelay retryTimes, a.retryDelay = some retryDelay ∧ a.retryTimes = some retryTimes ∧
    parseInt retryDelay = some delay ∧ parseInt retryTimes = some times

/-- One of them is not there; `retry_delay` is read first. -/
def LacksAttributes (a : RetryTexts) : Prop :=
  a.retryDelay = none ∨
    a.retryTimes = none ∧ ∃ retryDelay delay, a.retryDelay = some retryDelay ∧ parseInt retryDelay = some delay

/-- The delay and the times that decide about a task, where nothing raises on the way to them.  A level
without times gives way to the next one. -/
inductive Decides (c : RetryCall) (schedules : String → Option (List (String × String))) (a : RetryTexts) :
    Int → Int → Prop
  | lacking {level : Int} (hlevel : a.scheduleLevel = some level)
      (hbegun : a.retrySchedule = none ∨ level ≠ 0) (hlacks : a.LacksAttributes) : Decides c schedules a 0 0
  /-- The task has no schedule, or times left at its level. -/
  | left {level delay times : Int} (hlevel : a.scheduleLevel = some level)
      (hbegun : a.retrySchedule = none ∨ level ≠ 0) (hhas : a.HasAttributes delay times)
      (hleft : a.retrySchedule = none ∨ times ≠ 0) : Decides c schedules a delay times
  /-- Its level is used up. -/
  | next {name : String} {levels : List (String × String)} {level spent delay times : Int}
      (hschedule : a.retrySchedule = some name) (hquotable : Quotable name)
      (hknown : schedules name = some levels) (hcount : levels.length < 2 ^ 31)
      (hlevel : a.scheduleLevel = some level) (hrange : 0 < level ∧ level ≠ 2 ^ 31 - 1)
      (hhas : a.HasAttributes spent 0) (hnext : LevelIs levels level.toNat delay times) :
      Decides c schedules a delay times
  /-- Its schedule is not in the document: `schedule_update` sets nothing. -/
  | unknownNext {name : String} {level delay : Int} (hschedule : a.retrySchedule = some name)
      (hquotable : Quotable name) (hunknown : schedules name = none) (hlogged : c.logged.2 = true)
      (hlevel : a.scheduleLevel = some level) (hbegun : level ≠ 0) (hhas : a.HasAttributes delay 0) :
      Decides c schedules a delay 0
  /-- It is at no level yet. -/
  | first {name : String} {levels : List (String × String)} {delay times : Int}
      (hschedule : a.retrySchedule = some name) (hquotable : Quotable name)
      (hknown : schedules name = some levels) (hcount : levels.length < 2 ^ 31)
      (hlevel : a.scheduleLevel = some 0) (hfirst : LevelIs levels 0 delay times) (htimes : times ≠ 0) :
      Decides c schedules a delay times
  | second {name : String} {levels : List (String × String)} {passed delay times : Int}
      (hschedule : a.retrySchedule = some name) (hquotable : Quotable name)
      (hknown : schedules name = some levels) (hcount : levels.length < 2 ^ 31)
      (hlevel : a.scheduleLevel = some 0) (hfirst : LevelIs levels 0 passed 0)
      (hsecond : LevelIs levels 1 delay times) :
      Decides c schedules a delay times
  | unknownFirst {name : String} (hschedule : a.retrySchedule = some name) (hquotable : Quotable name)
      (hunknown : schedules name = none) (hlevel : a.scheduleLevel = some 0) (hlogged : c.logged.1 = true)
      (hagain : c.unset.2 = 0 → c.logged.2 = true) : Decides c schedules a c.unset.1 c.unset.2

/-! ## What a call has found before it looks at `retry_retval` -/

def Finds (c : RetryCall) (schedules : String → Option (List (String × String))) (a : RetryTexts)
    (delay times : Int) : Prop :=
  (a.retryParameters c schedules = some none ∧ delay = 0 ∧ times = 0) ∨
    ∃ a₁ retry a₂, a.retryParameters c schedules = some (some (a₁, retry)) ∧
      a₁.nextLevel c schedules retry = some (a₂, delay, times)

/-- `schedule_update` takes the level behind the one of the task. -/
theorem scheduleUpdate_level (hquotable : Quotable name) (hknown : schedules name = some levels)
    (hcount : levels.length < 2 ^ 31) (hlevel : a.scheduleLevel = some level)
    (hrange : 0 ≤ level ∧ level ≠ 2 ^ 31 - 1) (logged : Bool) (retry : Int × Int)
    (hnext : LevelIs levels level.toNat delay times) :
    ∃ a', a.scheduleUpdate logged schedules name retry = some (a', delay, times) ∧
      a'.retrySchedule = a.retrySchedule ∧ a'.scheduleLevel = some (level + 1) := by
  have hint := scheduleLevel_range hlevel
  cases hnext with
  | known hnext hdelay htimes =>
    exact ⟨_, scheduleUpdate_iff.mpr ⟨hquotable, .taken hknown hcount hlevel hrange hnext hdelay htimes⟩, rfl,
      scheduleLevel_toString (by omega) rfl⟩
  | behind hnone =>
    exact ⟨_, scheduleUpdate_iff.mpr ⟨hquotable, .behind hknown hcount hlevel hrange hnone⟩, rfl,
      scheduleLevel_toString (by omega) rfl⟩

/-- It does nothing else, where it knows the schedule. -/
theorem Updates.of_known (h : Updates logged schedules name retry a a' retry')
    (hknown : schedules name = some levels) :
    levels.length < 2 ^ 31 ∧ ∃ level, a.scheduleLevel = some level ∧ (0 ≤ level ∧ level ≠ 2 ^ 31 - 1) ∧
      LevelIs levels level.toNat retry'.1 retry'.2 ∧ a'.scheduleLevel = some (level + 1) := by
  cases h with
  | unknown hunknown =>
    rw [hknown] at hunknown
    cases hunknown
  | behind hknown' hcount hlevel hrange hbehind =>
    obtain rfl := Option.some.inj (hknown.symm.trans hknown')
    have hint := scheduleLevel_range hlevel
    exact ⟨hcount, _, hlevel, hrange, .behind hbehind, scheduleLevel_toString (by omega) rfl⟩
  | taken hknown' hcount hlevel hrange htaken hdelay htimes =>
    obtain rfl := Option.some.inj (hknown.symm.trans hknown')
    have hint := scheduleLevel_range hlevel
    exact ⟨hcount, _, hlevel, hrange, .known htaken hdelay htimes, scheduleLevel_toString (by omega) rfl⟩

theorem Updates.unknown_eq (h : Updates logged schedules name retry a a' retry')
    (hunknown : schedules name = none) : logged = true ∧ a' = a ∧ retry' = retry := by
  cases h with
  | unknown _ hlogged => exact ⟨hlogged, rfl, rfl⟩
  | behind hknown =>
    rw [hunknown] at hknown
    cases hknown
  | taken hknown =>
    rw [hunknown] at hknown
    cases hknown

theorem Updates.same (h : Updates logged schedules name retry a a' retry') :
    a'.retrySchedule = a.retrySchedule ∧ a'.retryRetval = a.retryRetval := by
  cases h <;> exact ⟨rfl, rfl⟩

theorem retryAttributes_some : a.retryAttributes = some (some (delay, times)) ↔ a.HasAttributes delay times := by
  unfold retryAttributes
  constructor
  · intro h
    split at h
    · cases h
    rename_i retryDelay hdelay
    obtain ⟨delay', hreadDelay, h⟩ := Option.bind_eq_some_iff.mp h
    split at h
    · cases h
    rename_i retryTimes htimes
    obtain ⟨times', hreadTimes, h⟩ := Option.map_eq_some_iff.mp h
    cases h
    exact ⟨retryDelay, retryTimes, hdelay, htimes, hreadDelay, hreadTimes⟩
  · rintro ⟨retryDelay, retryTimes, hdelay, htimes, hreadDelay, hreadTimes⟩
    rw [hdelay, htimes]
    dsimp only
    rw [hreadDelay, hreadTimes]
    rfl

theorem retryAttributes_none : a.retryAttributes = some none ↔ a.LacksAttributes := by
  unfold retryAttributes
  constructor
  · intro h
    split at h
    · rename_i hdelay
      exact .inl hdelay
    rename_i retryDelay hdelay
    obtain ⟨delay', hreadDelay, h⟩ := Option.bind_eq_some_iff.mp h
    split at h
    · rename_i htimes
      exact .inr ⟨htimes, retryDelay, delay', hdelay, hreadDelay⟩
    obtain ⟨times', -, h⟩ := Option.map_eq_some_iff.mp h
    cases h
  · rintro (hdelay | ⟨htimes, retryDelay, delay, hdelay, hreadDelay⟩)
    · rw [hdelay]
    · rw [hdelay, htimes]
      dsimp only
      rw [hreadDelay]
      rfl

variable (c schedules) in
theorem parameters_attributes (hlevel : a.scheduleLevel = some level)
    (hbegun : a.retrySchedule = none ∨ level ≠ 0) :
    a.retryParameters c schedules = a.retryAttributes.map (Option.map fun retry ↦ (a, retry)) := by
  unfold retryParameters
  rw [hlevel, Option.bind_some]
  rcases hbegun with hnone | hne
  · rw [hnone]
  · rw [decide_eq_false hne]
    cases a.retrySchedule <;> rfl

variable (c schedules) in
theorem parameters_fresh (hschedule : a.retrySchedule = some name) (hlevel : a.scheduleLevel = some 0) :
    a.retryParameters c schedules =
      (a.scheduleUpdate c.logged.1 schedules name c.unset).map some := by
  unfold retryParameters
  rw [hlevel, hschedule]
  rfl

theorem nextLevel_keeps (h : a.retrySchedule = none ∨ retry.2 ≠ 0) :
    a.nextLevel c schedules retry = some (a, retry) := by
  unfold nextLevel
  cases hschedule : a.retrySchedule with
  | none => rfl
  | some name =>
    rw [hschedule] at h
    exact if_neg (h.resolve_left nofun)

theorem nextLevel_spent (hschedule : a.retrySchedule = some name) (hspent : retry.2 = 0) :
    a.nextLevel c schedules retry = a.scheduleUpdate c.logged.2 schedules name retry := by
  unfold nextLevel
  rw [hschedule]
  exact if_pos hspent

theorem Decides.finds (h : Decides c schedules a delay times) : Finds c schedules a delay times := by
  cases h with
  | lacking hlevel hbegun hlacks =>
    refine .inl ⟨?_, rfl, rfl⟩
    rw [parameters_attributes c schedules hlevel hbegun, retryAttributes_none.mpr hlacks]
    rfl
  | left hlevel hbegun hhas hleft =>
    refine .inr ⟨a, (delay, times), a, ?_, nextLevel_keeps hleft⟩
    rw [parameters_attributes c schedules hlevel hbegun, retryAttributes_some.mpr hhas]
    rfl
  | @next name levels level spent _ _ hschedule hquotable hknown hcount hlevel hrange hhas hnext =>
    obtain ⟨a₂, hupdate, -⟩ :=
      scheduleUpdate_level hquotable hknown hcount hlevel (by omega) c.logged.2 (spent, 0) hnext
    refine .inr ⟨a, (spent, 0), a₂, ?_, (nextLevel_spent hschedule rfl).trans hupdate⟩
    rw [parameters_attributes c schedules hlevel (.inr (by omega)), retryAttributes_some.mpr hhas]
    rfl
  | unknownNext hschedule hquotable hunknown hlogged hlevel hbegun hhas =>
    refine .inr ⟨a, (delay, 0), a, ?_, (nextLevel_spent hschedule rfl).trans ?_⟩
    · rw [parameters_attributes c schedules hlevel (.inr hbegun), retryAttributes_some.mpr hhas]
      rfl
    · exact scheduleUpdate_iff.mpr ⟨hquotable, .unknown hunknown hlogged⟩
  | first hschedule hquotable hknown hcount hlevel hfirst htimes =>
    obtain ⟨a₁, hupdate, -⟩ :=
      scheduleUpdate_level hquotable hknown hcount hlevel (by decide) c.logged.1 c.unset hfirst
    refine .inr ⟨a₁, (delay, times), a₁, ?_, nextLevel_keeps (.inr htimes)⟩
    rw [parameters_fresh c schedules hschedule hlevel, hupdate]
    rfl
  | @second name levels passed _ _ hschedule hquotable hknown hcount hlevel hfirst hsecond =>
    obtain ⟨a₁, hupdate, hsame, hone⟩ :=
      scheduleUpdate_level hquotable hknown hcount hlevel (by decide) c.logged.1 c.unset hfirst
    obtain ⟨a₂, hupdate', -⟩ :=
      scheduleUpdate_level hquotable hknown hcount hone (by decide) c.logged.2 (passed, 0) hsecond
    refine .inr ⟨a₁, (passed, 0), a₂, ?_, (nextLevel_spent (hsame.trans hschedule) rfl).trans hupdate'⟩
    rw [parameters_fresh c schedules hschedule hlevel, hupdate]
    rfl
  | unknownFirst hschedule hquotable hunknown hlevel hlogged hagain =>
    refine .inr ⟨a, c.unset, a, ?_, ?_⟩
    · rw [parameters_fresh c schedules hschedule hlevel,
        scheduleUpdate_iff.mpr ⟨hquotable, .unknown hunknown hlogged⟩]
      rfl
    · by_cases hspent : c.unset.2 = 0
      · exact (nextLevel_spent hschedule hspent).trans
          (scheduleUpdate_iff.mpr ⟨hquotable, .unknown hunknown (hagain hspent)⟩)
      · exact nextLevel_keeps (.inr hspent)

theorem Finds.decides (h : Finds c schedules a delay times) : Decides c schedules a delay times := by
  obtain ⟨level, hlevel⟩ : ∃ level, a.scheduleLevel = some level := by
    apply Option.ne_none_iff_exists'.mp
    intro hnone
    unfold Finds retryParameters at h
    rw [hnone] at h
    rcases h with ⟨h, -⟩ | ⟨_, _, _, h, -⟩ <;> cases h
  by_cases hbegun : a.retrySchedule = none ∨ level ≠ 0
  · -- the delay and the times are those of the attributes
    have hparameters := parameters_attributes c schedules hlevel hbegun
    rcases h with ⟨hnone, rfl, rfl⟩ | ⟨a₁, ⟨spent, all⟩, a₂, hsome, hnext⟩
    · rw [hparameters] at hnone
      obtain ⟨found, hfound, heq⟩ := Option.map_eq_some_iff.mp hnone
      rw [Option.map_eq_none_iff.mp heq] at hfound
      exact .lacking hlevel hbegun (retryAttributes_none.mp hfound)
    · rw [hparameters] at hsome
      obtain ⟨found, hfound, heq⟩ := Option.map_eq_some_iff.mp hsome
      obtain ⟨retry, rfl, heq⟩ := Option.map_eq_some_iff.mp heq
      cases heq
      have hhas := retryAttributes_some.mp hfound
      by_cases hleft : a.retrySchedule = none ∨ all ≠ 0
      · rw [nextLevel_keeps hleft] at hnext
        cases hnext
        exact .left hlevel hbegun hhas hleft
      · rw [not_or, not_not] at hleft
        obtain ⟨name, hschedule⟩ := Option.ne_none_iff_exists'.mp hleft.1
        obtain rfl := hleft.2
        rw [nextLevel_spent hschedule rfl] at hnext
        obtain ⟨hquotable, hupdates⟩ := scheduleUpdate_iff.mp hnext
        have hne := hbegun.resolve_left hleft.1
        cases hknown : schedules name with
        | none =>
          obtain ⟨hlogged, -, heq⟩ := hupdates.unknown_eq hknown
          cases heq
          exact .unknownNext hschedule hquotable hknown hlogged hlevel hne hhas
        | some levels =>
          obtain ⟨hcount, level', hlevel', hrange, hnext, -⟩ := hupdates.of_known hknown
          obtain rfl := Option.some.inj (hlevel.symm.trans hlevel')
          exact .next hschedule hquotable hknown hcount hlevel (by omega) hhas hnext
  · rw [not_or, not_not] at hbegun
    obtain ⟨name, hschedule⟩ := Option.ne_none_iff_exists'.mp hbegun.1
    obtain rfl := hbegun.2
    -- the schedule is taken up: the first level is read
    have hparameters := parameters_fresh c schedules hschedule hlevel
    rcases h with ⟨hnone, -⟩ | ⟨a₁, retry, a₂, hsome, hnext⟩
    · rw [hparameters] at hnone
      obtain ⟨_, -, heq⟩ := Option.map_eq_some_iff.mp hnone
      cases heq
    · rw [hparameters] at hsome
      obtain ⟨found, hfound, heq⟩ := Option.map_eq_some_iff.mp hsome
      cases heq
      obtain ⟨hquotable, hupdates⟩ := scheduleUpdate_iff.mp hfound
      cases hknown : schedules name with
      | none =>
        obtain ⟨hlogged, rfl, rfl⟩ := hupdates.unknown_eq hknown
        by_cases hspent : c.unset.2 = 0
        · rw [nextLevel_spent hschedule hspent] at hnext
          obtain ⟨hagain, -, heq⟩ := (scheduleUpdate_iff.mp hnext).2.unknown_eq hknown
          have hsame := Prod.mk.inj heq
          rw [hsame.1, hsame.2]
          exact .unknownFirst hschedule hquotable hknown hlevel hlogged fun _ ↦ hagain
        · rw [nextLevel_keeps (.inr hspent), Option.some.injEq] at hnext
          obtain ⟨-, heq⟩ := Prod.mk.inj hnext
          have hsame := Prod.mk.inj heq
          rw [← hsame.1, ← hsame.2]
          exact .unknownFirst hschedule hquotable hknown hlevel hlogged fun h ↦ absurd h hspent
      | some levels =>
        obtain ⟨hcount, level, hlevel', -, hfirst, hone⟩ := hupdates.of_known hknown
        obtain rfl := Option.some.inj (hlevel.symm.trans hlevel')
        rcases retry with ⟨delay', times'⟩
        by_cases hspent : times' = 0
        · obtain rfl := hspent
          rw [nextLevel_spent (hupdates.same.1.trans hschedule) rfl] at hnext
          obtain ⟨-, level, hlevel', -, hsecond, -⟩ := (scheduleUpdate_iff.mp hnext).2.of_known hknown
          obtain rfl := Option.some.inj (hone.symm.trans hlevel')
          exact .second hschedule hquotable hknown hcount hlevel hfirst hsecond
        · rw [nextLevel_keeps (.inr hspent)] at hnext
          cases hnext
          exact .first hschedule hquotable hknown hcount hlevel hfirst hspent

/-! ## What comes of the call -/

theorem retry_exhausted (retval : Option Int) (h : Finds c schedules a delay times)
    (hend : delay = 0 ∨ times = 0) :
    ∃ a', a.retry c schedules retval = some (a', .exhausted) := by
  unfold RetryTexts.retry
  rcases h with ⟨hnone, -⟩ | ⟨a₁, retry, a₂, hsome, hnext⟩
  · rw [hnone]
    exact ⟨a, rfl⟩
  · rw [hsome, Option.bind_some]
    dsimp only
    rw [hnext, Option.bind_some]
    exact ⟨a₂, if_pos hend⟩

/-- With a retry left the return value decides. -/
theorem retry_left (retval : Option Int) (h : Finds c schedules a delay times)
    (hleft : ¬(delay = 0 ∨ times = 0)) :
    ∃ a₂, a.retry c schedules retval = (a.refuses retval).bind fun refused ↦
      if refused then some (a₂, .passedOver)
      else if times = -2 ^ 31 then none
      else some ({ a₂ with retryTimes := some (toString (times - 1)) }, .planned delay) := by
  rcases h with ⟨-, hzero, -⟩ | ⟨a₁, retry, a₂, hsome, hnext⟩
  · exact absurd (.inl hzero) hleft
  · have hsame : a₂.retryRetval = a.retryRetval := by
      have hfirst : a₁.retryRetval = a.retryRetval := by
        unfold retryParameters at hsome
        obtain ⟨level, -, hsome⟩ := Option.bind_eq_some_iff.mp hsome
        split at hsome
        · obtain ⟨found, hfound, heq⟩ := Option.map_eq_some_iff.mp hsome
          cases heq
          exact (scheduleUpdate_iff.mp hfound).2.same.2
        · obtain ⟨found, -, heq⟩ := Option.map_eq_some_iff.mp hsome
          obtain ⟨retry, -, heq⟩ := Option.map_eq_some_iff.mp heq
          cases heq
          rfl
      unfold nextLevel at hnext
      split at hnext
      · split at hnext
        · exact (scheduleUpdate_iff.mp hnext).2.same.2.trans hfirst
        · cases hnext
          exact hfirst
      · cases hnext
        exact hfirst
    have hrefuses : a₂.refuses retval = a.refuses retval := by
      unfold refuses
      rw [hsame]
    refine ⟨a₂, ?_⟩
    unfold RetryTexts.retry
    rw [hsome, Option.bind_some]
    dsimp only
    rw [hnext, Option.bind_some]
    dsimp only
    rw [if_neg hleft, hrefuses]

theorem finds_of_retry {retval : Option Int} {outcome : RetryOutcome}
    (h : a.retry c schedules retval = some (a', outcome)) : ∃ delay times, Finds c schedules a delay times := by
  unfold RetryTexts.retry at h
  obtain ⟨found, hparameters, h⟩ := Option.bind_eq_some_iff.mp h
  cases found with
  | none => exact ⟨0, 0, .inl ⟨hparameters, rfl, rfl⟩⟩
  | some found =>
    obtain ⟨⟨a₂, delay, times⟩, hnext, -⟩ := Option.bind_eq_some_iff.mp h
    exact ⟨delay, times, .inr ⟨_, _, a₂, hparameters, hnext⟩⟩

theorem refuses_false {retval : Int} : a.refuses (some retval) = some false ↔
    ∀ text, a.retryRetval = some text → parseInt text = some retval := by
  unfold refuses
  cases hwanted : a.retryRetval with
  | none => simp
  | some text =>
    dsimp only
    constructor
    · intro h text' heq
      cases heq
      obtain ⟨wanted, hread, h⟩ := Option.bind_eq_some_iff.mp h
      rw [Option.map_some, Option.some.injEq, decide_eq_false_iff_not, not_not] at h
      rw [hread, h]
    · intro h
      rw [h text rfl]
      simp

theorem retry_exhausted_iff {retval : Option Int} : (∃ a', a.retry c schedules retval = some (a', .exhausted)) ↔
    ∃ delay times, Decides c schedules a delay times ∧ (delay = 0 ∨ times = 0) := by
  constructor
  · rintro ⟨a', h⟩
    obtain ⟨delay, times, hfinds⟩ := finds_of_retry h
    refine ⟨delay, times, hfinds.decides, ?_⟩
    by_contra hleft
    obtain ⟨a₂, heq⟩ := retry_left retval hfinds hleft
    rw [heq] at h
    obtain ⟨refused, -, h⟩ := Option.bind_eq_some_iff.mp h
    split at h
    · cases h
    · split at h <;> cases h
  · rintro ⟨delay, times, hdecides, hend⟩
    exact retry_exhausted _ hdecides.finds hend

theorem retry_planned_iff {retval : Int} :
    (∃ a' delay', a.retry c schedules (some retval) = some (a', .planned delay')) ↔
      ∃ delay times, Decides c schedules a delay times ∧ ¬(delay = 0 ∨ times = 0) ∧
        (∀ text, a.retryRetval = some text → parseInt text = some retval) ∧ times ≠ -2 ^ 31 := by
  constructor
  · rintro ⟨a', delay', h⟩
    obtain ⟨delay, times, hfinds⟩ := finds_of_retry h
    have hleft : ¬(delay = 0 ∨ times = 0) := by
      intro hend
      obtain ⟨a'', hgone⟩ := retry_exhausted (some retval) hfinds hend
      rw [hgone] at h
      cases h
    obtain ⟨a₂, heq⟩ := retry_left (some retval) hfinds hleft
    rw [heq] at h
    obtain ⟨refused, hrefused, h⟩ := Option.bind_eq_some_iff.mp h
    refine ⟨delay, times, hfinds.decides, hleft, ?_⟩
    split at h
    · cases h
    · rename_i hno
      rw [Bool.not_eq_true] at hno
      split at h
      · cases h
      · rename_i hleast
        exact ⟨refuses_false.mp (hno ▸ hrefused), hleast⟩
  · rintro ⟨delay, times, hdecides, hleft, hretval, hleast⟩
    obtain ⟨a₂, heq⟩ := retry_left (some retval) hdecides.finds hleft
    rw [refuses_false.mpr hretval, Option.bind_some, if_neg Bool.false_ne_true, if_neg hleast] at heq
    exact ⟨_, _, heq⟩

end RetryTexts

namespace TextInstance

variable {c : RetryCall} {now : Int} {env : Environment Node} {s : TextInstance Node} {id : Nat}
variable {task : TaskNode Node} {retval : Int} {output : String}

/-- `TaskStop` comes to its `record_savepoint` and has counted the failure once: as an error, or as a task that
waits for the event inserted for it. -/
def Accounted (id : Nat) (s : TextInstance Node)
    (stopped : Option (TextInstance Node × Bool × List (Nat × Int))) : Prop :=
  ∃ s' ended events, stopped = some (s', ended, events) ∧
    ((s'.workflow.errorTasks.toNat = s.workflow.errorTasks.toNat + 1 ∧
        s'.workflow.retryingTasks = s.workflow.retryingTasks ∧ events = []) ∨
      (s'.workflow.errorTasks = s.workflow.errorTasks ∧
        s'.workflow.retryingTasks.toNat = s.workflow.retryingTasks.toNat + 1 ∧ ∃ due, events = [(id, due)]))

/-- Where a task has failed, no subjobs are run. -/
theorem settle_failed {t : TaskNode Node} (env : Environment Node) (hfind : s.workflow.doc.task? id = some t)
    (hfailed : t.retval = some retval) (hretval : retval ≠ 0) :
    (s.settle env t.job).1 =
      { s with workflow := { s.workflow with runningTally := s.workflow.runningTally - 1 } } := by
  unfold settle
  dsimp only
  rw [if_neg]
  intro hall
  have hmem : t ∈ s.workflow.doc.tasksOf t.job :=
    List.mem_filter.mpr ⟨List.mem_of_find?_eq_some hfind, decide_eq_true rfl⟩
  have hzero := (of_decide_eq_true (List.countP_eq_length.mp hall.symm _ hmem)).2
  rw [hfailed] at hzero
  exact hretval (Option.some.inj hzero)

theorem task?_recorded (hfind : s.workflow.doc.task? id = some task) (retval : Int) (output : String) :
    (s.recorded id retval output).workflow.doc.task? id = some (failedWith retval output task) :=
  (Document.replaced_setTask (f := failedWith retval output) (fun _ ↦ rfl) hfind rfl).task

/-- While the instance is cancelled a failure changes neither counter. -/
theorem not_accounted_cancelling (hfind : s.workflow.doc.task? id = some task) (hretval : retval ≠ 0)
    (hcancel : s.workflow.isCancelling = true) : ¬Accounted id s (s.taskStop c now env id retval output) := by
  have hmarked := (Document.replaced_setTask (f := notRetried) (fun _ ↦ rfl)
    (task?_recorded hfind retval output) rfl).task
  have hsettle := settle_failed (s := (s.recorded id retval output).marked id) env hmarked rfl hretval
  have hstop : s.taskStop c now env id retval output =
      some ((((s.recorded id retval output).marked id).settle env task.job).1,
        (((s.recorded id retval output).marked id).settle env task.job).2, []) := by
    unfold taskStop
    rw [hfind]
    exact congrArg (Option.map _) (if_pos hcancel)
  rintro ⟨s', ended', events, heq, hcounted⟩
  rw [hstop, Option.some.injEq, Prod.mk.injEq] at heq
  obtain rfl := hsettle.symm.trans heq.1
  rcases hcounted with ⟨herrors, -, -⟩ | ⟨-, hretrying, -⟩
  · exact absurd herrors (Nat.ne_of_lt (Nat.lt_succ_self _))
  · exact absurd hretrying (Nat.ne_of_lt (Nat.lt_succ_self _))

variable (now env output) in
/-- Otherwise `TaskStop` is one call of `retry_task`, for the task with its return value. -/
theorem taskStop_failed (hfind : s.workflow.doc.task? id = some task)
    (hcancel : s.workflow.isCancelling = false) (hretval : retval ≠ 0) {a : RetryTexts}
    {outcome : RetryOutcome}
    (hretry : (s.attributes id).retry c s.schedules (some retval) = some (a, outcome)) :
    ∃ s' ended, s.taskStop c now env id retval output =
        some (s', ended, (outcome.delay?.map fun delay ↦ (id, now + delay)).toList) ∧
      s'.workflow.errorTasks = (s.workflow.retried id s.workflow.doc outcome.kind).errorTasks ∧
      s'.workflow.retryingTasks = (s.workflow.retried id s.workflow.doc outcome.kind).retryingTasks := by
  have hrecorded := task?_recorded hfind retval output
  have hcall := retryTask_eq now hrecorded hretry
  have hnot : ¬(s.recorded id retval output).workflow.isCancelling = true := by
    show ¬s.workflow.isCancelling = true
    rw [hcancel]
    exact Bool.false_ne_true
  generalize hs' : ({ s.recorded id retval output with
    attributes := _
    workflow := _ } : TextInstance Node) = s' at hcall
  have hdoc : s'.workflow.doc = (s.recorded id retval output).workflow.doc := by
    rw [← hs']
    cases outcome <;> rfl
  rw [← hdoc] at hrecorded
  have hsettle := settle_failed env hrecorded rfl hretval
  refine ⟨(s'.settle env task.job).1, (s'.settle env task.job).2, ?_, ?_, ?_⟩
  · unfold taskStop
    rw [hfind]
    dsimp only
    rw [if_neg hnot, hcall]
    rfl
  · rw [show (s'.settle env task.job).1 = _ from hsettle, ← hs']
    cases outcome <;> rfl
  · rw [show (s'.settle env task.job).1 = _ from hsettle, ← hs']
    cases outcome <;> rfl

theorem taskStop_none (hfind : s.workflow.doc.task? id = some task) (hcancel : s.workflow.isCancelling = false)
    (hretry : (s.attributes id).retry c s.schedules (some retval) = none) :
    s.taskStop c now env id retval output = none := by
  have hnot : ¬(s.recorded id retval output).workflow.isCancelling = true := by
    show ¬s.workflow.isCancelling = true
    rw [hcancel]
    exact Bool.false_ne_true
  have hcall : (s.recorded id retval output).retryTask c now id = none := by
    unfold retryTask
    rw [task?_recorded hfind retval output]
    exact congrArg (Option.map _) hretry
  unfold taskStop
  rw [hfind]
  dsimp only
  rw [if_neg hnot]
  exact congrArg (Option.map _) hcall

/-! ## Failures that are counted -/

/-- One more is counted, unless the counter is at its end. -/
theorem toNat_ofInt_succ (n : Int) : (UInt32.ofInt (n + 1)).toNat = (UInt32.ofInt n).toNat + 1 ↔
    (UInt32.ofInt n).toNat + 1 < 2 ^ 32 := by
  have hnext : UInt32.ofInt (n + 1) = UInt32.ofInt n + 1 := UInt32.ofInt_add n 1
  have hlt := (UInt32.ofInt n).toNat_lt
  rw [hnext, UInt32.toNat_add]
  show ((UInt32.ofInt n).toNat + 1) % 2 ^ 32 = _ ↔ _
  omega

theorem ofInt_succ_ne (n : Int) : UInt32.ofInt (n + 1) ≠ UInt32.ofInt n := by
  intro heq
  have hnext : UInt32.ofInt (n + 1) = UInt32.ofInt n + 1 := UInt32.ofInt_add n 1
  have hzero : UInt32.ofInt n + 1 = UInt32.ofInt n + 0 := (hnext.symm.trans heq).trans (UInt32.add_zero _).symm
  exact absurd ((UInt32.add_right_inj (UInt32.ofInt n)).mp hzero) (by decide)

/-- What a call of `retry_task` has come to decides whether the failure is counted. -/
theorem accounted_retried (hfind : s.workflow.doc.task? id = some task)
    (hcancel : s.workflow.isCancelling = false) (hretval : retval ≠ 0) :
    Accounted id s (s.taskStop c now env id retval output) ↔
      ((∃ a, (s.attributes id).retry c s.schedules (some retval) = some (a, .exhausted)) ∧
        s.workflow.errorTasks.toNat + 1 < 2 ^ 32) ∨
      ((∃ a delay, (s.attributes id).retry c s.schedules (some retval) = some (a, .planned delay)) ∧
        s.workflow.retryingTasks.toNat + 1 < 2 ^ 32) := by
  cases hretry : (s.attributes id).retry c s.schedules (some retval) with
  | none =>
    rw [taskStop_none hfind hcancel hretry]
    constructor
    · rintro ⟨_, _, _, heq, -⟩
      cases heq
    · rintro (⟨⟨_, heq⟩, -⟩ | ⟨⟨_, _, heq⟩, -⟩) <;> cases heq
  | some found =>
    rcases found with ⟨a, outcome⟩
    obtain ⟨s', ended, hstop, herrors, hretrying⟩ :=
      taskStop_failed now env output hfind hcancel hretval hretry
    unfold Accounted
    rw [hstop]
    cases outcome with
    | exhausted =>
      have hcount := toNat_ofInt_succ s.workflow.errorTally
      constructor
      · rintro ⟨s'', ended', events, heq, ⟨h, -⟩ | ⟨h, -⟩⟩ <;> cases heq
        · rw [herrors] at h
          exact .inl ⟨⟨a, rfl⟩, hcount.mp h⟩
        · exact absurd (herrors.symm.trans h) (ofInt_succ_ne _)
      · rintro (⟨-, h⟩ | ⟨⟨_, _, heq⟩, -⟩)
        · exact ⟨s', ended, [], rfl, .inl ⟨(congrArg UInt32.toNat herrors).trans (hcount.mpr h), hretrying, rfl⟩⟩
        · cases heq
    | passedOver =>
      constructor
      · rintro ⟨s'', ended', events, heq, ⟨h, -⟩ | ⟨-, h, -⟩⟩ <;> cases heq
        · rw [herrors] at h
          exact absurd h (Nat.ne_of_lt (Nat.lt_succ_self _))
        · rw [hretrying] at h
          exact absurd h (Nat.ne_of_lt (Nat.lt_succ_self _))
      · rintro (⟨⟨_, heq⟩, -⟩ | ⟨⟨_, _, heq⟩, -⟩) <;> cases heq
    | planned delay =>
      have hcount := toNat_ofInt_succ s.workflow.retryingTally
      constructor
      · rintro ⟨s'', ended', events, heq, ⟨-, h, -⟩ | ⟨-, h, -⟩⟩ <;> cases heq
        · exact absurd (hretrying.symm.trans h) (ofInt_succ_ne _)
        · rw [hretrying] at h
          exact .inr ⟨⟨a, delay, rfl⟩, hcount.mp h⟩
      · rintro (⟨⟨_, heq⟩, -⟩ | ⟨-, h⟩)
        · cases heq
        · exact ⟨s', ended, _, rfl, .inr ⟨herrors, (congrArg UInt32.toNat hretrying).trans (hcount.mpr h), _, rfl⟩⟩

/-- `TaskStop` accounts for a failure exactly when the instance is not being cancelled, nothing raises on the
way to what decides about the task, `retry_retval` does not take a retry from the task that it still has, and
the counter is not at its end. -/
theorem taskStop_accounted_iff (c : RetryCall) (now : Int) (env : Environment Node) (s : TextInstance Node)
    (id : Nat) (task : TaskNode Node) (retval : Int) (output : String)
    (hfind : s.workflow.doc.task? id = some task) (hretval : retval ≠ 0) :
    Accounted id s (s.taskStop c now env id retval output) ↔ s.workflow.isCancelling = false ∧
      ∃ delay times, (s.attributes id).Decides c s.schedules delay times ∧
        if delay = 0 ∨ times = 0 then s.workflow.errorTasks.toNat + 1 < 2 ^ 32
        else
          (∀ text, (s.attributes id).retryRetval = some text → parseInt text = some retval) ∧
            times ≠ -2 ^ 31 ∧ s.workflow.retryingTasks.toNat + 1 < 2 ^ 32 := by
  cases hcancel : s.workflow.isCancelling with
  | true =>
    constructor
    · exact fun h ↦ absurd h (not_accounted_cancelling hfind hretval hcancel)
    · rintro ⟨h, -⟩
      cases h
  | false =>
    rw [accounted_retried hfind hcancel hretval, RetryTexts.retry_exhausted_iff, RetryTexts.retry_planned_iff]
    constructor
    · rintro (⟨⟨delay, times, hdecides, hend⟩, hcount⟩ |
        ⟨⟨delay, times, hdecides, hleft, hwanted, hleast⟩, hcount⟩)
      · exact ⟨rfl, delay, times, hdecides, by rw [if_pos hend]; exact hcount⟩
      · exact ⟨rfl, delay, times, hdecides, by rw [if_neg hleft]; exact ⟨hwanted, hleast, hcount⟩⟩
    · rintro ⟨-, delay, times, hdecides, h⟩
      by_cases hend : delay = 0 ∨ times = 0
      · rw [if_pos hend] at h
        exact .inl ⟨⟨delay, times, hdecides, hend⟩, h⟩
      · rw [if_neg hend] at h
        exact .inr ⟨⟨delay, times, hdecides, hend, h.1, h.2.1⟩, h.2.2⟩

/-- A task with two retries left fails: it waits for the first one. -/
theorem taskStop_accounted_retried : ∃ s : TextInstance Unit,
    s = Failure.failed [] ⟨none, none, some "10", some "2", none⟩ ∧
      Accounted 1 s (s.taskStop Failure.logged 0 Lifetime.twoNodes 1 2 "") :=
  ⟨_, rfl, (taskStop_accounted_iff Failure.logged 0 Lifetime.twoNodes _ 1 _ 2 "" rfl (by decide)).mpr
    ⟨rfl, 10, 2, .left rfl (.inl rfl) ⟨"10", "2", rfl, rfl, by decide, by decide⟩ (.inl rfl), by
      rw [if_neg (by decide)]
      exact ⟨nofun, by decide, by decide⟩⟩⟩

/-- The same task while its instance is cancelled, and the same one with `retry_retval` 3: its failure with 2
leaves no trace in the counters.  Where the delay is no number, `TaskStop` does not come back. -/
theorem taskStop_not_accounted : ∃ s s' s'' : TextInstance Unit,
    s = { Failure.failed [] ⟨none, none, some "10", some "2", none⟩ with
      workflow := { (Failure.failed [] ⟨none, none, some "10", some "2", none⟩).workflow with isCancelling := true } } ∧
      s' = Failure.failed [] ⟨none, none, some "10", some "2", some "3"⟩ ∧
      s'' = Failure.failed [] ⟨none, none, some "10s", some "2", none⟩ ∧
      ¬Accounted 1 s (s.taskStop Failure.logged 0 Lifetime.twoNodes 1 2 "") ∧
      ¬Accounted 1 s' (s'.taskStop Failure.logged 0 Lifetime.twoNodes 1 2 "") ∧
      s''.taskStop Failure.logged 0 Lifetime.twoNodes 1 2 "" = none := by
  refine ⟨_, _, _, rfl, rfl, rfl, not_accounted_cancelling rfl (by decide) rfl, ?_, rfl⟩
  rintro ⟨s', ended, events, heq, hcounted⟩
  cases heq
  rcases hcounted with ⟨h, -⟩ | ⟨-, h, -⟩ <;> exact absurd h (by decide)

end TextInstance

end EvQueue
