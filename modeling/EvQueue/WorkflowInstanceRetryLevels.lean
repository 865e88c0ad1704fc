import EvQueue.WorkflowInstanceRetrySequence

/-!
# WorkflowInstanceRetryLevels — when a retry schedule is abandoned early

A level with a delay or times of zero allows no retry.  `retry_task` passes at most one such level, and
only where its times are zero: of the levels behind it, it takes the next one and looks no further.
-/

namespace EvQueue

variable {Node : Type}

namespace TaskNode

variable {schedules : String → Option (List (Int × Int))} {t t₁ t₂ : TaskNode Node}
variable {uninitialised retry : Int × Int} {name : String} {levels : List (Int × Int)}
variable {level i : Nat} {delay times : Int}

/-- A level that allows a retry. -/
def Useful (level : Int × Int) : Prop := 0 < level.1 ∧ 0 < level.2

/-- Before a level that allows a retry all others do, or it is the first that has no times. -/
def NoGaps (levels : List (Int × Int)) : Prop :=
  ∀ (i j : Nat) (a b : Int × Int), i < j → levels[i]? = some a → levels[j]? = some b → Useful b →
    Useful a ∨ i = 0 ∧ a.2 = 0

/-- The states of a task with this schedule: at first it is at no level, and then come calls of
`retry_task`, between which other attributes may change. -/
inductive Reached (schedules : String → Option (List (Int × Int))) (name : String) : TaskNode Node → Prop where
  | fresh {t : TaskNode Node} (schedule : t.retrySchedule = some name) (level : t.retryScheduleLevel = none) :
      Reached schedules name t
  | called {t t' : TaskNode Node} (before : Reached schedules name t) (uninitialised : Int × Int)
      (same : SameRetry (t.retry uninitialised schedules).1 t') : Reached schedules name t'

/-- The task is at a level with a retry left. -/
def RetryLeft (t : TaskNode Node) : Prop :=
  t.retryScheduleLevel.getD 0 ≠ 0 ∧
    ∃ delay times, t.retryDelay = some delay ∧ t.retryTimes = some times ∧ Useful (delay, times)

/-- Nothing is left: no retry at the level, and no later level that allows one. -/
def Spent (levels : List (Int × Int)) (t : TaskNode Node) : Prop :=
  ¬t.RetryLeft ∧ ∀ l ∈ levels.drop (t.retryScheduleLevel.getD 0), ¬Useful l

/-! ## The levels behind a useless one -/

theorem mem_drop_iff {l : Int × Int} : l ∈ levels.drop i ↔ ∃ j, i ≤ j ∧ levels[j]? = some l := by
  rw [List.mem_iff_getElem?]
  constructor
  · rintro ⟨k, hk⟩
    rw [List.getElem?_drop] at hk
    exact ⟨i + k, by omega, hk⟩
  · rintro ⟨j, hij, hj⟩
    refine ⟨j - i, ?_⟩
    rw [List.getElem?_drop, show i + (j - i) = j by omega]
    exact hj

/-- Behind a level that allows no retry none does. -/
theorem NoGaps.drop (h : NoGaps levels) {a : Int × Int} (ha : levels[i]? = some a) (hno : ¬Useful a)
    (hfirst : ¬(i = 0 ∧ a.2 = 0)) : ∀ l ∈ levels.drop i, ¬Useful l := by
  intro l hl huseful
  obtain ⟨j, hij, hj⟩ := mem_drop_iff.mp hl
  rcases Nat.eq_or_lt_of_le hij with rfl | hlt
  · rw [ha] at hj
    cases hj
    exact hno huseful
  · rcases h i j a l hlt ha hj huseful with hyes | hzero
    · exact hno hyes
    · exact hfirst hzero

/-! ## Where a task stands -/

/-- At no level, behind the last one, or at a level with some of its times left. -/
structure Stands (name : String) (levels : List (Int × Int)) (t : TaskNode Node) : Prop where
  schedule : t.retrySchedule = some name
  level : t.retryScheduleLevel = none ∨ ∃ level, t.retryScheduleLevel = some (level + 1) ∧
    (levels.length ≤ level ∨ ∃ delay all times, levels[level]? = some (delay, all) ∧
      t.AtLevel name (level + 1) delay times ∧ 0 ≤ times ∧ times ≤ all)

theorem Stands.congr {t' : TaskNode Node} (h : Stands name levels t) (hsame : SameRetry t t') :
    Stands name levels t' := by
  refine ⟨hsame.schedule.trans h.schedule, ?_⟩
  rcases h.level with hnone | ⟨level, hlevel, hend | ⟨delay, all, times, hall, hat, hrange⟩⟩
  · exact .inl (hsame.level.trans hnone)
  · exact .inr ⟨level, hsame.level.trans hlevel, .inl hend⟩
  · exact .inr ⟨level, hsame.level.trans hlevel, .inr ⟨delay, all, times, hall, hat.congr hsame, hrange⟩⟩

/-- Once the parameters are known, the task is as it is, or one of its times is taken. -/
theorem retry_cases (hparameters : t.retryParameters uninitialised schedules = some (t₁, retry))
    (hnext : t₁.nextLevel schedules retry = (t₂, delay, times)) :
    ((t.retry uninitialised schedules).1 = t₂ ∨
      times ≠ 0 ∧ (t.retry uninitialised schedules).1 = { t₂ with retryTimes := some (times - 1) }) ∧
    ((t.retry uninitialised schedules).2 = .exhausted ↔ delay = 0 ∨ times = 0) := by
  unfold TaskNode.retry
  rw [hparameters]
  dsimp only
  rw [hnext]
  dsimp only
  by_cases hend : delay = 0 ∨ times = 0
  · rw [if_pos hend]
    exact ⟨.inl rfl, by simp [hend]⟩
  · rw [if_neg hend]
    rw [not_or] at hend
    split
    · exact ⟨.inl rfl, by simp [hend]⟩
    · exact ⟨.inr ⟨hend.2, rfl⟩, by simp [hend]⟩

/-- What a call works with: the parameters of the level the task is at while it has times left, those of the
next level, or none behind the last level. -/
inductive Works (name : String) (levels : List (Int × Int)) (t : TaskNode Node) :
    TaskNode Node → Int → Int → Prop where
  | keeps {level : Nat} {delay times : Int} (at_ : t.AtLevel name (level + 1) delay times)
      (left : times ≠ 0) : Works name levels t t delay times
  | takes {t₂ : TaskNode Node} {level : Nat} {delay times : Int}
      (known : levels[level]? = some (delay, times)) (at_ : t₂.AtLevel name (level + 1) delay times)
      (spent : NoGaps levels → ¬Useful (delay, times) → t.Spent levels) : Works name levels t t₂ delay times
  | ended {t₂ : TaskNode Node} {level : Nat} (schedule : t₂.retrySchedule = some name)
      (level_ : t₂.retryScheduleLevel = some (level + 1)) (behind : levels.length ≤ level)
      (spent : t.Spent levels) : Works name levels t t₂ 0 0

theorem spent_of_drop (hleft : ¬t.RetryLeft) (hlevel : t.retryScheduleLevel.getD 0 = i)
    (hdrop : ∀ l ∈ levels.drop i, ¬Useful l) : t.Spent levels :=
  ⟨hleft, by rw [hlevel]; exact hdrop⟩

/-- A call takes this level, whose parameters are `l`. -/
def Takes (schedules : String → Option (List (Int × Int))) (uninitialised : Int × Int) (name : String)
    (level : Nat) (l : Int × Int) (t : TaskNode Node) : Prop :=
  ∃ t₁ retry t₂, t.retryParameters uninitialised schedules = some (t₁, retry) ∧
    t₁.nextLevel schedules retry = (t₂, l) ∧ t₂.AtLevel name (level + 1) l.1 l.2

/-- The first call for a task takes the first level. -/
theorem takes_first (hschedule : t.retrySchedule = some name) (hfresh : t.retryScheduleLevel.getD 0 = 0)
    (hknown : schedules name = some levels) (hfirst : levels[0]? = some (delay, times)) (htimes : times ≠ 0)
    (uninitialised : Int × Int) : Takes schedules uninitialised name 0 (delay, times) t := by
  have hparameters := retryParameters_fresh hschedule hfresh uninitialised schedules
  rw [scheduleUpdate_level hknown (by rw [hfresh]; exact hfirst), hfresh] at hparameters
  exact ⟨_, _, _, hparameters, nextLevel_left _ schedules _ htimes, hschedule, rfl, rfl, rfl⟩

/-- It takes the second level when the first has no times. -/
theorem takes_second {delay' times' : Int} (hschedule : t.retrySchedule = some name)
    (hfresh : t.retryScheduleLevel.getD 0 = 0) (hknown : schedules name = some levels)
    (hfirst : levels[0]? = some (delay, 0)) (hsecond : levels[0 + 1]? = some (delay', times'))
    (uninitialised : Int × Int) : Takes schedules uninitialised name (0 + 1) (delay', times') t := by
  have hparameters := retryParameters_fresh hschedule hfresh uninitialised schedules
  rw [scheduleUpdate_level hknown (by rw [hfresh]; exact hfirst), hfresh] at hparameters
  exact ⟨_, _, _, hparameters,
    (nextLevel_spent (by exact hschedule)).trans (scheduleUpdate_level hknown (by exact hsecond) _),
    hschedule, rfl, rfl, rfl⟩

/-- A later call takes the next level when no times are left. -/
theorem takes_next {delay' times' : Int} (h : t.AtLevel name (level + 1) delay 0)
    (hknown : schedules name = some levels) (hnext : levels[level + 1]? = some (delay', times'))
    (uninitialised : Int × Int) : Takes schedules uninitialised name (level + 1) (delay', times') t := by
  have hlevel : t.retryScheduleLevel.getD 0 = level + 1 := by rw [h.level, Option.getD_some]
  have hupdate := scheduleUpdate_level (t := t) hknown (by rw [hlevel]; exact hnext) (delay, 0)
  rw [hlevel] at hupdate
  exact ⟨_, _, _, h.retryParameters uninitialised schedules, (nextLevel_spent h.schedule).trans hupdate,
    h.schedule, rfl, rfl, rfl⟩

theorem Takes.works {l : Int × Int} (h : Takes schedules uninitialised name level l t)
    (hlevel : levels[level]? = some l) (hspent : NoGaps levels → ¬Useful l → t.Spent levels) :
    ∃ t₁ retry t₂ delay times, t.retryParameters uninitialised schedules = some (t₁, retry) ∧
      t₁.nextLevel schedules retry = (t₂, delay, times) ∧ Works name levels t t₂ delay times := by
  obtain ⟨t₁, retry, t₂, hparameters, hnext, hat⟩ := h
  exact ⟨t₁, retry, t₂, l.1, l.2, hparameters, hnext, .takes hlevel hat hspent⟩

theorem works_fresh (hschedule : t.retrySchedule = some name) (hfresh : t.retryScheduleLevel = none)
    (hknown : schedules name = some levels) (uninitialised : Int × Int) :
    ∃ t₁ retry t₂ delay times, t.retryParameters uninitialised schedules = some (t₁, retry) ∧
      t₁.nextLevel schedules retry = (t₂, delay, times) ∧ Works name levels t t₂ delay times := by
  have hzero : t.retryScheduleLevel.getD 0 = 0 := by rw [hfresh, Option.getD_none]
  have hleft : ¬t.RetryLeft := fun h ↦ h.1 hzero
  cases hfirst : levels[0]? with
  | none =>
    -- there are no levels: both calls of `schedule_update` find none
    have hempty := List.getElem?_eq_none_iff.mp hfirst
    have hparameters := retryParameters_fresh hschedule hzero uninitialised schedules
    rw [scheduleUpdate_end hknown (by rw [hzero]; exact hfirst), hzero] at hparameters
    have hsecond : levels[0 + 1]? = none := List.getElem?_eq_none_iff.mpr (by omega)
    refine ⟨_, _, _, _, _, hparameters,
      (nextLevel_spent (by exact hschedule)).trans (scheduleUpdate_end hknown (by exact hsecond) _), ?_⟩
    refine .ended hschedule rfl (show levels.length ≤ 0 + 1 by omega) (spent_of_drop hleft hzero ?_)
    rw [List.drop_eq_nil_iff.mpr hempty]
    exact nofun
  | some first =>
    rcases first with ⟨delay, times⟩
    by_cases htimes : times = 0
    · -- the second call of `schedule_update` passes the first level
      subst htimes
      have hpassed : ∀ j l, levels[j]? = some l → Useful l → j ≠ 0 := by
        rintro j l hj huseful rfl
        rw [hfirst] at hj
        cases hj
        exact Int.lt_irrefl 0 huseful.2
      cases hsecond : levels[0 + 1]? with
      | none =>
        have hone := List.getElem?_eq_none_iff.mp hsecond
        have hparameters := retryParameters_fresh hschedule hzero uninitialised schedules
        rw [scheduleUpdate_level hknown (by rw [hzero]; exact hfirst), hzero] at hparameters
        refine ⟨_, _, _, _, _, hparameters,
          (nextLevel_spent (by exact hschedule)).trans (scheduleUpdate_end hknown (by exact hsecond) _), ?_⟩
        refine .ended hschedule rfl hone (spent_of_drop hleft hzero ?_)
        intro l hl huseful
        obtain ⟨j, -, hj⟩ := mem_drop_iff.mp hl
        have hlt := (List.getElem?_eq_some_iff.mp hj).1
        have hne := hpassed j l hj huseful
        omega
      | some second =>
        apply (takes_second hschedule hzero hknown hfirst hsecond uninitialised).works hsecond
        intro hgaps huseless
        apply spent_of_drop hleft hzero
        intro l hl huseful
        obtain ⟨j, -, hj⟩ := mem_drop_iff.mp hl
        have hne := hpassed j l hj huseful
        exact hgaps.drop hsecond huseless (by omega) l (mem_drop_iff.mpr ⟨j, by omega, hj⟩) huseful
    · apply (takes_first hschedule hzero hknown hfirst htimes uninitialised).works hfirst
      intro hgaps huseless
      exact spent_of_drop hleft hzero (hgaps.drop hfirst huseless fun h ↦ htimes h.2)

/-- A later call keeps to the level while times are left, and takes the next one then. -/
theorem works_level (h : t.AtLevel name (level + 1) delay times) (hknown : schedules name = some levels)
    (uninitialised : Int × Int) :
    ∃ t₁ retry t₂ delay' times', t.retryParameters uninitialised schedules = some (t₁, retry) ∧
      t₁.nextLevel schedules retry = (t₂, delay', times') ∧ Works name levels t t₂ delay' times' := by
  by_cases htimes : times = 0
  · subst htimes
    have hlevel : t.retryScheduleLevel.getD 0 = level + 1 := by rw [h.level, Option.getD_some]
    have hleft : ¬t.RetryLeft := by
      rintro ⟨-, d, n, -, hn, huseful⟩
      rw [h.times] at hn
      cases hn
      exact Int.lt_irrefl 0 huseful.2
    cases hnext : levels[level + 1]? with
    | none =>
      have hend := List.getElem?_eq_none_iff.mp hnext
      have hupdate := scheduleUpdate_end (t := t) hknown (by rw [hlevel]; exact hnext) (delay, 0)
      rw [hlevel] at hupdate
      refine ⟨_, _, _, _, _, h.retryParameters uninitialised schedules,
        (nextLevel_spent h.schedule).trans hupdate, ?_⟩
      refine .ended h.schedule rfl hend (spent_of_drop hleft hlevel ?_)
      rw [List.drop_eq_nil_iff.mpr hend]
      exact nofun
    | some next =>
      apply (takes_next h hknown hnext uninitialised).works hnext
      intro hgaps huseless
      exact spent_of_drop hleft hlevel (hgaps.drop hnext huseless (by omega))
  · exact ⟨_, _, _, _, _, h.retryParameters uninitialised schedules, nextLevel_left t schedules _ htimes,
      .keeps h htimes⟩

/-- What is left of the times of a level may be one less. -/
theorem stands_atLevel {all : Int} (hall : levels[level]? = some (delay, all))
    (hat : t₂.AtLevel name (level + 1) delay times) (hrange : 0 ≤ times ∧ times ≤ all)
    (hcases : t = t₂ ∨ times ≠ 0 ∧ t = { t₂ with retryTimes := some (times - 1) }) :
    Stands name levels t := by
  rcases hcases with rfl | ⟨hne, rfl⟩
  · exact ⟨hat.schedule, .inr ⟨level, hat.level, .inr ⟨delay, all, times, hall, hat, hrange⟩⟩⟩
  · refine ⟨hat.schedule, .inr ⟨level, hat.level, .inr ⟨delay, all, times - 1, hall, ?_, by omega⟩⟩⟩
    exact ⟨hat.schedule, hat.level, hat.delay, rfl⟩

/-- The parameters are read where they are set, and they are set unless the last level is behind the task. -/
theorem Stands.works (h : Stands name levels t) (hknown : schedules name = some levels)
    (uninitialised : Int × Int) :
    (t.retryParameters uninitialised schedules = none ∧ t.Spent levels) ∨
      ∃ t₁ retry t₂ delay times, t.retryParameters uninitialised schedules = some (t₁, retry) ∧
        t₁.nextLevel schedules retry = (t₂, delay, times) ∧ Works name levels t t₂ delay times := by
  rcases h.level with hfresh | ⟨level, hlevel, hlevels⟩
  · exact .inr (works_fresh h.schedule hfresh hknown uninitialised)
  · by_cases hset : ∃ delay times, t.retryDelay = some delay ∧ t.retryTimes = some times
    · obtain ⟨delay, times, hdelay, htimes⟩ := hset
      exact .inr (works_level ⟨h.schedule, hlevel, hdelay, htimes⟩ hknown uninitialised)
    · -- no level has set them
      have hbehind : levels.length ≤ level := by
        rcases hlevels with hbehind | ⟨delay, all, times, -, hat, -⟩
        · exact hbehind
        · exact absurd ⟨delay, times, hat.delay, hat.times⟩ hset
      refine .inl ⟨?_, spent_of_drop ?_ (by rw [hlevel, Option.getD_some]) ?_⟩
      · unfold retryParameters
        rw [h.schedule, hlevel]
        cases hdelay : t.retryDelay with
        | none => rfl
        | some delay =>
          cases htimes : t.retryTimes with
          | none => rfl
          | some times => exact absurd ⟨delay, times, hdelay, htimes⟩ hset
      · rintro ⟨-, delay, times, hdelay, htimes, -⟩
        exact hset ⟨delay, times, hdelay, htimes⟩
      · rw [List.drop_eq_nil_iff.mpr (Nat.le_succ_of_le hbehind)]
        exact nofun

/-- A level with times but no delay is not left, and nothing is behind it. -/
theorem AtLevel.spent (hgaps : NoGaps levels) (hat : t.AtLevel name (level + 1) 0 times)
    (hall : levels.length ≤ level ∨ ∃ all, levels[level]? = some (0, all) ∧ all ≠ 0) : t.Spent levels := by
  refine spent_of_drop ?_ (by rw [hat.level, Option.getD_some]) ?_
  · rintro ⟨-, delay, times, hdelay, -, huseful⟩
    rw [hat.delay] at hdelay
    cases hdelay
    exact Int.lt_irrefl 0 huseful.1
  · intro l hl
    obtain ⟨j, hj, hjl⟩ := mem_drop_iff.mp hl
    rcases hall with hbehind | ⟨all, hall, hne⟩
    · have hlt := (List.getElem?_eq_some_iff.mp hjl).1
      omega
    · apply hgaps.drop hall (fun huseful ↦ Int.lt_irrefl 0 huseful.1) (fun hzero ↦ hne hzero.2)
      exact mem_drop_iff.mpr ⟨j, by omega, hjl⟩

/-- What a call makes of a task, and when it gives the task up. -/
theorem Stands.call (h : Stands name levels t) (hknown : schedules name = some levels)
    (hpos : ∀ l ∈ levels, 0 ≤ l.1 ∧ 0 ≤ l.2) (uninitialised : Int × Int) :
    Stands name levels (t.retry uninitialised schedules).1 ∧
      (NoGaps levels → (t.retry uninitialised schedules).2 = .exhausted → t.Spent levels) := by
  rcases h.works hknown uninitialised with ⟨hnone, hspent⟩ | ⟨t₁, retry, t₂, delay, times, hsome, hnext, hworks⟩
  · have hretry : (t.retry uninitialised schedules).1 = t := by
      unfold TaskNode.retry
      rw [hnone]
    rw [hretry]
    exact ⟨h, fun _ _ ↦ hspent⟩
  · obtain ⟨hresult, hexhausted⟩ := retry_cases hsome hnext
    rw [hexhausted]
    -- the task keeps its level, takes the next one, or is behind the last
    cases hworks with
    | @keeps level _ _ hat hleft =>
      have hlevels : levels.length ≤ level ∨ ∃ all, levels[level]? = some (delay, all) ∧
          0 ≤ times ∧ times ≤ all := by
        rcases h.level with hfresh | ⟨level', hlevel', hbehind | ⟨delay', all, times', hall, hat', hrange⟩⟩
        · exact absurd (hfresh.symm.trans hat.level) nofun
        · rw [hat.level, Option.some.injEq, Nat.add_right_cancel_iff] at hlevel'
          exact .inl (hlevel' ▸ hbehind)
        · have hlevel := hat.level.symm.trans hlevel'
          have hdelay := hat.delay.symm.trans hat'.delay
          have htimes := hat.times.symm.trans hat'.times
          rw [Option.some.injEq] at hlevel hdelay htimes
          obtain rfl : level = level' := by omega
          rw [hdelay, htimes]
          exact .inr ⟨all, hall, hrange⟩
      constructor
      · rcases hlevels with hbehind | ⟨all, hall, hrange⟩
        · rcases hresult with hsame | ⟨-, hless⟩
          · rw [hsame]
            exact h
          · rw [hless]
            exact ⟨h.schedule, .inr ⟨level, hat.level, .inl hbehind⟩⟩
        · exact stands_atLevel hall hat hrange hresult
      · intro hgaps hzero
        obtain rfl : delay = 0 := hzero.resolve_right hleft
        apply hat.spent hgaps
        rcases hlevels with hbehind | ⟨all, hall, hrange⟩
        · exact .inl hbehind
        · exact .inr ⟨all, hall, by omega⟩
    | takes hlevel hat hspent =>
      constructor
      · exact stands_atLevel hlevel hat ⟨(hpos _ (List.mem_of_getElem? hlevel)).2, Int.le_refl _⟩ hresult
      · intro hgaps hzero
        apply hspent hgaps
        rintro ⟨hdelay, htimes⟩
        dsimp only at hdelay htimes
        omega
    | ended hschedule hlevel hbehind hspent =>
      refine ⟨?_, fun _ _ ↦ hspent⟩
      rcases hresult with hsame | ⟨hne, -⟩
      · rw [hsame]
        exact ⟨hschedule, .inr ⟨_, hlevel, .inl hbehind⟩⟩
      · exact absurd rfl hne

theorem Reached.stands (h : Reached schedules name t) (hknown : schedules name = some levels)
    (hpos : ∀ l ∈ levels, 0 ≤ l.1 ∧ 0 ≤ l.2) : Stands name levels t := by
  induction h with
  | fresh hschedule hlevel => exact ⟨hschedule, .inl hlevel⟩
  | called _ uninitialised hsame ih => exact (ih.call hknown hpos uninitialised).1.congr hsame

/-- Without gaps a schedule is given up only when nothing is left of it, in every state that is reached. -/
theorem spent_of_noGaps (hknown : schedules name = some levels) (hpos : ∀ l ∈ levels, 0 ≤ l.1 ∧ 0 ≤ l.2)
    (hgaps : NoGaps levels) (h : Reached schedules name t)
    (hretry : (t.retry uninitialised schedules).2 = .exhausted) : t.Spent levels :=
  ((h.stands hknown hpos).call hknown hpos uninitialised).2 hgaps hretry

/-! ## Levels that are reached -/

/-- A task with nothing but a schedule. -/
def scheduled (name : String) : TaskNode Node where
  id := 0
  job := 0
  name := ""
  queue := ""
  loop := none
  status := none
  retval := none
  error := none
  details := none
  retrySchedule := some name
  retryScheduleLevel := none
  retryDelay := none
  retryTimes := none
  retryRetval := none
  content := []
  outputs := []

/-- The states that this task comes to while retries are planned for it, and nothing else happens. -/
inductive Retried (schedules : String → Option (List (Int × Int))) (name : String) : TaskNode Node → Prop where
  | begun : Retried schedules name (scheduled name)
  | again {t : TaskNode Node} (before : Retried schedules name t)
      (planned : (t.retry (0, 0) schedules).2 = .planned) : Retried schedules name (t.retry (0, 0) schedules).1

theorem Retried.retval (h : Retried schedules name t) : t.retryRetval = none := by
  induction h with
  | begun => rfl
  | again _ _ ih => exact (sameBut_retry (0, 0) schedules _).retryRetval.trans ih

/-- A call that plans a retry at a level. -/
theorem Retried.planned (h : Retried schedules name t)
    (hparameters : t.retryParameters (0, 0) schedules = some (t₁, retry))
    (hnext : t₁.nextLevel schedules retry = (t₂, delay, times))
    (hat : t₂.AtLevel name (level + 1) delay times) (hpos : Useful (delay, times)) :
    ∃ t' : TaskNode Node, Retried schedules name t' ∧ t'.AtLevel name (level + 1) delay (times - 1) := by
  have hdelay := Int.ne_of_gt hpos.1
  have htimes := Int.ne_of_gt hpos.2
  obtain ⟨hretry, -⟩ := retry_planned hparameters (by rw [hnext]; exact hdelay)
    (by rw [hnext]; exact htimes) h.retval
  rw [hnext] at hretry
  have hagain := h.again (congrArg Prod.snd hretry)
  rw [hretry] at hagain
  exact ⟨_, hagain, hat.schedule, hat.level, hat.delay, rfl⟩

/-- The times of a level can be used up. -/
theorem Retried.usedUp {n : Nat} (h : Retried schedules name t)
    (hat : t.AtLevel name (level + 1) delay n) (hpos : 0 < delay) :
    ∃ t' : TaskNode Node, Retried schedules name t' ∧ t'.AtLevel name (level + 1) delay 0 := by
  induction n generalizing t with
  | zero => exact ⟨t, h, hat⟩
  | succ n ih =>
    have huseful : Useful (delay, ((n + 1 : Nat) : Int)) := ⟨hpos, Int.natCast_pos.mpr (Nat.succ_pos n)⟩
    obtain ⟨t', hretried, hat'⟩ := h.planned (hat.retryParameters (0, 0) schedules)
      (nextLevel_left t schedules _ (Int.ne_of_gt huseful.2)) hat huseful
    have hless : ((n + 1 : Nat) : Int) - 1 = n := by omega
    rw [hless] at hat'
    exact ih hretried hat'

/-- A level that allows a retry, once taken, is used up. -/
theorem Retried.taken {l : Int × Int} (h : Retried schedules name t)
    (htakes : Takes schedules (0, 0) name level l t) (huseful : Useful l) :
    ∃ t' : TaskNode Node, Retried schedules name t' ∧ t'.AtLevel name (level + 1) l.1 0 := by
  obtain ⟨t₁, retry, t₂, hparameters, hnext, hat⟩ := htakes
  obtain ⟨t', hretried, hat'⟩ := h.planned hparameters hnext hat huseful
  obtain ⟨n, hn⟩ : ∃ n : Nat, l.2 - 1 = n := ⟨(l.2 - 1).toNat, by
    have hpos := huseful.2
    omega⟩
  rw [hn] at hat'
  exact hretried.usedUp hat' huseful.1

/-- Up to the first gap, every level that allows a retry is reached, and used up. -/
theorem retried_level (hknown : schedules name = some levels) (k : Nat)
    (hbefore : ∀ i < k, ∀ a, levels[i]? = some a → Useful a ∨ i = 0 ∧ a.2 = 0) (l : Int × Int)
    (hlevel : levels[k]? = some l) (huseful : Useful l) :
    ∃ t : TaskNode Node, Retried schedules name t ∧ t.AtLevel name (k + 1) l.1 0 := by
  have hbegun : Retried schedules name (scheduled name : TaskNode Node) := .begun
  induction k generalizing l with
  | zero =>
    apply hbegun.taken (takes_first rfl rfl hknown hlevel _ (0, 0)) huseful
    exact Int.ne_of_gt huseful.2
  | succ k ih =>
    have hlt := (List.getElem?_eq_some_iff.mp hlevel).1
    obtain ⟨a, ha⟩ : ∃ a, levels[k]? = some a := ⟨_, List.getElem?_eq_getElem (by omega)⟩
    rcases hbefore k (by omega) a ha with hyes | ⟨rfl, hzero⟩
    · obtain ⟨t, hretried, hat⟩ := ih (fun i hi ↦ hbefore i (by omega)) a ha hyes
      exact hretried.taken (takes_next hat hknown hlevel (0, 0)) huseful
    · rcases a with ⟨delay, times⟩
      obtain rfl : times = 0 := hzero
      exact hbegun.taken (takes_second rfl rfl hknown ha hlevel (0, 0)) huseful

/-- A level without a retry that a call takes makes it give up. -/
theorem Takes.exhausted {l : Int × Int} (h : Takes schedules uninitialised name level l t)
    (hpos : 0 ≤ l.1 ∧ 0 ≤ l.2) (huseless : ¬Useful l) : (t.retry uninitialised schedules).2 = .exhausted := by
  obtain ⟨t₁, retry, t₂, hparameters, hnext, -⟩ := h
  apply (retry_cases hparameters hnext).2.mpr
  by_contra hno
  exact huseless ⟨by omega, by omega⟩

/-- A schedule that is given up only when nothing is left of it has no gaps. -/
theorem noGaps_of_spent (hknown : schedules name = some levels) (hpos : ∀ l ∈ levels, 0 ≤ l.1 ∧ 0 ≤ l.2)
    (hspent : ∀ t : TaskNode Node, Retried schedules name t →
      (t.retry (0, 0) schedules).2 = .exhausted → t.Spent levels) : NoGaps levels := by
  -- level by level: if the first gap were at `i`, a task would come to it, and be given up there
  intro i
  induction i using Nat.strongRecOn with
  | ind i ih =>
    intro j a b hij ha hb huseful
    by_contra hgap
    rw [not_or] at hgap
    have hbefore : ∀ k < i, ∀ c, levels[k]? = some c → Useful c ∨ k = 0 ∧ c.2 = 0 :=
      fun k hk c hc ↦ ih k hk j c b (by omega) hc hb huseful
    have hapos := hpos a (List.mem_of_getElem? ha)
    -- a task that takes level `i` is given up, although level `j` is left
    have hstuck : ∀ t : TaskNode Node, Retried schedules name t → t.retryScheduleLevel.getD 0 ≤ i →
        ¬Takes schedules (0, 0) name i a t := by
      intro t hretried hle htakes
      have hgone := hspent t hretried (htakes.exhausted hapos hgap.1)
      exact hgone.2 b (mem_drop_iff.mpr ⟨j, by omega, hb⟩) huseful
    have hbegun : Retried schedules name (scheduled name : TaskNode Node) := .begun
    cases i with
    | zero =>
      apply hstuck _ hbegun (Nat.le_refl 0)
      exact takes_first rfl rfl hknown ha (fun hzero ↦ hgap.2 ⟨rfl, hzero⟩) (0, 0)
    | succ k =>
      have hlt := (List.getElem?_eq_some_iff.mp ha).1
      obtain ⟨c, hc⟩ : ∃ c, levels[k]? = some c := ⟨_, List.getElem?_eq_getElem (by omega)⟩
      rcases hbefore k (by omega) c hc with hyes | ⟨rfl, hzero⟩
      · obtain ⟨t, hretried, hat⟩ : ∃ t : TaskNode Node, Retried schedules name t ∧
            t.AtLevel name (k + 1) c.1 0 :=
          retried_level hknown k (fun i hi ↦ hbefore i (by omega)) c hc hyes
        have hlevel : t.retryScheduleLevel.getD 0 = k + 1 := congrArg (Option.getD · 0) hat.level
        exact hstuck t hretried (Nat.le_of_eq hlevel) (takes_next hat hknown ha (0, 0))
      · rcases c with ⟨delay, times⟩
        obtain rfl : times = 0 := hzero
        exact hstuck _ hbegun (Nat.zero_le _) (takes_second rfl rfl hknown hc ha (0, 0))

end TaskNode

/-! ## The texts -/

namespace RetryTexts

variable {schedules : String → Option (List (String × String))} {a : RetryTexts} {name : String}
variable {levels : List (String × String)} {t : TaskNode Node}

/-- The attributes that a task with this schedule comes to: at first it is at no level, and then come calls of
`retry_task`, between which other attributes may change. -/
inductive Reached (schedules : String → Option (List (String × String))) (name : String) : RetryTexts → Prop where
  | fresh {a : RetryTexts} (schedule : a.retrySchedule = some name) (level : a.retryScheduleLevel = none) :
      Reached schedules name a
  | called {a a' a'' : RetryTexts} {outcome : RetryOutcome} (before : Reached schedules name a) (c : RetryCall)
      (retval : Option Int) (returns : a.retry c schedules retval = some (a', outcome))
      (same : SameRetry a' a'') : Reached schedules name a''

theorem Reached.read (h : Reached schedules name a) (t : TaskNode Node) :
    TaskNode.Reached (readSchedules schedules) name (a.read t) := by
  induction h generalizing t with
  | fresh hschedule hlevel => exact .fresh hschedule (congrArg (Option.map _) hlevel)
  | called _ c retval hreturns hsame ih =>
    -- the task had this return value when the call was made
    have hcalled := ih { t with retval }
    apply hcalled.called c.unset
    rw [(retry_read (t := { t with retval }) hreturns).1]
    exact hsame.read _ _

/-- A task to which retries are planned has texts that the calls come to. -/
theorem reached_of_retried (hlisted : Listed schedules name levels)
    (h : TaskNode.Retried (readSchedules schedules) name t) :
    ∃ a : RetryTexts, Reached schedules name a ∧ a.Ready schedules ∧ t = a.read (.scheduled name) := by
  induction h with
  | begun =>
    refine ⟨⟨some name, none, none, none, none⟩, .fresh rfl rfl, ?_, rfl⟩
    refine ⟨rfl, fun name' h ↦ ?_, ⟨0, rfl, fun _ _ _ _ ↦ ⟨Int.le_refl 0, by omega⟩⟩, fun h ↦ ?_⟩
    · obtain rfl := Option.some.inj h
      exact ⟨levels, hlisted⟩
    · rcases h with hnone | hbegun
      · cases hnone
      · exact absurd rfl hbegun
  | again _ hplanned ih =>
    obtain ⟨a, hreached, hready, rfl⟩ := ih
    obtain ⟨a', outcome, hretry, hready'⟩ := hready.call ⟨(0, 0), (true, true)⟩ (TaskNode.scheduled name).retval
    have hread := (retry_read (t := (.scheduled name : TaskNode _)) hretry).1
    have hunset : RetryCall.unset ⟨(0, 0), (true, true)⟩ = (0, 0) := rfl
    rw [hunset] at hread
    rw [hread] at hplanned ⊢
    refine ⟨a', hreached.called _ _ hretry (SameRetry.refl a'), hready' ?_, rfl⟩
    cases outcome with
    | planned delay => exact ⟨delay, rfl⟩
    | exhausted => cases hplanned
    | passedOver => cases hplanned

end RetryTexts

namespace Failure

variable {f : Failure Node} {id : Nat} {t : TaskNode Node}

open TaskNode SavedWorkflow

theorem givesUp_iff (hfind : f.state.workflow.doc.task? id = some t) :
    f.GivesUp id ↔
      ∃ a', (f.state.attributes id).retry f.call f.state.schedules t.retval = some (a', .exhausted) := by
  constructor
  · rintro ⟨s, hafter, -, herrors⟩
    cases hretry : (f.state.attributes id).retry f.call f.state.schedules t.retval with
    | none =>
      unfold after TextInstance.retryTask at hafter
      rw [hfind] at hafter
      dsimp only at hafter
      rw [hretry] at hafter
      cases hafter
    | some found =>
      rcases found with ⟨a', outcome⟩
      rw [after_eq hfind rfl hretry, Option.some.injEq, Prod.mk.injEq] at hafter
      rw [← hafter.1] at herrors
      have hnext : ∀ n : UInt32, n ≠ n + 1 := by
        intro n heq
        exact absurd ((UInt32.add_right_inj (c := n)).mp ((UInt32.add_zero n).trans heq)) (by decide)
      cases outcome with
      | exhausted => exact ⟨a', rfl⟩
      | passedOver => exact absurd herrors (hnext _)
      | planned delay => exact absurd herrors (hnext _)
  · rintro ⟨a', hretry⟩
    exact givesUp_of_exhausted hfind rfl hretry

/-- An instance whose only task has failed, with these attributes. -/
def single (t : TaskNode Node) (a : RetryTexts) (schedules : String → Option (List (String × String))) :
    Failure Node where
  call := ⟨(0, 0), (true, true)⟩
  now := 0
  state :=
    { workflow :=
        { doc := { jobs := [], tasks := [t], schedules := fun _ ↦ none, nextId := t.id + 1 }
          isCancelling := false
          runningTally := 0
          retryingTally := 0
          errorTally := 0
          queued := []
          retrier := []
          trace := [] }
      attributes := fun _ ↦ a
      schedules }

theorem single_task (t : TaskNode Node) (a : RetryTexts)
    (schedules : String → Option (List (String × String))) :
    (single t a schedules).state.workflow.doc.task? t.id = some t := by
  show [t].find? (fun x ↦ x.id = t.id) = some t
  simp

/-- `retry_task` never gives up a task with a retry left, at its level or at a later one, exactly when the
schedule has no gaps. -/
theorem notAbandoned_iff (schedules : String → Option (List (String × String))) (name : String)
    (levels : List (String × String)) (hlisted : RetryTexts.Listed schedules name levels)
    (hdelays : ∀ l ∈ levels, 0 ≤ number l.1) :
    (∀ (f : Failure Node) (id : Nat) (t : TaskNode Node), f.state.schedules = schedules →
      f.state.workflow.doc.task? id = some t → RetryTexts.Reached schedules name (f.state.attributes id) →
      f.GivesUp id → ((f.state.attributes id).read t).Spent (levels.map readLevel)) ↔
    NoGaps (levels.map readLevel) := by
  have hknown : readSchedules schedules name = some (levels.map readLevel) :=
    congrArg (Option.map _) hlisted.known
  have hpos : ∀ l ∈ levels.map readLevel, 0 ≤ l.1 ∧ 0 ≤ l.2 := by
    intro l hl
    obtain ⟨l', hl', rfl⟩ := List.mem_map.mp hl
    obtain ⟨-, times, htimes, hnonneg⟩ := hlisted.parsed l' hl'
    refine ⟨hdelays l' hl', ?_⟩
    show 0 ≤ number l'.2
    rw [number_of_parseInt htimes]
    exact hnonneg
  constructor
  · intro h
    apply noGaps_of_spent hknown hpos
    intro t hretried hgone
    obtain ⟨a, hreached, hready, rfl⟩ := RetryTexts.reached_of_retried hlisted hretried
    -- the same call, for the texts
    obtain ⟨a', outcome, hretry, -⟩ := hready.call (single (.scheduled name : TaskNode Node) a schedules).call
      (.none)
    have hread := (RetryTexts.retry_read (t := (.scheduled name : TaskNode Node)) hretry).1
    have hkind := (congrArg Prod.snd hread).symm.trans hgone
    obtain rfl : outcome = .exhausted := by
      cases outcome with
      | exhausted => rfl
      | passedOver => cases hkind
      | planned delay => cases hkind
    have htask := single_task (.scheduled name : TaskNode Node) a schedules
    exact h (single (.scheduled name) a schedules) _ _ rfl htask hreached ((givesUp_iff htask).mpr ⟨a', hretry⟩)
  · rintro hgaps f id t rfl hfind hreached hgives
    obtain ⟨a', hretry⟩ := (givesUp_iff hfind).mp hgives
    have hread := (RetryTexts.retry_read (t := t) hretry).1
    exact spent_of_noGaps hknown hpos hgaps (hreached.read t) (congrArg Prod.snd hread)

/-- The first level has no times, and the other allows retries. -/
theorem notAbandoned_emptyFirst : NoGaps [(5, 0), (60, 2)] ∧
    ∀ (f : Failure Unit) (id : Nat) (t : TaskNode Unit),
      f.state.schedules = (fun name ↦ if name = "slowly" then some [("5", "0"), ("60", "2")] else none) →
      f.state.workflow.doc.task? id = some t →
      RetryTexts.Reached (fun name ↦ if name = "slowly" then some [("5", "0"), ("60", "2")] else none) "slowly"
        (f.state.attributes id) →
      f.GivesUp id →
      ((f.state.attributes id).read t).Spent ([("5", "0"), ("60", "2")].map readLevel) := by
  have hgaps : NoGaps [(5, 0), (60, 2)] := by
    intro i j a b hij ha hb huseful
    obtain rfl : i = 0 := by
      have hlt := (List.getElem?_eq_some_iff.mp hb).1
      simp only [List.length_cons, List.length_nil] at hlt
      omega
    cases ha
    exact .inr ⟨rfl, rfl⟩
  have hread : [("5", "0"), ("60", "2")].map readLevel = [(5, 0), (60, 2)] := by decide
  have hparsed : ∀ l ∈ [("5", "0"), ("60", "2")], RetryTexts.Parsed l := by
    intro l hl
    rcases List.mem_cons.mp hl with rfl | hl
    · exact ⟨⟨5, by decide⟩, 0, by decide, by decide⟩
    · obtain rfl := List.mem_singleton.mp hl
      exact ⟨⟨60, by decide⟩, 2, by decide, by decide⟩
  refine ⟨hgaps, ?_⟩
  apply (notAbandoned_iff (fun name ↦ if name = "slowly" then some [("5", "0"), ("60", "2")] else none) "slowly"
    [("5", "0"), ("60", "2")] ⟨by decide, rfl, by decide, hparsed⟩ (by decide)).mpr
  rw [hread]
  exact hgaps

/-- Two levels without times come first: the task is given up at its first failure, although the third level
has three retries. -/
theorem abandoned_twoEmpty :
    ∃ (f : Failure Unit) (t : TaskNode Unit),
      f.state = failed [("5", "0"), ("5", "0"), ("5", "3")] ⟨some "slowly", none, none, none, none⟩ ∧
      f.state.workflow.doc.task? 1 = some t ∧
      RetryTexts.Reached f.state.schedules "slowly" (f.state.attributes 1) ∧ f.GivesUp 1 ∧
      ¬((f.state.attributes 1).read t).Spent ([("5", "0"), ("5", "0"), ("5", "3")].map readLevel) := by
  refine ⟨⟨logged, 0, _⟩, _, rfl, rfl, .fresh rfl rfl, ⟨_, rfl, rfl, rfl⟩, ?_⟩
  intro hspent
  have hread : [("5", "0"), ("5", "0"), ("5", "3")].map readLevel = [(5, 0), (5, 0), (5, 3)] := by decide
  rw [hread] at hspent
  exact hspent.2 (5, 3) (by decide) ⟨by decide, by decide⟩

end Failure

end EvQueue
