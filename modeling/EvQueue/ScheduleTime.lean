import EvQueue.ScheduleNext

/-!
# ScheduleTime — the next time is due, and is always found

Every call of `get_next_time` moves forward, and never past an allowed time that is chosen with care: on
the last allowed second, and not on the days that February's missing ones stand for.  So the search ends,
and it ends on an allowed time.
-/

namespace EvQueue

open Calendar

namespace Schedule

/-- `t` is on an allowed second, minute, hour, day and month. -/
def matchesUpToMonth (utcOffset : Int) (s : Schedule) (t : Int) : Bool :=
  let tm := localtime_r utcOffset t
  s.allows .sec tm.sec && s.allows .min tm.min && s.allows .hour tm.hour &&
    s.allows .day (tm.mday - 1) && s.allows .month tm.mon

/-- `t` is also on an allowed weekday. -/
def matchesAll (utcOffset : Int) (s : Schedule) (t : Int) : Bool :=
  s.matchesUpToMonth utcOffset t && s.allows .wday (localtime_r utcOffset t).wday

variable {utcOffset now t : Int} {s : Schedule} {c f : Civil} {fuel : Nat}

theorem matchesUpToMonth_iff :
    s.matchesUpToMonth utcOffset t = true ↔ (Civil.ofTime utcOffset t).Allowed s := by
  simp only [matchesUpToMonth, Civil.Allowed, Civil.ofTime, Bool.and_eq_true, and_assoc]

theorem wday_eq (t : Int) :
    (localtime_r utcOffset t).wday = weekday (Civil.ofTime utcOffset t).dayNumber := by
  rw [Civil.ofTime_dayNumber]
  rfl

theorem matchesAll_iff : s.matchesAll utcOffset t = true ↔ (Civil.ofTime utcOffset t).Allowed s ∧
    s.allows .wday (weekday (Civil.ofTime utcOffset t).dayNumber) = true := by
  rw [matchesAll, Bool.and_eq_true, matchesUpToMonth_iff, wday_eq]

theorem time_lt_nextDay (utcOffset : Int) (hf : f.InRange) :
    f.time utcOffset < (nextDay f).time utcOffset := by
  rcases hf with ⟨-, -, hhour, hmin, hsec⟩
  unfold nextDay Civil.time Civil.dayNumber
  dsimp only
  omega

/-- What is returned is allowed on all levels, and not before `now`. -/
theorem get_next_time_matches (ha : s.Accepted) (h : s.get_next_time utcOffset fuel now = some t) :
    now ≤ t ∧ s.matchesAll utcOffset t = true := by
  induction fuel generalizing now with
  | zero => cases h
  | succ fuel ih =>
    rcases get_next_time_succ ha utcOffset now with ⟨f, hfirst, hstep⟩
    rw [hstep] at h
    have hle := hfirst.now_le
    split at h
    · rename_i hexists
      split at h
      · rename_i hwday
        cases h
        have hback := Civil.ofTime_time utcOffset (c := f) ⟨hfirst.inRange, hexists⟩
        refine ⟨hle, matchesAll_iff.mpr ?_⟩
        rw [hback]
        exact ⟨hfirst.allowed, hwday⟩
      · rcases ih h with ⟨hnext, hmatch⟩
        have hlt := time_lt_nextDay utcOffset hfirst.inRange
        exact ⟨by omega, hmatch⟩
    · rcases ih h with ⟨hnext, hmatch⟩
      exact ⟨by omega, hmatch⟩

/-! ## Termination -/

/-- An allowed time that no call of `get_next_time` passes by. -/
structure Target (s : Schedule) (c : Civil) : Prop where
  valid : c.Valid
  allowed : c.Allowed s
  wday : s.allows .wday (weekday c.dayNumber) = true
  sec : ∀ k, k < 60 → s.allows .sec k = true → k ≤ c.sec
  march : c.mon = 2 → c.day < 2 → s.allows .month 1 = false

/-- A date that does not exist stands for one that is not past the target. -/
theorem Target.overflow_le (hc : s.Target c) (hfirst : First s (.ofTime utcOffset now) f)
    (hle : f.rank ≤ c.rank) (hno : monthLength f.year f.mon ≤ f.day) :
    f.time utcOffset ≤ c.time utcOffset := by
  have hnow : (Civil.ofTime utcOffset now).Valid := Civil.ofTime_valid
  have htod := hfirst.time_of_day_le hnow.toInRange (otherDate_of_not_exists hnow hno)
    hc.valid.toInRange hc.allowed
  have hover := Civil.overflow_valid hfirst.inRange hno
  rw [← Civil.overflow_time hno]
  apply Civil.time_le_time _ hover hc.valid.toInRange
  have hexists := hc.valid.exists_
  have hmonth := hfirst.allowed.2.2.2.2
  have hmarch := hc.march
  rcases hc.valid.toInRange with ⟨hc₁, hc₂, hc₃, hc₄, hc₅⟩
  rcases hfirst.inRange with ⟨hf₁, hf₂, hf₃, hf₄, hf₅⟩
  have hshort := Civil.monthLength_short (y := f.year) hf₁ (by omega)
  have hlen := monthLength_cases f.year hf₁
  -- the target is in a later month: in that of `f` its day exists
  have hlater : f.year * 12 + f.mon < c.year * 12 + c.mon := by
    by_contra hno'
    unfold Civil.rank at hle
    have hyear : c.year = f.year := by omega
    have hmon : c.mon = f.mon := by omega
    rw [hyear, hmon] at hexists
    omega
  have hday : f.year * 12 + f.mon + 1 = c.year * 12 + c.mon → f.day - monthLength f.year f.mon ≤ c.day := by
    intro hnext
    by_cases hfeb : f.mon = 1
    · rw [hfeb] at hmonth
      by_contra hlt
      have hbad := hmarch (by omega) (by omega)
      rw [hmonth] at hbad
      cases hbad
    · have h30 := hshort.2.2 hfeb
      omega
  unfold Civil.overflow Civil.rank
  dsimp only
  omega

/-- The day after a date on a wrong weekday is not past the target either. -/
theorem Target.nextDay_le (hc : s.Target c) (hf : f.Valid) (hallowed : f.Allowed s)
    (hle : f.rank ≤ c.rank) (hwday : ¬ s.allows .wday (weekday f.dayNumber) = true) :
    (nextDay f).time utcOffset ≤ c.time utcOffset := by
  have htime := Civil.time_le_time 0 hf hc.valid.toInRange hle
  have hne : f.dayNumber ≠ c.dayNumber := by
    intro heq
    rw [heq] at hwday
    exact hwday hc.wday
  have hsec := hc.sec f.sec hf.sec hallowed.1
  rcases hf.toInRange with ⟨-, -, hhour, hmin, -⟩
  rcases hc.valid.toInRange with ⟨-, -, hhour', hmin', hsec'⟩
  have hnext : (nextDay f).dayNumber = f.dayNumber + 1 := by
    unfold nextDay Civil.dayNumber
    dsimp only
    omega
  unfold Civil.time at *
  rw [hnext]
  simp only [nextDay]
  omega

theorem Target.terminates (hc : s.Target c) (ha : s.Accepted) (hnow : now ≤ c.time utcOffset) :
    ∃ n, ∀ fuel, n ≤ fuel → s.get_next_time utcOffset fuel now ≠ none := by
  obtain ⟨k, hk⟩ : ∃ k, k = (c.time utcOffset - now).toNat := ⟨_, rfl⟩
  induction k using Nat.strong_induction_on generalizing now with
  | _ k ih =>
    rcases get_next_time_succ ha utcOffset now with ⟨f, hfirst, hstep⟩
    have hnowv : (Civil.ofTime utcOffset now).Valid := Civil.ofTime_valid
    have hrank : f.rank ≤ c.rank := by
      apply hfirst.least c hc.valid.toInRange hc.allowed
      apply Civil.rank_le_of_time_le utcOffset hc.valid hnowv.toInRange
      rwa [Civil.time_ofTime]
    -- each recursive call is on a later time that is not past the target
    have hrec : ∀ later, now < later → later ≤ c.time utcOffset →
        ∃ n, ∀ fuel, n ≤ fuel → s.get_next_time utcOffset fuel later ≠ none := by
      intro later hlt hle
      exact ih (c.time utcOffset - later).toNat (by omega) hle rfl
    by_cases hexists : f.day < monthLength f.year f.mon
    · by_cases hwday : s.allows .wday (weekday f.dayNumber) = true
      · refine ⟨1, ?_⟩
        intro fuel hfuel
        obtain ⟨fuel, rfl⟩ : ∃ m, fuel = m + 1 := ⟨fuel - 1, by omega⟩
        rw [hstep, if_pos hexists, if_pos hwday]
        simp
      · have hge := hfirst.now_le
        have hlt := time_lt_nextDay utcOffset hfirst.inRange
        rcases hrec _ (by omega) (hc.nextDay_le ⟨hfirst.inRange, hexists⟩ hfirst.allowed hrank hwday)
          with ⟨n, hn⟩
        refine ⟨n + 1, ?_⟩
        intro fuel hfuel
        obtain ⟨fuel, rfl⟩ : ∃ m, fuel = m + 1 := ⟨fuel - 1, by omega⟩
        rw [hstep, if_pos hexists, if_neg hwday]
        exact hn fuel (by omega)
    · have hno : monthLength f.year f.mon ≤ f.day := by omega
      have hlt : now < f.time utcOffset := by
        have hne : (Civil.ofTime utcOffset now).rank < f.rank := by
          rcases Int.lt_or_eq_of_le hfirst.le with hlt | heq
          · exact hlt
          · have hsame := Civil.rank_inj hnowv.toInRange hfirst.inRange heq
            rw [← hsame] at hexists
            exact absurd hnowv.exists_ hexists
        have hlt := Civil.time_lt_time utcOffset hnowv hfirst.inRange hne
        rwa [Civil.time_ofTime] at hlt
      rcases hrec _ hlt (hc.overflow_le hfirst hrank hno) with ⟨n, hn⟩
      refine ⟨n + 1, ?_⟩
      intro fuel hfuel
      obtain ⟨fuel, rfl⟩ : ∃ m, fuel = m + 1 := ⟨fuel - 1, by omega⟩
      rw [hstep, if_neg hexists]
      exact hn fuel (by omega)

theorem exists_greatest {p : Nat → Bool} {n : Nat} (h : ∃ v, v < n ∧ p v = true) :
    ∃ v, v < n ∧ p v = true ∧ ∀ k, k < n → p k = true → k ≤ v := by
  induction n with
  | zero =>
    rcases h with ⟨v, hv, -⟩
    omega
  | succ n ih =>
    by_cases hn : p n = true
    · exact ⟨n, by omega, hn, fun k hk _ ↦ by omega⟩
    · have hbelow : ∃ v, v < n ∧ p v = true := by
        rcases h with ⟨v, hv, hpv⟩
        have hne : v ≠ n := by
          rintro rfl
          exact hn hpv
        exact ⟨v, by omega, hpv⟩
      rcases ih hbelow with ⟨v, hv, hpv, hmax⟩
      refine ⟨v, by omega, hpv, ?_⟩
      intro k hk hpk
      have hne : k ≠ n := by
        rintro rfl
        exact hn hpk
      exact hmax k (by omega) hpk

/-- Some allowed date exists in leap years and is not one that February's missing days stand for. -/
theorem Accepted.exists_date (ha : s.Accepted) : ∃ m d, m < 12 ∧ d < (monthLengths true)[m]?.getD 0 ∧
    s.allows .month m = true ∧ s.allows .day d = true ∧
    (m = 2 → d < 2 → s.allows .month 1 = false) := by
  rcases ha.possible with ⟨m, d, hm, hd, hmonth, hday⟩
  by_cases hmarch : m = 2 ∧ d < 2 ∧ s.allows .month 1 = true
  · -- the same day of February exists too
    refine ⟨1, d, by omega, ?_, hmarch.2.2, hday, by omega⟩
    have h29 : (monthLengths true)[1]?.getD 0 = 29 := rfl
    omega
  · refine ⟨m, d, hm, hd, hmonth, hday, ?_⟩
    intro hm2 hd2
    by_contra hno
    exact hmarch ⟨hm2, hd2, by simpa using hno⟩

theorem Accepted.exists_target (ha : s.Accepted) (utcOffset now : Int) :
    ∃ c, s.Target c ∧ now ≤ c.time utcOffset := by
  rcases ha.exists_date with ⟨m, d, hm, hd, hmonth, hday, hmarch⟩
  rcases ha.some .hour with ⟨hour, hhour, hhourok⟩
  rcases ha.some .min with ⟨min, hmin, hminok⟩
  rcases exists_greatest (ha.some .sec) with ⟨sec, hsec, hsecok, hsecmax⟩
  rcases ha.some .wday with ⟨w, hw, hwok⟩
  rcases exists_weekday hw m d ((Civil.ofTime utcOffset now).year + 1) with ⟨y, hy, hleap, hwday⟩
  obtain ⟨c, hc⟩ : ∃ c : Civil, c = ⟨y, m, d, hour, min, sec⟩ := ⟨_, rfl⟩
  have hlen : d < monthLength y m := by
    unfold monthLength
    rwa [hleap]
  have hd31 := (monthLength_cases y hm).2.1
  have hd' : d < 31 := by omega
  have hrange : c.InRange := by
    rw [hc]
    exact ⟨hm, hd', hhour, hmin, hsec⟩
  refine ⟨c, ⟨⟨hrange, ?_⟩, ?_, ?_, ?_, ?_⟩, ?_⟩
  · rw [hc]
    exact hlen
  · rw [hc]
    exact ⟨hsecok, hminok, hhourok, hday, hmonth⟩
  · rw [hc]
    show s.allows .wday (weekday (monthStart y m + d)) = true
    rw [hwday]
    exact hwok
  · rw [hc]
    exact hsecmax
  · rw [hc]
    exact hmarch
  · have hnow : (Civil.ofTime utcOffset now).Valid := Civil.ofTime_valid
    rw [← Civil.time_ofTime utcOffset now]
    apply Civil.time_le_time _ hnow hrange
    rcases hnow.toInRange with ⟨h₁, h₂, h₃, h₄, h₅⟩
    have hyear : c.year = y := by rw [hc]
    unfold Civil.rank
    omega

/-- The search ends, after a number of calls that depends on the schedule and on `now`. -/
theorem get_next_time_terminates (ha : s.Accepted) (utcOffset now : Int) :
    ∃ n, ∀ fuel, n ≤ fuel → s.get_next_time utcOffset fuel now ≠ none := by
  rcases ha.exists_target utcOffset now with ⟨c, hc, hle⟩
  exact hc.terminates ha hle

/-- The time that an accepted schedule gives is found, is not before `now` and is allowed on all levels,
so that `GetNextTime` returns it as it is. -/
theorem get_next_time_sound (description : String) (s : Schedule) (h : create description = .ok s)
    (utcOffset now : Int) :
    (∃ n, ∀ fuel, n ≤ fuel → s.get_next_time utcOffset fuel now ≠ none) ∧
      (∀ fuel t, s.get_next_time utcOffset fuel now = some t →
        now ≤ t ∧ s.matchesAll utcOffset t = true) ∧
      ∀ fuel, s.getNextTime utcOffset fuel now = s.get_next_time utcOffset fuel (now + 1) := by
  have ha := create_accepted h
  refine ⟨get_next_time_terminates ha utcOffset now, fun fuel t ↦ get_next_time_matches ha, ?_⟩
  intro fuel
  unfold getNextTime
  cases hnext : s.get_next_time utcOffset fuel (now + 1) with
  | none => rfl
  | some t =>
    have hge := (get_next_time_matches ha hnext).1
    rw [Option.map_some, if_neg (by omega)]

/-- Every day at 4:30. -/
theorem get_next_time_sound_daily : ∃ s, create "0;30;4" = .ok s ∧
    (∃ n, ∀ fuel, n ≤ fuel → s.get_next_time 3600 fuel 1700000000 ≠ none) ∧
      (∀ fuel t, s.get_next_time 3600 fuel 1700000000 = some t →
        1700000000 ≤ t ∧ s.matchesAll 3600 t = true) ∧
      ∀ fuel, s.getNextTime 3600 fuel 1700000000 = s.get_next_time 3600 fuel (1700000000 + 1) :=
  ⟨_, rfl, get_next_time_sound "0;30;4" _ rfl 3600 1700000000⟩

/-! ## The number of calls -/

/-- A search that has ended is not changed by more fuel. -/
theorem get_next_time_more (ha : s.Accepted) (h : s.get_next_time utcOffset fuel now = some t) :
    s.get_next_time utcOffset (fuel + 1) now = some t := by
  induction fuel generalizing now with
  | zero => cases h
  | succ fuel ih =>
    obtain ⟨f, -, hstep⟩ := get_next_time_succ ha utcOffset now
    rw [hstep] at h ⊢
    -- the time composed is returned, or one of the two recursive calls is made
    split at h
    · rename_i hexists
      rw [if_pos hexists]
      split at h
      · rename_i hwday
        rw [if_pos hwday]
        exact h
      · rename_i hwday
        rw [if_neg hwday]
        exact ih h
    · rename_i hexists
      rw [if_neg hexists]
      exact ih h

/-- For every accepted schedule and every `now` the recursion ends: some number of calls is needed, and
with as many or more the same time is returned. -/
theorem get_next_time_ends (description : String) (s : Schedule) (h : create description = .ok s)
    (utcOffset now : Int) : ∃ calls t, (∀ fuel, fuel < calls → s.get_next_time utcOffset fuel now = none) ∧
      ∀ fuel, calls ≤ fuel → s.get_next_time utcOffset fuel now = some t := by
  have hends : ∃ fuel, (s.get_next_time utcOffset fuel now).isSome = true := by
    obtain ⟨n, hn⟩ := get_next_time_terminates (create_accepted h) utcOffset now
    exact ⟨n, Option.isSome_iff_ne_none.mpr (hn n (Nat.le_refl n))⟩
  obtain ⟨t, ht⟩ := Option.isSome_iff_exists.mp (Nat.find_spec hends)
  refine ⟨Nat.find hends, t, ?_, ?_⟩
  · intro fuel hfuel
    have hnot := Nat.find_min hends hfuel
    rwa [Bool.not_eq_true, Option.isSome_eq_false_iff, Option.isNone_iff_eq_none] at hnot
  · intro fuel hfuel
    induction fuel, hfuel using Nat.le_induction with
    | base => exact ht
    | succ fuel _ ih => exact get_next_time_more (create_accepted h) ih

/-- 29 February on a Monday, asked for in March 2024, when one has just passed by on another weekday. -/
theorem get_next_time_ends_leapDay : ∃ s, create "0;0;0;28;1;1" = .ok s ∧ ∃ calls t,
    (∀ fuel, fuel < calls → s.get_next_time 0 fuel 1709251200 = none) ∧
      ∀ fuel, calls ≤ fuel → s.get_next_time 0 fuel 1709251200 = some t :=
  ⟨_, rfl, get_next_time_ends "0;0;0;28;1;1" _ rfl 0 1709251200⟩

end Schedule

end EvQueue
