import EvQueue.ScheduleTime

/-!
# ScheduleMinimal — which allowed times the search passes by

The search goes on from the date that a missing one stands for, and from the next day with the seconds it
has.  The first passes by 1 or 2 March in a few schedules that allow February, the second passes by the
first allowed second of an allowed weekday.  Both conditions are exact.
-/

namespace EvQueue

open Calendar

namespace Schedule

variable {utcOffset now t : Int} {s : Schedule} {c f : Civil} {fuel : Nat}

/-! ## Missing days of February -/

/-- The rest of an allowed February has nothing to offer, its first allowed missing day `d` stands for a
day of March, and an allowed day `e` of an allowed March comes before that one. -/
def FebruarySkips (utcOffset : Int) (s : Schedule) (now : Int) : Prop :=
  let tm := localtime_r utcOffset now
  let length := monthLength (tm.year + 1900) 1
  tm.mon = 1 ∧ s.allows .month 1 = true ∧ s.allows .month 2 = true ∧
    (∀ t, now ≤ t → (localtime_r utcOffset t).mon = 1 → (localtime_r utcOffset t).year = tm.year →
      s.matchesUpToMonth utcOffset t = false) ∧
    ∃ d e, d < 31 ∧ length ≤ d ∧ s.allows .day d = true ∧
      (∀ k, length ≤ k → k < d → s.allows .day k = false) ∧
      s.allows .day e = true ∧ e + length < d

/-- Nothing from `now` on is allowed before `t`, weekdays left aside. -/
def NoneUpToMonth (utcOffset : Int) (s : Schedule) (now t : Int) : Prop :=
  ∀ u, now ≤ u → u < t → s.matchesUpToMonth utcOffset u = false

theorem First.noneUpToMonth (hfirst : First s (.ofTime utcOffset now) f)
    (hexists : f.day < monthLength f.year f.mon) : NoneUpToMonth utcOffset s now (f.time utcOffset) := by
  intro u hu hlt
  by_contra hno
  rw [Bool.not_eq_false, matchesUpToMonth_iff] at hno
  have hle := hfirst.le_of_allowed hu hno
  have htime := Civil.time_le_time utcOffset ⟨hfirst.inRange, hexists⟩
    Civil.ofTime_valid.toInRange hle
  rw [Civil.time_ofTime] at htime
  omega

/-- Where the condition holds, the missing day `d` of this February is composed. -/
theorem FebruarySkips.composed (hskip : FebruarySkips utcOffset s now)
    (hfirst : First s (.ofTime utcOffset now) f) :
    monthLength f.year f.mon ≤ f.day ∧ f.year = (Civil.ofTime utcOffset now).year ∧ f.mon = 1 ∧
      s.allows .month 2 = true ∧ ∃ e, s.allows .day e = true ∧ e + monthLength f.year 1 < f.day := by
  rcases hskip with ⟨hmon, hfeb, hmarch, hrest, d, e, hd, hlen, hallowed, hmin, he, hed⟩
  obtain ⟨c, hc⟩ : ∃ c, c = Civil.ofTime utcOffset now := ⟨_, rfl⟩
  have hcv : c.Valid := by
    rw [hc]
    exact Civil.ofTime_valid
  have hcmon : c.mon = 1 := by
    rw [hc]
    exact hmon
  have hcyear : c.year = (localtime_r utcOffset now).year + 1900 := by rw [hc]; rfl
  rw [← hcyear] at hlen hmin hed
  rw [← hc] at hfirst ⊢
  have hcday := hcv.exists_
  have hfr := hfirst.inRange
  have hfa := hfirst.allowed
  rw [hcmon] at hcday
  -- day `d` with the time of day of `f` is allowed and comes after the current date
  have hle : f.rank ≤ (Civil.mk c.year 1 d f.hour f.min f.sec).rank := by
    apply hfirst.least
    · exact ⟨(by decide : 1 < 12), hd, hfr.hour, hfr.min, hfr.sec⟩
    · exact ⟨hfa.1, hfa.2.1, hfa.2.2.1, hallowed, hfeb⟩
    · rcases hcv.toInRange with ⟨h₁, h₂, h₃, h₄, h₅⟩
      unfold Civil.rank
      dsimp only
      omega
  have hge := hfirst.le
  have hmonth : f.year = c.year ∧ f.mon = 1 ∧ f.day ≤ d := by
    rcases hcv.toInRange with ⟨h₁, h₂, h₃, h₄, h₅⟩
    rcases hfr with ⟨k₁, k₂, k₃, k₄, k₅⟩
    unfold Civil.rank at hle hge
    dsimp only at hle
    omega
  have hno : monthLength f.year f.mon ≤ f.day := by
    by_contra hlt
    -- an existing date would be an allowed time in the rest of February
    have hfv : f.Valid := ⟨hfr, by omega⟩
    have hback := Civil.ofTime_time utcOffset hfv
    have hmatch : s.matchesUpToMonth utcOffset (f.time utcOffset) = true := by
      rw [matchesUpToMonth_iff, hback]
      exact hfa
    have hnow : now ≤ f.time utcOffset := by
      rw [hc] at hfirst
      exact hfirst.now_le
    have hfmon := congrArg Civil.mon hback
    have hfyear := congrArg Civil.year hback
    simp only [Civil.ofTime] at hfmon hfyear
    have hbad := hrest (f.time utcOffset) hnow (by omega) (by omega)
    rw [hmatch] at hbad
    cases hbad
  rw [hmonth.1, hmonth.2.1] at hno
  have hday : f.day = d := by
    by_contra hne
    have hbad := hmin f.day hno (by omega)
    rw [hfa.2.2.2.1] at hbad
    cases hbad
  rw [hmonth.1, hmonth.2.1]
  refine ⟨hno, rfl, rfl, hmarch, e, he, ?_⟩
  omega

/-- When the date composed exists, nothing is passed by. -/
theorem not_februarySkips (hfirst : First s (.ofTime utcOffset now) f)
    (hexists : f.day < monthLength f.year f.mon) : ¬ FebruarySkips utcOffset s now := by
  intro hskip
  have hno := (hskip.composed hfirst).1
  omega

/-- The date that a missing one stands for is not in February. -/
theorem not_februarySkips_overflow (hf : f.InRange) (hno : monthLength f.year f.mon ≤ f.day) :
    ¬ FebruarySkips utcOffset s (f.time utcOffset) := by
  intro hskip
  have hback := Civil.ofTime_time utcOffset (Civil.overflow_valid hf hno)
  rw [Civil.overflow_time hno] at hback
  have hmon := congrArg Civil.mon hback
  simp only [Civil.ofTime, Civil.overflow] at hmon
  have hday := hf.day
  have hshort := Civil.monthLength_short (y := f.year) hf.mon (by omega)
  have hfeb := hskip.1
  omega

/-- An allowed time before the date that a missing one stands for is on an earlier day of the month
after, and the missing day is one of February. -/
theorem First.before_overflow {u : Int} (hfirst : First s (.ofTime utcOffset now) f)
    (hno : monthLength f.year f.mon ≤ f.day) (hu : now ≤ u) (hlt : u < f.time utcOffset)
    (hallowed : (Civil.ofTime utcOffset u).Allowed s) :
    f.mon = 1 ∧ (Civil.ofTime utcOffset u).year = f.year ∧ (Civil.ofTime utcOffset u).mon = 2 ∧
      (Civil.ofTime utcOffset u).day + monthLength f.year 1 < f.day := by
  have hnow : (Civil.ofTime utcOffset now).Valid := Civil.ofTime_valid
  have huv : (Civil.ofTime utcOffset u).Valid := Civil.ofTime_valid
  have htod := hfirst.time_of_day_le hnow.toInRange (otherDate_of_not_exists hnow hno)
    huv.toInRange hallowed
  have hle := hfirst.le_of_allowed hu hallowed
  have hover : (Civil.ofTime utcOffset u).rank < f.overflow.rank := by
    by_contra hge
    have htime := Civil.time_le_time utcOffset (Civil.overflow_valid hfirst.inRange hno)
      huv.toInRange (by omega)
    rw [Civil.overflow_time hno, Civil.time_ofTime] at htime
    omega
  obtain ⟨c, hc⟩ : ∃ c, c = Civil.ofTime utcOffset u := ⟨_, rfl⟩
  rw [← hc] at huv htod hle hover ⊢
  have hexists := huv.exists_
  rcases huv.toInRange with ⟨hc₁, hc₂, hc₃, hc₄, hc₅⟩
  rcases hfirst.inRange with ⟨hf₁, hf₂, hf₃, hf₄, hf₅⟩
  have hshort := Civil.monthLength_short (y := f.year) hf₁ (by omega)
  have hlater : f.year * 12 + f.mon < c.year * 12 + c.mon := by
    by_contra hno'
    unfold Civil.rank at hle
    have hyear : c.year = f.year := by omega
    have hmon : c.mon = f.mon := by omega
    rw [hyear, hmon] at hexists
    omega
  unfold Civil.overflow Civil.rank at hover
  dsimp only at hover
  have hnext : c.year = f.year ∧ c.mon = f.mon + 1 ∧ c.day < f.day - monthLength f.year f.mon := by omega
  have hfeb : f.mon = 1 := by
    by_contra hne
    have h30 := hshort.2.2 hne
    omega
  rw [hfeb] at hnext
  refine ⟨hfeb, hnext.1, hnext.2.1, ?_⟩
  omega

/-- A missing date passes something by exactly under the condition. -/
theorem noneUpToMonth_iff (hfirst : First s (.ofTime utcOffset now) f)
    (hno : monthLength f.year f.mon ≤ f.day) :
    NoneUpToMonth utcOffset s now (f.time utcOffset) ↔ ¬ FebruarySkips utcOffset s now := by
  have hnow : (Civil.ofTime utcOffset now).Valid := Civil.ofTime_valid
  have hfr := hfirst.inRange
  have hfa := hfirst.allowed
  constructor
  · intro hnone hskip
    rcases hskip.composed hfirst with ⟨-, hyear, hmon, hmarch, e, he, hed⟩
    -- day `e` of March is allowed and comes first
    obtain ⟨g, hg⟩ : ∃ g : Civil, g = ⟨f.year, 2, e, f.hour, f.min, f.sec⟩ := ⟨_, rfl⟩
    have hday := hfr.day
    have hlen := monthLength_cases f.year (show 2 < 12 by decide)
    have h28 := monthLength_cases f.year (show 1 < 12 by decide)
    have he31 : e < 31 := by omega
    have hgv : g.Valid := by
      rw [hg]
      refine ⟨⟨(by decide : 2 < 12), he31, hfr.hour, hfr.min, hfr.sec⟩, ?_⟩
      dsimp only
      omega
    have hnow' : now ≤ g.time utcOffset := by
      rw [← Civil.time_ofTime utcOffset now]
      apply Civil.time_le_time _ hnow hgv.toInRange
      have hle := hfirst.le
      rw [hg]
      unfold Civil.rank at *
      dsimp only
      omega
    have hlt : g.time utcOffset < f.time utcOffset := by
      rw [← Civil.overflow_time hno]
      apply Civil.time_lt_time _ hgv (Civil.overflow_valid hfr hno).toInRange
      rw [hg]
      unfold Civil.overflow Civil.rank
      dsimp only
      rw [hmon]
      omega
    -- the search went past a date that all fields allow
    have hbad := hnone (g.time utcOffset) hnow' hlt
    have hmatch : s.matchesUpToMonth utcOffset (g.time utcOffset) = true := by
      rw [matchesUpToMonth_iff, Civil.ofTime_time _ hgv, hg]
      exact ⟨hfa.1, hfa.2.1, hfa.2.2.1, he, hmarch⟩
    rw [hmatch] at hbad
    cases hbad
  · intro hskip u hu hlt
    by_contra hmatch
    rw [Bool.not_eq_false, matchesUpToMonth_iff] at hmatch
    rcases hfirst.before_overflow hno hu hlt hmatch with ⟨hfeb, huyear, humon, huday⟩
    apply hskip
    obtain ⟨e, he⟩ : ∃ e, e = (Civil.ofTime utcOffset u).day := ⟨_, rfl⟩
    rw [← he] at huday
    have heallowed : s.allows .day e = true := by
      rw [he]
      exact hmatch.2.2.2.1
    -- a day of this February is not numbered below the one composed
    have hleast : ∀ k, k < 31 → s.allows .day k = true →
        (Civil.ofTime utcOffset now).rank ≤ (Civil.mk f.year 1 k f.hour f.min f.sec).rank → f.day ≤ k := by
      intro k hk hkallowed hge
      have hmonth : s.allows .month 1 = true := by
        rw [← hfeb]
        exact hfa.2.2.2.2
      have hmin := hfirst.least ⟨f.year, 1, k, f.hour, f.min, f.sec⟩
        ⟨(by decide : 1 < 12), hk, hfr.hour, hfr.min, hfr.sec⟩
        ⟨hfa.1, hfa.2.1, hfa.2.2.1, hkallowed, hmonth⟩ hge
      unfold Civil.rank at hmin
      dsimp only at hmin
      omega
    have hle := hfirst.le
    obtain ⟨c, hc⟩ : ∃ c, c = Civil.ofTime utcOffset now := ⟨_, rfl⟩
    rw [← hc] at hnow hleast hle
    have hcday := hnow.exists_
    have hday := hfr.day
    -- `now` is in the February that is composed: from another month on, day `e` of it would have come first
    have hthis : c.year = f.year ∧ c.mon = 1 := by
      by_contra hother
      have hbad := hleast e (by omega) heallowed (by
        rcases hnow.toInRange with ⟨h₁, h₂, h₃, h₄, h₅⟩
        rcases hfr with ⟨k₁, k₂, k₃, k₄, k₅⟩
        unfold Civil.rank at *
        dsimp only
        omega)
      omega
    have hcyear : c.year = (localtime_r utcOffset now).year + 1900 := by rw [hc]; rfl
    have hcmon : c.mon = (localtime_r utcOffset now).mon := by rw [hc]; rfl
    rw [hthis.1, hthis.2] at hcday
    rw [hfeb] at hno
    unfold FebruarySkips
    dsimp only
    rw [← hcyear, ← hcmon, hthis.1]
    refine ⟨hthis.2, ?_, ?_, ?_, f.day, e, hday, hno, hfa.2.2.2.1, ?_, heallowed, huday⟩
    · rw [← hfeb]
      exact hfa.2.2.2.2
    · rw [← humon]
      exact hmatch.2.2.2.2
    · -- a later time of the same February would have been found, or lies behind the day composed
      intro v hv hvmon hvyear
      by_contra hvmatch
      rw [Bool.not_eq_false, matchesUpToMonth_iff] at hvmatch
      have hvv : (Civil.ofTime utcOffset v).Valid := Civil.ofTime_valid
      have hvle := hfirst.le_of_allowed hv hvmatch
      have hvday := hvv.exists_
      have h₁ : (Civil.ofTime utcOffset v).mon = 1 := hvmon
      have h₂ : (Civil.ofTime utcOffset v).year = f.year := by
        simp only [Civil.ofTime]
        omega
      rcases hvv.toInRange with ⟨-, -, k₃, k₄, k₅⟩
      rw [h₁, h₂] at hvday
      unfold Civil.rank at hvle
      rw [h₁, h₂] at hvle
      omega
    · -- a day between `now` and the one composed would have been taken
      intro k hk hkd
      by_contra hkallowed
      have hbad := hleast k (by omega) (by simpa using hkallowed) (by
        rcases hnow.toInRange with ⟨h₁, h₂, h₃, h₄, h₅⟩
        unfold Civil.rank
        dsimp only
        omega)
      omega

theorem noneUpToMonth_iff_of_some (ha : s.Accepted)
    (hwday : ∀ w, w < 7 → s.allows .wday w = true)
    (h : s.get_next_time utcOffset fuel now = some t) :
    NoneUpToMonth utcOffset s now t ↔ ¬ FebruarySkips utcOffset s now := by
  induction fuel generalizing now with
  | zero => cases h
  | succ fuel ih =>
    rcases get_next_time_succ ha utcOffset now with ⟨f, hfirst, hstep⟩
    rw [hstep] at h
    by_cases hexists : f.day < monthLength f.year f.mon
    · rw [if_pos hexists, if_pos (hwday _ (weekday_lt _))] at h
      cases h
      have hnone := hfirst.noneUpToMonth hexists
      have hskip := not_februarySkips hfirst hexists
      exact ⟨fun _ ↦ hskip, fun _ ↦ hnone⟩
    · rw [if_neg hexists] at h
      have hno : monthLength f.year f.mon ≤ f.day := by omega
      have hrest := (ih h).mpr (not_februarySkips_overflow hfirst.inRange hno)
      have hnow := hfirst.now_le
      have hlater := (get_next_time_matches ha h).1
      rw [← noneUpToMonth_iff hfirst hno]
      constructor
      · intro hnone u hu hlt
        exact hnone u hu (by omega)
      · intro hnone u hu hlt
        by_cases hsplit : u < f.time utcOffset
        · exact hnone u hu hsplit
        · exact hrest u (by omega) hlt

/-- With all weekdays allowed, no date that matches is passed by exactly when February has no missing day
that jumps over one. -/
theorem skips_no_date_iff (description : String) (s : Schedule) (h : create description = .ok s)
    (hwday : ∀ w, w < 7 → s.allows .wday w = true) (utcOffset now : Int) :
    ∃ n, ∀ fuel, n ≤ fuel → ∃ t, s.get_next_time utcOffset fuel now = some t ∧
      ((∀ u, now ≤ u → u < t → s.matchesUpToMonth utcOffset u = false) ↔
        ¬ FebruarySkips utcOffset s now) := by
  have ha := create_accepted h
  rcases get_next_time_terminates ha utcOffset now with ⟨n, hn⟩
  refine ⟨n, ?_⟩
  intro fuel hfuel
  rcases Option.ne_none_iff_exists'.mp (hn fuel hfuel) with ⟨t, ht⟩
  exact ⟨t, ht, noneUpToMonth_iff_of_some ha hwday ht⟩

/-- On the first and the last day of every month. -/
theorem skips_no_date_iff_first_last : ∃ s, create "0;0;0;0,30;" = .ok s ∧
    ∃ n, ∀ fuel, n ≤ fuel → ∃ t, s.get_next_time 0 fuel 1700000000 = some t ∧
      ((∀ u, 1700000000 ≤ u → u < t → s.matchesUpToMonth 0 u = false) ↔
        ¬ FebruarySkips 0 s 1700000000) :=
  ⟨_, rfl, skips_no_date_iff "0;0;0;0,30;" _ rfl (by decide) 0 1700000000⟩

/-- On days 1 and 31 of February and March, the search made on 16 February 2023 composes 31 February,
goes on from 3 March, finds 31 March and passes 1 March by. -/
theorem march_first_passed_by : ∃ s t u, create "0;0;0;0,30;1,2" = .ok s ∧
    (∀ w, w < 7 → s.allows .wday w = true) ∧ s.get_next_time 0 2 1676505600 = some t ∧
    1676505600 ≤ u ∧ u < t ∧ s.matchesUpToMonth 0 u = true :=
  ⟨_, 1680220800, 1677628800, rfl, by decide, by decide +kernel, by decide, by decide,
    by decide +kernel⟩

/-! ## The seconds of the next day -/

/-- From the day after `day` on, all days up to the first on an allowed weekday are in allowed months. -/
def Reaches (s : Schedule) (day : Int) : Prop :=
  ∃ n : Nat, 0 < n ∧ s.allows .wday (weekday (day + n)) = true ∧
    (∀ j : Nat, 0 < j → j < n → s.allows .wday (weekday (day + j)) = false) ∧
    ∀ j : Nat, 0 < j → j ≤ n → s.allows .month (Date.ofDayNumber (day + j)).month = true

/-- All of the current time is allowed but its weekday and perhaps its second, midnight is allowed too,
a second is allowed from the current one on and another one before it, and the days up to the first
allowed weekday are in allowed months. -/
def WeekdaySkips (utcOffset : Int) (s : Schedule) (now : Int) : Prop :=
  let tm := localtime_r utcOffset now
  s.allows .wday tm.wday = false ∧ s.allows .month tm.mon = true ∧ s.allows .hour tm.hour = true ∧
    s.allows .min tm.min = true ∧ s.allows .hour 0 = true ∧ s.allows .min 0 = true ∧
    (∃ k l, k < tm.sec ∧ tm.sec ≤ l ∧ l < 60 ∧ s.allows .sec k = true ∧ s.allows .sec l = true) ∧
    Reaches s ((now + utcOffset) / 86400)

/-- Nothing from `now` on is allowed before `t`. -/
def NoneAll (utcOffset : Int) (s : Schedule) (now t : Int) : Prop :=
  ∀ u, now ≤ u → u < t → s.matchesAll utcOffset u = false

theorem reaches_iff (day : Int) : Reaches s day ↔
    s.allows .month (Date.ofDayNumber (day + 1)).month = true ∧
      (s.allows .wday (weekday (day + 1)) = true ∨
        s.allows .wday (weekday (day + 1)) = false ∧ Reaches s (day + 1)) := by
  have hshift : ∀ j : Nat, day + ((j + 1 : Nat) : Int) = day + 1 + j := by
    intro j
    omega
  constructor
  · rintro ⟨n, hn, hwday, hbefore, hmonth⟩
    refine ⟨hmonth 1 (by omega) (by omega), ?_⟩
    obtain ⟨m, rfl⟩ : ∃ m, n = m + 1 := ⟨n - 1, by omega⟩
    by_cases hm : m = 0
    · subst hm
      exact .inl hwday
    · refine .inr ⟨hbefore 1 (by omega) (by omega), m, by omega, ?_, ?_, ?_⟩
      · rw [← hshift]
        exact hwday
      · intro j hj hjm
        rw [← hshift]
        exact hbefore (j + 1) (by omega) (by omega)
      · intro j hj hjm
        rw [← hshift]
        exact hmonth (j + 1) (by omega) (by omega)
  · rintro ⟨hfirst, hwday | ⟨hno, m, hm, hwday, hbefore, hmonth⟩⟩
    · refine ⟨1, by omega, hwday, fun j hj hj1 ↦ by omega, ?_⟩
      intro j hj hj1
      obtain rfl : j = 1 := by omega
      exact hfirst
    · refine ⟨m + 1, by omega, ?_, ?_, ?_⟩
      · rw [hshift]
        exact hwday
      · intro j hj hjm
        obtain ⟨i, rfl⟩ : ∃ i, j = i + 1 := ⟨j - 1, by omega⟩
        rw [hshift]
        by_cases hi : i = 0
        · subst hi
          simpa using hno
        · exact hbefore i (by omega) (by omega)
      · intro j hj hjm
        obtain ⟨i, rfl⟩ : ∃ i, j = i + 1 := ⟨j - 1, by omega⟩
        rw [hshift]
        by_cases hi : i = 0
        · subst hi
          simpa using hfirst
        · exact hmonth i (by omega) (by omega)

/-- The first minute of a day. -/
theorem localtime_midnight {day : Int} {k : Nat} (hk : k < 60)
    (ht : t + utcOffset = day * 86400 + k) :
    (localtime_r utcOffset t).sec = k ∧ (localtime_r utcOffset t).min = 0 ∧
      (localtime_r utcOffset t).hour = 0 ∧
      (localtime_r utcOffset t).mday - 1 = (Date.ofDayNumber day).day ∧
      (localtime_r utcOffset t).mon = (Date.ofDayNumber day).month ∧
      (localtime_r utcOffset t).wday = weekday day ∧ (t + utcOffset) / 86400 = day := by
  have hday : (t + utcOffset) / 86400 = day := by omega
  have hsecond : ((t + utcOffset) % 86400).toNat = k := by omega
  simp only [localtime_r, hday, hsecond]
  refine ⟨by omega, by omega, by omega, by omega, trivial, trivial, trivial⟩

theorem ofDayNumber_day_lt (day : Int) : (Date.ofDayNumber day).day < 31 := by
  have hvalid := (Date.ofDayNumber_spec day).1
  have hlen := (monthLength_cases (Date.ofDayNumber day).year hvalid.1).2.1
  have hday := hvalid.2
  omega

theorem matchesAll_midnight {day : Int} {k : Nat} (hday : ∀ d, d < 31 → s.allows .day d = true)
    (hk : k < 60) (ht : t + utcOffset = day * 86400 + k) :
    s.matchesAll utcOffset t = true ↔ s.allows .sec k = true ∧ s.allows .min 0 = true ∧
      s.allows .hour 0 = true ∧ s.allows .month (Date.ofDayNumber day).month = true ∧
      s.allows .wday (weekday day) = true := by
  rcases localtime_midnight hk ht with ⟨hsec, hmin, hhour, hmday, hmon, hwday, -⟩
  unfold matchesAll matchesUpToMonth
  dsimp only
  rw [hsec, hmin, hhour, hmday, hmon, hwday]
  simp [hday _ (ofDayNumber_day_lt day), and_assoc]

theorem nextDay_time (utcOffset : Int) (f : Civil) :
    (nextDay f).time utcOffset + utcOffset = (f.dayNumber + 1) * 86400 + f.sec := by
  unfold nextDay Civil.time Civil.dayNumber
  dsimp only
  omega

/-- Where the condition holds, a later second of the current minute is composed. -/
theorem WeekdaySkips.composed (hskip : WeekdaySkips utcOffset s now)
    (hday : ∀ d, d < 31 → s.allows .day d = true) (hfirst : First s (.ofTime utcOffset now) f) :
    f = { Civil.ofTime utcOffset now with sec := f.sec } ∧ (Civil.ofTime utcOffset now).sec ≤ f.sec := by
  rcases hskip with ⟨-, hmon, hhour, hmin, -, -, ⟨k, l, -, hl, hl60, -, hlok⟩, -⟩
  obtain ⟨c, hc⟩ : ∃ c, c = Civil.ofTime utcOffset now := ⟨_, rfl⟩
  have hcv : c.InRange := by
    rw [hc]
    exact Civil.ofTime_valid.toInRange
  have hmon' : s.allows .month c.mon = true := by rw [hc]; exact hmon
  have hhour' : s.allows .hour c.hour = true := by rw [hc]; exact hhour
  have hmin' : s.allows .min c.min = true := by rw [hc]; exact hmin
  have hl' : c.sec ≤ l := by rw [hc]; exact hl
  rw [← hc] at hfirst ⊢
  have hle := hfirst.le
  have hleast := hfirst.least { c with sec := l } ⟨hcv.mon, hcv.day, hcv.hour, hcv.min, hl60⟩
    ⟨hlok, hmin', hhour', hday _ hcv.day, hmon'⟩ (by
      unfold Civil.rank
      dsimp only
      omega)
  rcases hcv with ⟨h₁, h₂, h₃, h₄, h₅⟩
  rcases hfirst.inRange with ⟨k₁, k₂, k₃, k₄, k₅⟩
  rcases f with ⟨year, mon, day, hour, min, sec⟩
  unfold Civil.rank at hle hleast
  dsimp only at *
  have hsame : year = c.year ∧ mon = c.mon ∧ day = c.day ∧ hour = c.hour ∧ min = c.min ∧
      c.sec ≤ sec := by omega
  rcases hsame with ⟨rfl, rfl, rfl, rfl, rfl, hsec⟩
  exact ⟨rfl, hsec⟩

/-- After a date on a wrong weekday, the condition says that a second before the one composed is allowed
and that the next days lead to an allowed weekday. -/
theorem weekdaySkips_iff (hday : ∀ d, d < 31 → s.allows .day d = true)
    (hfirst : First s (.ofTime utcOffset now) f)
    (hwday : s.allows .wday (weekday f.dayNumber) = false) :
    WeekdaySkips utcOffset s now ↔ s.allows .hour 0 = true ∧ s.allows .min 0 = true ∧
      (∃ k, k < f.sec ∧ s.allows .sec k = true) ∧ Reaches s f.dayNumber := by
  have hnum : (Civil.ofTime utcOffset now).dayNumber = (now + utcOffset) / 86400 :=
    Civil.ofTime_dayNumber _ _
  constructor
  · intro hskip
    rcases hskip.composed hday hfirst with ⟨hf, hsec⟩
    rcases hskip with ⟨-, -, -, -, hhour0, hmin0, ⟨k, l, hk, -, -, hkok, -⟩, hreach⟩
    have hk' : k < (Civil.ofTime utcOffset now).sec := hk
    refine ⟨hhour0, hmin0, ⟨k, by omega, hkok⟩, ?_⟩
    have hsame : f.dayNumber = (Civil.ofTime utcOffset now).dayNumber := by rw [hf]; rfl
    rw [hsame, hnum]
    exact hreach
  · rintro ⟨hhour0, hmin0, ⟨k, hk, hkok⟩, hreach⟩
    have hcv : (Civil.ofTime utcOffset now).InRange := Civil.ofTime_valid.toInRange
    have hfr := hfirst.inRange
    have hfa := hfirst.allowed
    have hle := hfirst.le
    -- second `k` of the same minute would have been composed if it came from `now` on
    have hbefore : ({ f with sec := k } : Civil).rank < (Civil.ofTime utcOffset now).rank := by
      by_contra hge
      have hk60 : k < 60 := Nat.lt_trans hk hfr.sec
      have hleast := hfirst.least { f with sec := k }
        ⟨hfr.mon, hfr.day, hfr.hour, hfr.min, hk60⟩
        ⟨hkok, hfa.2.1, hfa.2.2.1, hfa.2.2.2.1, hfa.2.2.2.2⟩ (by omega)
      unfold Civil.rank at hleast
      dsimp only at hleast
      omega
    obtain ⟨c, hc⟩ : ∃ c, c = Civil.ofTime utcOffset now := ⟨_, rfl⟩
    rw [← hc] at hcv hle hbefore hnum
    have hsame : c.year = f.year ∧ c.mon = f.mon ∧ c.day = f.day ∧ c.hour = f.hour ∧ c.min = f.min ∧
        k < c.sec ∧ c.sec ≤ f.sec := by
      rcases hcv with ⟨h₁, h₂, h₃, h₄, h₅⟩
      rcases hfr with ⟨k₁, k₂, k₃, k₄, k₅⟩
      unfold Civil.rank at hle hbefore
      dsimp only at hbefore
      omega
    rcases hsame with ⟨hyear, hmon, hmday, hhour, hmin, hks, hsf⟩
    have hnum' : c.dayNumber = f.dayNumber := by
      unfold Civil.dayNumber
      rw [hyear, hmon, hmday]
    have hfields : (localtime_r utcOffset now).mon = c.mon ∧ (localtime_r utcOffset now).hour = c.hour ∧
        (localtime_r utcOffset now).min = c.min ∧ (localtime_r utcOffset now).sec = c.sec := by
      rw [hc]
      exact ⟨rfl, rfl, rfl, rfl⟩
    unfold WeekdaySkips
    dsimp only
    rw [wday_eq, ← hc, hfields.1, hfields.2.1, hfields.2.2.1, hfields.2.2.2, ← hnum, hnum', hmon, hhour,
      hmin]
    exact ⟨hwday, hfa.2.2.2.2, hfa.2.2.1, hfa.2.1, hhour0, hmin0,
      ⟨k, f.sec, hks, hsf, hfr.sec, hkok, hfa.1⟩, hreach⟩

/-- The next day at midnight passes something by when it is itself on an allowed weekday. -/
theorem noneAll_nextDay_iff (hday : ∀ d, d < 31 → s.allows .day d = true)
    (hfirst : First s (.ofTime utcOffset now) f) (hexists : f.day < monthLength f.year f.mon)
    (hwday : s.allows .wday (weekday f.dayNumber) = false) :
    NoneAll utcOffset s now ((nextDay f).time utcOffset) ↔
      ¬ (s.allows .hour 0 = true ∧ s.allows .min 0 = true ∧ (∃ k, k < f.sec ∧ s.allows .sec k = true) ∧
        s.allows .month (Date.ofDayNumber (f.dayNumber + 1)).month = true ∧
        s.allows .wday (weekday (f.dayNumber + 1)) = true) := by
  have hfr := hfirst.inRange
  have hnext := nextDay_time utcOffset f
  constructor
  · rintro hnone ⟨hhour, hmin, ⟨k, hk, hkok⟩, hmonth, hwdayok⟩
    have hnow := hfirst.now_le
    have hlt := time_lt_nextDay utcOffset hfr
    have hsec := hfr.sec
    obtain ⟨u, hu⟩ : ∃ u, u + utcOffset = (f.dayNumber + 1) * 86400 + k :=
      ⟨(f.dayNumber + 1) * 86400 + k - utcOffset, by omega⟩
    have hfu : f.time utcOffset < u := by
      rcases hfr with ⟨-, -, hhour, hmin, -⟩
      unfold Civil.time
      omega
    have hmatch := (matchesAll_midnight (s := s) hday (by omega) hu).mpr
      ⟨hkok, hmin, hhour, hmonth, hwdayok⟩
    rw [hnone u (by omega) (by omega)] at hmatch
    cases hmatch
  · intro hno u hnow hlt
    by_contra hmatch
    rw [Bool.not_eq_false] at hmatch
    have hboth := matchesAll_iff.mp hmatch
    have hle := Civil.time_le_time utcOffset ⟨hfr, hexists⟩
      Civil.ofTime_valid.toInRange (hfirst.le_of_allowed hnow hboth.1)
    rw [Civil.time_ofTime] at hle
    -- the weekday of `f` is wrong, so `u` is on the next day
    have hne : (u + utcOffset) / 86400 ≠ f.dayNumber := by
      intro heq
      rw [Civil.ofTime_dayNumber, heq, hwday] at hboth
      cases hboth.2
    have hsec := hfr.sec
    obtain ⟨k, hk⟩ : ∃ k : Nat, u + utcOffset = (f.dayNumber + 1) * 86400 + k := by
      refine ⟨(u + utcOffset - (f.dayNumber + 1) * 86400).toNat, ?_⟩
      unfold Civil.time at hle
      omega
    rcases (matchesAll_midnight hday (by omega) hk).mp hmatch with ⟨hkok, hmin, hhour, hmonth, hwdayok⟩
    exact hno ⟨hhour, hmin, ⟨k, by omega, hkok⟩, hmonth, hwdayok⟩

theorem weekdaySkips_nextDay_iff (hf : f.InRange) (hsec : s.allows .sec f.sec = true) :
    WeekdaySkips utcOffset s ((nextDay f).time utcOffset) ↔
      s.allows .hour 0 = true ∧ s.allows .min 0 = true ∧ (∃ k, k < f.sec ∧ s.allows .sec k = true) ∧
        s.allows .month (Date.ofDayNumber (f.dayNumber + 1)).month = true ∧
        s.allows .wday (weekday (f.dayNumber + 1)) = false ∧ Reaches s (f.dayNumber + 1) := by
  rcases localtime_midnight hf.sec (nextDay_time utcOffset f) with
    ⟨h₁, h₂, h₃, -, h₅, h₆, h₇⟩
  unfold WeekdaySkips
  dsimp only
  rw [h₁, h₂, h₃, h₅, h₆, h₇]
  constructor
  · rintro ⟨hwday, hmonth, hhour, hmin, -, -, ⟨k, l, hk, -, -, hkok, -⟩, hreach⟩
    exact ⟨hhour, hmin, ⟨k, hk, hkok⟩, hmonth, hwday, hreach⟩
  · rintro ⟨hhour, hmin, ⟨k, hk, hkok⟩, hmonth, hwday, hreach⟩
    exact ⟨hwday, hmonth, hhour, hmin, hhour, hmin,
      ⟨k, f.sec, hk, Nat.le_refl _, hf.sec, hkok, hsec⟩, hreach⟩

/-- With all days allowed a missing date is the day after the last of its month. -/
theorem First.missing_day (hday : ∀ d, d < 31 → s.allows .day d = true)
    (hfirst : First s (.ofTime utcOffset now) f) (hno : monthLength f.year f.mon ≤ f.day) :
    f.day = monthLength f.year f.mon := by
  have hfr := hfirst.inRange
  have hfa := hfirst.allowed
  have hlen : monthLength f.year f.mon < 31 := Nat.lt_of_le_of_lt hno hfr.day
  have hleast := hfirst.least { f with day := monthLength f.year f.mon }
    ⟨hfr.mon, hlen, hfr.hour, hfr.min, hfr.sec⟩
    ⟨hfa.1, hfa.2.1, hfa.2.2.1, hday _ hlen, hfa.2.2.2.2⟩ (by
      have hnow : (Civil.ofTime utcOffset now).Valid := Civil.ofTime_valid
      have hle := hfirst.le
      have hexists := hnow.exists_
      obtain ⟨c, hc⟩ : ∃ c, c = Civil.ofTime utcOffset now := ⟨_, rfl⟩
      rw [← hc] at hnow hle hexists ⊢
      rcases hnow.toInRange with ⟨h₁, h₂, h₃, h₄, h₅⟩
      rcases hfr with ⟨k₁, k₂, k₃, k₄, k₅⟩
      by_cases hmonth : c.year * 12 + c.mon = f.year * 12 + f.mon
      · have hyear : c.year = f.year := by omega
        have hmon : c.mon = f.mon := by omega
        rw [hyear, hmon] at hexists
        unfold Civil.rank
        dsimp only
        omega
      · unfold Civil.rank at *
        dsimp only
        omega)
  unfold Civil.rank at hleast
  dsimp only at hleast
  omega

/-- A missing date passes nothing by, and the search goes on with the least allowed second. -/
theorem missing_date (hday : ∀ d, d < 31 → s.allows .day d = true)
    (hfirst : First s (.ofTime utcOffset now) f) (hno : monthLength f.year f.mon ≤ f.day) :
    NoneAll utcOffset s now (f.time utcOffset) ∧ ¬ WeekdaySkips utcOffset s now ∧
      ¬ WeekdaySkips utcOffset s (f.time utcOffset) := by
  have hnow : (Civil.ofTime utcOffset now).Valid := Civil.ofTime_valid
  refine ⟨?_, ?_, ?_⟩
  · intro u hu hlt
    by_contra hmatch
    rw [Bool.not_eq_false] at hmatch
    have hbefore := hfirst.before_overflow hno hu hlt (matchesAll_iff.mp hmatch).1
    have hmissing := hfirst.missing_day hday hno
    rw [hbefore.1] at hmissing
    omega
  · intro hskip
    have hsame := (hskip.composed hday hfirst).1
    have hexists := hnow.exists_
    rw [hsame] at hno
    dsimp only at hno
    omega
  · intro hskip
    have hback := Civil.ofTime_time utcOffset
      (Civil.overflow_valid hfirst.inRange hno)
    rw [Civil.overflow_time hno] at hback
    have hsec : (localtime_r utcOffset (f.time utcOffset)).sec = f.sec := congrArg Civil.sec hback
    rcases hskip with ⟨-, -, -, -, -, -, ⟨k, l, hk, -, -, hkok, -⟩, -⟩
    rw [hsec] at hk
    have hfr := hfirst.inRange
    have hfa := hfirst.allowed
    have hk60 : k < 60 := Nat.lt_trans hk hfr.sec
    have htod := hfirst.time_of_day_le (d := { f with sec := k }) hnow.toInRange
      (otherDate_of_not_exists hnow hno) ⟨hfr.mon, hfr.day, hfr.hour, hfr.min, hk60⟩
      ⟨hkok, hfa.2.1, hfa.2.2.1, hfa.2.2.2.1, hfa.2.2.2.2⟩
    dsimp only at htod
    omega

theorem noneAll_split {u : Int} (hu : now ≤ u) (hut : u ≤ t) :
    NoneAll utcOffset s now t ↔ NoneAll utcOffset s now u ∧ NoneAll utcOffset s u t := by
  constructor
  · intro hnone
    exact ⟨fun v hv hlt ↦ hnone v hv (by omega), fun v hv hlt ↦ hnone v (by omega) hlt⟩
  · rintro ⟨hfirst, hrest⟩ v hv hlt
    by_cases hsplit : v < u
    · exact hfirst v hv hsplit
    · exact hrest v (by omega) hlt

theorem noneAll_iff_of_some (ha : s.Accepted) (hday : ∀ d, d < 31 → s.allows .day d = true)
    (h : s.get_next_time utcOffset fuel now = some t) :
    NoneAll utcOffset s now t ↔ ¬ WeekdaySkips utcOffset s now := by
  induction fuel generalizing now with
  | zero => cases h
  | succ fuel ih =>
    rcases get_next_time_succ ha utcOffset now with ⟨f, hfirst, hstep⟩
    rw [hstep] at h
    have hnow := hfirst.now_le
    by_cases hexists : f.day < monthLength f.year f.mon
    · rw [if_pos hexists] at h
      by_cases hwday : s.allows .wday (weekday f.dayNumber) = true
      · rw [if_pos hwday] at h
        cases h
        have hnone : NoneAll utcOffset s now (f.time utcOffset) := by
          intro u hu hlt
          rw [matchesAll, hfirst.noneUpToMonth hexists u hu hlt]
          rfl
        have hskip : ¬ WeekdaySkips utcOffset s now := by
          intro hskip
          have hsame := (hskip.composed hday hfirst).1
          have hbad := hskip.1
          have hnum : f.dayNumber = (Civil.ofTime utcOffset now).dayNumber := by rw [hsame]; rfl
          rw [wday_eq, ← hnum, hwday] at hbad
          cases hbad
        exact ⟨fun _ ↦ hskip, fun _ ↦ hnone⟩
      · -- the next day passes something by itself, or the search from it does
        rw [if_neg hwday] at h
        have hwday' : s.allows .wday (weekday f.dayNumber) = false := by simpa using hwday
        have hlt := time_lt_nextDay utcOffset hfirst.inRange
        have hlater := (get_next_time_matches ha h).1
        rw [noneAll_split (u := (nextDay f).time utcOffset) (by omega) hlater, ih h,
          noneAll_nextDay_iff hday hfirst hexists hwday',
          weekdaySkips_nextDay_iff hfirst.inRange hfirst.allowed.1, weekdaySkips_iff hday hfirst hwday',
          reaches_iff f.dayNumber, ← not_or]
        apply not_congr
        constructor
        · rintro (⟨hhour, hmin, hk, hmonth, hok⟩ | ⟨hhour, hmin, hk, hmonth, hbad, hreach⟩)
          · exact ⟨hhour, hmin, hk, hmonth, .inl hok⟩
          · exact ⟨hhour, hmin, hk, hmonth, .inr ⟨hbad, hreach⟩⟩
        · rintro ⟨hhour, hmin, hk, hmonth, hok | ⟨hbad, hreach⟩⟩
          · exact .inl ⟨hhour, hmin, hk, hmonth, hok⟩
          · exact .inr ⟨hhour, hmin, hk, hmonth, hbad, hreach⟩
    · rw [if_neg hexists] at h
      rcases missing_date hday hfirst (by omega) with ⟨hnone, hskip, hskip'⟩
      have hlater := (get_next_time_matches ha h).1
      have hrest := (ih h).mpr hskip'
      rw [noneAll_split hnow hlater]
      exact ⟨fun _ ↦ hskip, fun _ ↦ ⟨hnone, hrest⟩⟩

/-- With all days of the month allowed, nothing that matches is passed by exactly when no search goes on
from midnight with seconds that are too late. -/
theorem skips_no_second_iff (description : String) (s : Schedule) (h : create description = .ok s)
    (hday : ∀ d, d < 31 → s.allows .day d = true) (utcOffset now : Int) :
    ∃ n, ∀ fuel, n ≤ fuel → ∃ t, s.get_next_time utcOffset fuel now = some t ∧
      ((∀ u, now ≤ u → u < t → s.matchesAll utcOffset u = false) ↔
        ¬ WeekdaySkips utcOffset s now) := by
  have ha := create_accepted h
  rcases get_next_time_terminates ha utcOffset now with ⟨n, hn⟩
  refine ⟨n, ?_⟩
  intro fuel hfuel
  rcases Option.ne_none_iff_exists'.mp (hn fuel hfuel) with ⟨t, ht⟩
  exact ⟨t, ht, noneAll_iff_of_some ha hday ht⟩

/-- Twice a minute on working days. -/
theorem skips_no_second_iff_working_days : ∃ s, create "10,40;;;;;1,2,3,4,5" = .ok s ∧
    ∃ n, ∀ fuel, n ≤ fuel → ∃ t, s.get_next_time 0 fuel 1700000000 = some t ∧
      ((∀ u, 1700000000 ≤ u → u < t → s.matchesAll 0 u = false) ↔
        ¬ WeekdaySkips 0 s 1700000000) :=
  ⟨_, rfl, skips_no_second_iff "10,40;;;;;1,2,3,4,5" _ rfl (by decide +kernel) 0 1700000000⟩

/-- On Sunday 19 February 2023 at 10:00:20, a schedule for seconds 10 and 40 of working days goes on from
Monday at 00:00:40 and passes 00:00:10 by. -/
theorem monday_second_passed_by : ∃ s t u, create "10,40;;;;;1,2,3,4,5" = .ok s ∧
    (∀ d, d < 31 → s.allows .day d = true) ∧ s.get_next_time 0 2 1676800820 = some t ∧
    1676800820 ≤ u ∧ u < t ∧ s.matchesAll 0 u = true :=
  ⟨_, 1676851240, 1676851210, rfl, by decide +kernel, by decide +kernel, by decide, by decide,
    by decide +kernel⟩

end Schedule

end EvQueue
