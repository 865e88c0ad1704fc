import Mathlib.Tactic.IntervalCases
import EvQueue.Base.Odometer
import EvQueue.ScheduleAccepted

/-!
# ScheduleNext — one call of `get_next_time`

The time composed from the levels is read as a mixed-radix number of year, month, day, hour, minute and
second.  It is the least number with allowed digits at or above the current time, whether its date
exists or not.
-/

namespace EvQueue

open Calendar Odometer

/-- A date and time of day, whether the date exists or not. -/
structure Civil where
  year : Int
  mon : Nat
  day : Nat
  hour : Nat
  min : Nat
  sec : Nat
deriving DecidableEq, Repr

namespace Civil

def ofTime (utcOffset t : Int) : Civil :=
  let tm := localtime_r utcOffset t
  { year := tm.year + 1900, mon := tm.mon, day := tm.mday - 1, hour := tm.hour, min := tm.min,
    sec := tm.sec }

/-- The day the date falls on, counting on past the end of the month. -/
def dayNumber (c : Civil) : Int := monthStart c.year c.mon + c.day

def time (utcOffset : Int) (c : Civil) : Int :=
  ((c.dayNumber * 24 + c.hour) * 60 + c.min) * 60 + c.sec - utcOffset

/-- The mixed-radix number, in which every month has 31 days. -/
def rank (c : Civil) : Int :=
  ((((c.year * 12 + c.mon) * 31 + c.day) * 24 + c.hour) * 60 + c.min) * 60 + c.sec

structure InRange (c : Civil) : Prop where
  mon : c.mon < 12
  day : c.day < 31
  hour : c.hour < 24
  min : c.min < 60
  sec : c.sec < 60

/-- The date exists. -/
structure Valid (c : Civil) : Prop extends InRange c where
  exists_ : c.day < monthLength c.year c.mon

instance (c : Civil) : Decidable c.InRange :=
  decidable_of_iff (c.mon < 12 ∧ c.day < 31 ∧ c.hour < 24 ∧ c.min < 60 ∧ c.sec < 60)
    ⟨fun ⟨h₁, h₂, h₃, h₄, h₅⟩ ↦ ⟨h₁, h₂, h₃, h₄, h₅⟩, fun h ↦ ⟨h.mon, h.day, h.hour, h.min, h.sec⟩⟩

def Allowed (s : Schedule) (c : Civil) : Prop :=
  s.allows .sec c.sec = true ∧ s.allows .min c.min = true ∧ s.allows .hour c.hour = true ∧
    s.allows .day c.day = true ∧ s.allows .month c.mon = true

variable {utcOffset t : Int} {c d : Civil} {s : Schedule}

theorem ofTime_dayNumber (utcOffset t : Int) :
    (ofTime utcOffset t).dayNumber = (t + utcOffset) / 86400 := by
  have hspec := (Date.ofDayNumber_spec ((t + utcOffset) / 86400)).2
  unfold Date.dayNumber at hspec
  simp only [dayNumber, ofTime, localtime_r, Nat.add_sub_cancel, Int.sub_add_cancel]
  exact hspec

theorem ofTime_valid : (ofTime utcOffset t).Valid := by
  have hdate := (Date.ofDayNumber_spec ((t + utcOffset) / 86400)).1
  have hlen := monthLength_cases (Date.ofDayNumber ((t + utcOffset) / 86400)).year hdate.1
  have hday := hdate.2
  refine ⟨⟨hdate.1, ?_, ?_, ?_, ?_⟩, ?_⟩
  all_goals simp only [ofTime, localtime_r, Nat.add_sub_cancel, Int.sub_add_cancel]
  all_goals omega

theorem time_ofTime (utcOffset t : Int) : (ofTime utcOffset t).time utcOffset = t := by
  unfold time
  rw [ofTime_dayNumber]
  simp only [ofTime, localtime_r]
  omega

theorem ofTime_time (utcOffset : Int) (hc : c.Valid) : ofTime utcOffset (c.time utcOffset) = c := by
  have hexists := hc.exists_
  rcases hc.toInRange with ⟨hmon, -, hhour, hmin, hsec⟩
  have hday : (c.time utcOffset + utcOffset) / 86400 = c.dayNumber := by
    unfold time
    omega
  have hsecond : ((c.time utcOffset + utcOffset) % 86400).toNat =
      (c.hour * 60 + c.min) * 60 + c.sec := by
    unfold time
    omega
  have hdate : Date.ofDayNumber c.dayNumber = ⟨c.year, c.mon, c.day⟩ :=
    Date.ofDayNumber_dayNumber (d := ⟨c.year, c.mon, c.day⟩) ⟨hmon, hexists⟩
  simp only [ofTime, localtime_r, hday, hsecond, hdate]
  rcases c with ⟨year, mon, day, hour, min, sec⟩
  simp only [mk.injEq, Nat.add_sub_cancel, true_and] at *
  omega

/-- Dates come in the order of their numbers, where the earlier one exists. -/
theorem time_lt_time (utcOffset : Int) (hc : c.Valid) (hd : d.InRange) (h : c.rank < d.rank) :
    c.time utcOffset < d.time utcOffset := by
  have hday := hc.exists_
  rcases hc.toInRange with ⟨hc₁, hc₂, hc₃, hc₄, hc₅⟩
  rcases hd with ⟨hd₁, hd₂, hd₃, hd₄, hd₅⟩
  unfold rank at h
  unfold time dayNumber
  by_cases hmonth : c.year * 12 + c.mon = d.year * 12 + d.mon
  · have hyear : c.year = d.year := by omega
    have hmon : c.mon = d.mon := by omega
    rw [hyear, hmon]
    omega
  · have hlt : c.year * 12 + c.mon < d.year * 12 + d.mon := by omega
    have hstart := monthStart_add_length_le hc₁ hlt hd₁
    omega

theorem rank_le_of_time_le (utcOffset : Int) (hc : c.Valid) (hd : d.InRange)
    (h : d.time utcOffset ≤ c.time utcOffset) : d.rank ≤ c.rank := by
  by_contra hno
  have hlt := time_lt_time utcOffset hc hd (by omega)
  omega

theorem rank_inj (hc : c.InRange) (hd : d.InRange) (h : c.rank = d.rank) : c = d := by
  rcases c with ⟨year, mon, day, hour, min, sec⟩
  rcases d with ⟨year', mon', day', hour', min', sec'⟩
  rcases hc with ⟨hc₁, hc₂, hc₃, hc₄, hc₅⟩
  rcases hd with ⟨hd₁, hd₂, hd₃, hd₄, hd₅⟩
  unfold rank at h
  simp only [mk.injEq] at *
  omega

theorem time_le_time (utcOffset : Int) (hc : c.Valid) (hd : d.InRange) (h : c.rank ≤ d.rank) :
    c.time utcOffset ≤ d.time utcOffset := by
  rcases Int.lt_or_eq_of_le h with hlt | heq
  · exact Int.le_of_lt (time_lt_time _ hc hd hlt)
  · rw [rank_inj hc.toInRange hd heq]

/-- The date that a date past the end of its month stands for. -/
def overflow (c : Civil) : Civil :=
  { c with mon := c.mon + 1, day := c.day - monthLength c.year c.mon }

theorem monthLength_short {y : Int} {m : Nat} (hm : m < 12) (h : monthLength y m ≤ 30) :
    0 < m ∧ m < 11 ∧ (m ≠ 1 → monthLength y m = 30) := by
  unfold monthLength at *
  cases hleap : isLeap y <;> interval_cases m <;> simp [monthLengths, hleap] at *

theorem overflow_valid (hc : c.InRange) (h : monthLength c.year c.mon ≤ c.day) : c.overflow.Valid := by
  rcases hc with ⟨hmon, hday, hhour, hmin, hsec⟩
  have hshort := monthLength_short (y := c.year) hmon (by omega)
  have hlen := monthLength_cases c.year hmon
  have hnext := monthLength_cases c.year (show c.mon + 1 < 12 by omega)
  refine ⟨⟨?_, ?_, hhour, hmin, hsec⟩, ?_⟩
  all_goals simp only [overflow]
  all_goals omega

theorem overflow_time (h : monthLength c.year c.mon ≤ c.day) :
    c.overflow.time utcOffset = c.time utcOffset := by
  have hday : c.overflow.dayNumber = c.dayNumber := by
    simp only [dayNumber, overflow]
    rw [monthStart_succ]
    omega
  unfold time
  rw [hday]
  rfl

end Civil

namespace Schedule

variable {utcOffset now : Int} {s : Schedule} {c f : Civil}

/-- `f` is the least number with allowed digits at or above `c`. -/
structure First (s : Schedule) (c f : Civil) : Prop where
  inRange : f.InRange
  allowed : f.Allowed s
  le : c.rank ≤ f.rank
  least : ∀ d : Civil, d.InRange → d.Allowed s → c.rank ≤ d.rank → f.rank ≤ d.rank

def wheel (s : Schedule) (level : ScheduleLevel) : Wheel := ⟨getScheduleLength level, s.allows level⟩

theorem nextLevelsValid_iff {levels : List ScheduleLevel} {nows : List Nat}
    (h : InRange (levels.map s.wheel) nows) :
    ((levels.zip nows).all fun (k, v) ↦ s.allows k v) = true ↔ Allowed (levels.map s.wheel) nows := by
  induction levels generalizing nows with
  | nil =>
    cases h
    simp [Odometer.Allowed]
  | cons level levels ih =>
    cases h with
    | @cons _ x _ xs hx hxs =>
      have hrest := ih hxs
      simp only [List.zip_cons_cons, List.all_cons, Bool.and_eq_true, List.map_cons, Odometer.Allowed,
        List.forall₂_cons] at *
      rw [hrest]
      constructor
      · rintro ⟨hallowed, hall⟩
        exact ⟨⟨hx, hallowed⟩, hall⟩
      · rintro ⟨⟨-, hallowed⟩, hall⟩
        exact ⟨hallowed, hall⟩

/-- The loop over the levels turns the wheels of the schedule. -/
theorem findFirst_eq_turn {levels : List ScheduleLevel} {nows : List Nat} (off : Nat)
    (h : InRange (levels.map s.wheel) nows) :
    s.findFirst levels nows off = turn (levels.map s.wheel) nows off := by
  induction levels generalizing nows off with
  | nil =>
    cases h
    rfl
  | cons level levels ih =>
    cases h with
    | @cons _ x _ xs hx hxs =>
      have hvalid := nextLevelsValid_iff hxs
      unfold findFirst
      rw [List.map_cons]
      unfold turn
      by_cases hall : Allowed (levels.map s.wheel) xs
      · rw [if_pos hall]
        simp only [hvalid.mpr hall, if_true, true_and, wheel, Wheel.next, Nat.add_right_comm,
          Option.map_map, Option.bind_map, Function.comp_def, ih _ hxs]
      · have hno : ((levels.zip xs).all fun (k, v) ↦ s.allows k v) = false := by
          simpa using mt hvalid.mp hall
        rw [if_neg hall]
        simp [hno, wheel, Wheel.least, ih _ hxs, Option.bind_map]

/-- The digits that the loop over the levels reads, lowest first. -/
def digits (c : Civil) : List Nat := [c.sec, c.min, c.hour, c.day, c.mon]

def wheels (s : Schedule) : List Wheel := ScheduleLevel.upToMonth.map s.wheel

theorem radix_wheels (s : Schedule) : radix s.wheels = 32140800 := by
  simp [radix, wheels, ScheduleLevel.upToMonth, wheel, getScheduleLength]

theorem rank_eq (s : Schedule) (c : Civil) : c.rank = value s.wheels (digits c) + c.year * 32140800 := by
  simp only [wheels, digits, ScheduleLevel.upToMonth, List.map_cons, List.map_nil, value_cons, wheel,
    getScheduleLength]
  simp only [value]
  unfold Civil.rank
  omega

theorem inRange_digits : InRange s.wheels (digits c) ↔ c.InRange := by
  simp only [InRange, wheels, digits, ScheduleLevel.upToMonth, List.map_cons, List.map_nil, wheel,
    getScheduleLength, List.forall₂_cons, List.Forall₂.nil, and_true]
  constructor
  · rintro ⟨h₁, h₂, h₃, h₄, h₅⟩
    exact ⟨h₅, h₄, h₃, h₂, h₁⟩
  · rintro ⟨h₁, h₂, h₃, h₄, h₅⟩
    exact ⟨h₅, h₄, h₃, h₂, h₁⟩

theorem allowed_digits : Allowed s.wheels (digits c) ↔ c.InRange ∧ c.Allowed s := by
  simp only [Allowed, wheels, digits, ScheduleLevel.upToMonth, List.map_cons, List.map_nil, wheel,
    getScheduleLength, List.forall₂_cons, List.Forall₂.nil, and_true]
  constructor
  · rintro ⟨⟨h₁, k₁⟩, ⟨h₂, k₂⟩, ⟨h₃, k₃⟩, ⟨h₄, k₄⟩, h₅, k₅⟩
    exact ⟨⟨h₅, h₄, h₃, h₂, h₁⟩, k₁, k₂, k₃, k₄, k₅⟩
  · rintro ⟨⟨h₅, h₄, h₃, h₂, h₁⟩, k₁, k₂, k₃, k₄, k₅⟩
    exact ⟨⟨h₁, k₁⟩, ⟨h₂, k₂⟩, ⟨h₃, k₃⟩, ⟨h₄, k₄⟩, h₅, k₅⟩

/-- The five values found and the carry into the year compose the least allowed time. -/
theorem findFirst_spec (ha : s.Accepted) (hc : c.InRange) :
    ∃ sec min hour day mon off,
      s.findFirst ScheduleLevel.upToMonth (digits c) 0 = some ([sec, min, hour, day, mon], off) ∧
      First s c ⟨c.year + off, mon, day, hour, min, sec⟩ := by
  have hrange := inRange_digits (s := s).mpr hc
  have hturn := findFirst_eq_turn 0 hrange
  have hsome : ∀ w ∈ s.wheels, ∃ k, k < w.length ∧ w.allowed k = true := by
    intro w hw
    rcases List.mem_map.mp hw with ⟨level, -, rfl⟩
    exact ha.some level
  rcases Option.ne_none_iff_exists'.mp (turn_ne_none hrange (Nat.zero_le 1) hsome) with
    ⟨⟨ds, off⟩, hds⟩
  have hleast := turn_least hrange (.inl rfl) hds
  obtain ⟨sec, min, hour, day, mon, rfl⟩ : ∃ sec min hour day mon, ds = [sec, min, hour, day, mon] := by
    have hlen : 5 = ds.length := hleast.allowed.length_eq
    rcases ds with _ | ⟨sec, _ | ⟨min, _ | ⟨hour, _ | ⟨day, _ | ⟨mon, _ | _⟩⟩⟩⟩⟩ <;> simp at hlen
    exact ⟨sec, min, hour, day, mon, rfl⟩
  refine ⟨sec, min, hour, day, mon, off, hturn.trans hds, ?_⟩
  obtain ⟨f, hf⟩ : ∃ f : Civil, f = ⟨c.year + off, mon, day, hour, min, sec⟩ := ⟨_, rfl⟩
  have hdigits : digits f = [sec, min, hour, day, mon] := by rw [hf]; rfl
  have hyear : f.year = c.year + off := by rw [hf]
  rw [← hf]
  rw [← hdigits] at hleast
  have hallowed := allowed_digits.mp hleast.allowed
  have hfrank := rank_eq s f
  have hcrank := rank_eq s c
  have hle := hleast.le
  rw [radix_wheels] at hle
  refine ⟨hallowed.1, hallowed.2, by omega, ?_⟩
  intro d hd hdallowed hcd
  have hdrank := rank_eq s d
  have hbound := value_lt_radix (inRange_digits (s := s).mpr hd)
  have hcbound := value_lt_radix hrange
  rw [radix_wheels] at hbound hcbound
  -- a number at or above the current one is in its year or in a later one
  have hmin := hleast.least (digits d) (d.year - c.year).toNat (allowed_digits.mpr ⟨hd, hdallowed⟩)
    (by rw [radix_wheels]; omega)
  rw [radix_wheels] at hmin
  omega

/-- The day after `f` at midnight, with the seconds of `f`. -/
def nextDay (f : Civil) : Civil := { f with day := f.day + 1, hour := 0, min := 0 }

/-- The fields handed to `mktime` for `f`. -/
def toTm (f : Civil) (wday : Nat) : Tm :=
  { sec := f.sec, min := f.min, hour := f.hour, mday := f.day + 1, mon := f.mon, year := f.year - 1900,
    wday }

theorem mktime_toTm (hmon : f.mon < 12) (utcOffset : Int) (wday : Nat) :
    mktime utcOffset (toTm f wday) =
      (f.time utcOffset, localtime_r utcOffset (f.time utcOffset)) := by
  have htime : (mktime utcOffset (toTm f wday)).1 = f.time utcOffset := by
    have hyear : f.year - 1900 + 1900 + ((f.mon / 12 : Nat) : Int) = f.year := by omega
    simp only [mktime, toTm, Civil.time, Civil.dayNumber]
    rw [show (f.mon : Int) / 12 = ((f.mon / 12 : Nat) : Int) by omega, hyear, Nat.mod_eq_of_lt hmon]
    omega
  rw [← htime]
  rfl

/-- The fields change exactly when the date does not exist. -/
theorem same_fields_iff (utcOffset : Int) (hf : f.InRange) :
    (localtime_r utcOffset (f.time utcOffset)).mday = f.day + 1 ∧
      (localtime_r utcOffset (f.time utcOffset)).mon = f.mon ↔ f.day < monthLength f.year f.mon := by
  constructor
  · rintro ⟨hmday, hmon⟩
    have hvalid : (Civil.ofTime utcOffset (f.time utcOffset)).Valid := Civil.ofTime_valid
    have hday : (Civil.ofTime utcOffset (f.time utcOffset)).dayNumber = f.dayNumber := by
      rcases hf with ⟨-, -, hhour, hmin, hsec⟩
      rw [Civil.ofTime_dayNumber]
      unfold Civil.time
      omega
    obtain ⟨y, hy⟩ : ∃ y, (Civil.ofTime utcOffset (f.time utcOffset)).year = y := ⟨_, rfl⟩
    have hm : (Civil.ofTime utcOffset (f.time utcOffset)).mon = f.mon := hmon
    have hd : (Civil.ofTime utcOffset (f.time utcOffset)).day = f.day := by
      simp only [Civil.ofTime]
      omega
    have hexists := hvalid.exists_
    unfold Civil.dayNumber at hday
    rw [hy, hm, hd] at hday hexists
    -- the same month starts on another day in every other year
    rcases Int.lt_trichotomy y f.year with hlt | heq | hgt
    · have hmonth : y * 12 + f.mon < f.year * 12 + f.mon := by omega
      have hstart := monthStart_add_length_le hf.mon hmonth hf.mon
      omega
    · rw [heq] at hexists
      exact hexists
    · have hmonth : f.year * 12 + f.mon < y * 12 + f.mon := by omega
      have hstart := monthStart_add_length_le hf.mon hmonth hf.mon
      have hlen := (monthLength_cases f.year hf.mon).1
      omega
  · intro hexists
    have hsame := Civil.ofTime_time utcOffset (c := f) ⟨hf, hexists⟩
    have hday := congrArg Civil.day hsame
    have hmon := congrArg Civil.mon hsame
    simp only [Civil.ofTime, localtime_r] at *
    exact ⟨by omega, hmon⟩

/-- One call of `get_next_time`: it returns the time composed, or calls itself on that time where its
date does not exist, and on the next day where its weekday is not allowed. -/
theorem get_next_time_succ (ha : s.Accepted) (utcOffset now : Int) :
    ∃ f, First s (.ofTime utcOffset now) f ∧ ∀ fuel, s.get_next_time utcOffset (fuel + 1) now =
      if f.day < monthLength f.year f.mon then
        if s.allows .wday (weekday f.dayNumber) = true then some (f.time utcOffset)
        else s.get_next_time utcOffset fuel ((nextDay f).time utcOffset)
      else s.get_next_time utcOffset fuel (f.time utcOffset) := by
  have hc : (Civil.ofTime utcOffset now).InRange := Civil.ofTime_valid.toInRange
  rcases findFirst_spec ha hc with ⟨sec, min, hour, day, mon, off, hfind, hfirst⟩
  refine ⟨_, hfirst, ?_⟩
  intro fuel
  obtain ⟨f, hf⟩ : ∃ f : Civil, f = ⟨(Civil.ofTime utcOffset now).year + off, mon, day, hour, min, sec⟩ :=
    ⟨_, rfl⟩
  rw [← hf] at hfirst ⊢
  have hday : day = f.day := by rw [hf]
  have hmon : mon = f.mon := by rw [hf]
  have hmon12 : f.mon < 12 := hfirst.inRange.mon
  have hmk : mktime utcOffset
      ⟨sec, min, hour, day + 1, mon, (localtime_r utcOffset now).year + off, 0⟩ =
      (f.time utcOffset, localtime_r utcOffset (f.time utcOffset)) := by
    rw [← mktime_toTm hmon12 utcOffset 0]
    congr 1
    simp only [hf, toTm, Civil.ofTime, Tm.mk.injEq, true_and, and_true]
    omega
  rw [get_next_time]
  simp only [digits, Civil.ofTime] at hfind
  simp only [hfind, hmk]
  rw [hday, hmon]
  -- `mktime` keeps day and month exactly when the month has that day
  have hsame := same_fields_iff utcOffset hfirst.inRange
  by_cases hexists : f.day < monthLength f.year f.mon
  · have hfields := hsame.mpr hexists
    have hback := Civil.ofTime_time utcOffset (c := f) ⟨hfirst.inRange, hexists⟩
    have hwday : (localtime_r utcOffset (f.time utcOffset)).wday = weekday f.dayNumber := by
      have hnum := Civil.ofTime_dayNumber utcOffset (f.time utcOffset)
      rw [hback] at hnum
      rw [hnum]
      rfl
    have hsec := congrArg Civil.sec hback
    have hyear := congrArg Civil.year hback
    simp only [Civil.ofTime] at hsec hyear
    have hnext : mktime utcOffset ⟨f.sec, 0, 0, f.day + 1 + 1, f.mon,
        (localtime_r utcOffset (f.time utcOffset)).year, weekday f.dayNumber⟩ =
        ((nextDay f).time utcOffset, localtime_r utcOffset ((nextDay f).time utcOffset)) := by
      rw [← mktime_toTm (f := nextDay f) hmon12 utcOffset (weekday f.dayNumber)]
      congr 1
      simp only [toTm, nextDay, Tm.mk.injEq, true_and, and_true]
      omega
    rw [if_neg (by simp [hfields]), if_pos hexists]
    simp only [hfields.1, hfields.2, hwday, hsec, hnext]
    by_cases hallowed : s.allows .wday (weekday f.dayNumber) = true
    · simp [hallowed]
    · simp [hallowed]
  · rw [if_neg hexists, if_pos]
    by_contra hno
    simp only [not_or, not_not] at hno
    exact hexists (hsame.mp hno)

/-! ## What the least time says about other times -/

/-- An allowed time at or after `now` is not numbered below the time composed. -/
theorem First.le_of_allowed {t : Int} (hf : First s (.ofTime utcOffset now) f) (ht : now ≤ t)
    (hallowed : (Civil.ofTime utcOffset t).Allowed s) : f.rank ≤ (Civil.ofTime utcOffset t).rank := by
  apply hf.least _ Civil.ofTime_valid.toInRange hallowed
  apply Civil.rank_le_of_time_le utcOffset Civil.ofTime_valid
    Civil.ofTime_valid.toInRange
  rwa [Civil.time_ofTime, Civil.time_ofTime]

theorem First.now_le (hf : First s (.ofTime utcOffset now) f) : now ≤ f.time utcOffset := by
  have hle := Civil.time_le_time utcOffset Civil.ofTime_valid hf.inRange hf.le
  rwa [Civil.time_ofTime] at hle

/-- The date composed is on a day that `c` is not on. -/
def OtherDate (c f : Civil) : Prop := ¬ (c.year = f.year ∧ c.mon = f.mon ∧ c.day = f.day)

theorem otherDate_of_not_exists (hc : c.Valid) (h : monthLength f.year f.mon ≤ f.day) :
    OtherDate c f := by
  rintro ⟨hyear, hmon, hday⟩
  have hexists := hc.exists_
  rw [hyear, hmon, hday] at hexists
  omega

/-- On another date the least allowed time of day is composed. -/
theorem First.time_of_day_le {d : Civil} (hf : First s c f) (hc : c.InRange) (hother : OtherDate c f)
    (hd : d.InRange) (hallowed : d.Allowed s) :
    (f.hour * 60 + f.min) * 60 + f.sec ≤ (d.hour * 60 + d.min) * 60 + d.sec := by
  obtain ⟨g, hg⟩ : ∃ g : Civil, g = { f with hour := d.hour, min := d.min, sec := d.sec } := ⟨_, rfl⟩
  rcases hf.inRange with ⟨hmon, hday, hhour, hmin, hsec⟩
  have hgrange : g.InRange := by
    rw [hg]
    exact ⟨hmon, hday, hd.hour, hd.min, hd.sec⟩
  have hgallowed : g.Allowed s := by
    rcases hallowed with ⟨h₁, h₂, h₃, -, -⟩
    rcases hf.allowed with ⟨-, -, -, h₄, h₅⟩
    rw [hg]
    exact ⟨h₁, h₂, h₃, h₄, h₅⟩
  have hcg : c.rank ≤ g.rank := by
    have hle := hf.le
    rcases hc with ⟨hc₁, hc₂, hc₃, hc₄, hc₅⟩
    unfold OtherDate at hother
    unfold Civil.rank at *
    rw [hg]
    dsimp only
    omega
  have hleast := hf.least g hgrange hgallowed hcg
  unfold Civil.rank at hleast
  rw [hg] at hleast
  dsimp only at hleast
  omega

end Schedule

end EvQueue
