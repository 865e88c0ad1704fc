import EvQueue.Schedule

/-!
# ScheduleAccepted — what the constructor of a schedule accepts

A level without values is filled, and the checks on days 30 and 31 leave some date that exists.
-/

namespace EvQueue

open Calendar

namespace Schedule

variable {level : ScheduleLevel} {offset length fuel : Nat} {a b c : List Bool} {s s' : Scan}

theorem skip_length_le (x : Char) (cs : List Char) : (skip x cs).length ≤ cs.length := by
  cases cs with
  | nil => exact Nat.le_refl 0
  | cons d rest =>
    show (if d = x then rest else d :: rest).length ≤ rest.length + 1
    split
    · omega
    · exact Nat.le_refl _

theorem readSign_length_le (cs : List Char) : (readSign cs).2.length ≤ cs.length := by
  unfold readSign
  split <;> simp

/-- A conversion reads at least one digit. -/
theorem strtol_length_lt {cs rest : List Char} {v : Int} (h : strtol cs = some (v, rest)) :
    rest.length < cs.length := by
  unfold strtol at h
  have hspace : (cs.dropWhile isSpace).length ≤ cs.length := (List.dropWhile_sublist _).length_le
  have hsign := readSign_length_le (cs.dropWhile isSpace)
  obtain ⟨ds, hds⟩ : ∃ ds, (readSign (cs.dropWhile isSpace)).2 = ds := ⟨_, rfl⟩
  rw [hds] at hsign
  simp only [hds] at h
  split at h
  · cases h
  · rename_i hdigits
    obtain ⟨-, rfl⟩ := Prod.mk.inj (Option.some.inj h)
    have hsplit := congrArg List.length (List.takeWhile_append_dropWhile (p := Char.isDigit) (l := ds))
    have hpos := List.length_pos_iff.mpr hdigits
    rw [List.length_append] at hsplit
    omega

/-- More rounds than characters change nothing. -/
theorem scanLevel_fuel (h : s.rest.length ≤ fuel) :
    scanLevel level offset length (fuel + 1) s = scanLevel level offset length fuel s := by
  induction fuel generalizing s with
  | zero =>
    have hnil : s.rest = [] := List.length_eq_zero_iff.mp (by omega)
    simp [scanLevel, hnil]
  | succ fuel ih =>
    unfold scanLevel
    split
    · rfl
    · split
      · rfl
      · rename_i v rest hv
        split
        · rfl
        · -- `strtol` has read at least one character
          apply ih
          have hread := strtol_length_lt hv
          have hskip := skip_length_le ',' rest
          dsimp only
          omega

/-- `b` has every entry that `a` has. -/
def Grows (a b : List Bool) : Prop :=
  a.length = b.length ∧ ∀ i : Nat, a[i]? = some true → b[i]? = some true

theorem Grows.refl (a : List Bool) : Grows a a := ⟨rfl, fun _ h ↦ h⟩

theorem Grows.trans (h : Grows a b) (h' : Grows b c) : Grows a c :=
  ⟨h.1.trans h'.1, fun i hi ↦ h'.2 i (h.2 i hi)⟩

theorem grows_set (a : List Bool) (i : Nat) : Grows a (a.set i true) := by
  refine ⟨by simp, ?_⟩
  intro k hk
  rw [List.getElem?_set]
  split
  · rename_i hik
    subst hik
    rw [List.getElem?_eq_some_iff] at hk
    simp [hk.1]
  · exact hk

/-- Some value of the level is set. -/
def Marked (a : List Bool) (offset length : Nat) : Prop := ∃ v, v < length ∧ a[offset + v]? = some true

theorem Marked.grows (h : Marked a offset length) (hg : Grows a b) : Marked b offset length := by
  rcases h with ⟨v, hv, hset⟩
  exact ⟨v, hv, hg.2 _ hset⟩

/-- The least day is the one recorded: none, or one that is set. -/
def DayMarked (a : List Bool) (minDay : Nat) : Prop := minDay < 31 ∧ a[144 + minDay]? = some true

theorem DayMarked.grows {minDay : Nat} (h : DayMarked a minDay) (hg : Grows a b) : DayMarked b minDay :=
  ⟨h.1, hg.2 _ h.2⟩

theorem DayMarked.of_set {v : Nat} (hv : v < 31) (hlen : 144 + 31 ≤ a.length) :
    DayMarked (a.set (144 + v) true) v := by
  refine ⟨hv, ?_⟩
  rw [List.getElem?_set_self (by omega)]

/-- What every value read keeps holds at the end of a level. -/
theorem scanLevel_induction {P : Scan → Prop}
    (hstep : ∀ s v rest, P s → v < length → P
      { rest, schedule := s.schedule.set (offset + v) true, emptyLevel := false,
        minDay := if level = .day ∧ v < s.minDay then v else s.minDay })
    (h : scanLevel level offset length fuel s = .ok s') (hs : P s) : P s' := by
  induction fuel generalizing s with
  | zero =>
    cases h
    exact hs
  | succ fuel ih =>
    unfold scanLevel at h
    split at h
    · cases h
      exact hs
    · split at h
      · cases h
      · split at h
        · cases h
        · apply ih h
          apply hstep _ _ _ hs
          omega

/-- A level that is not empty has a value set, and nothing is ever reset. -/
theorem scanLevel_marks (h : scanLevel level offset length fuel s = .ok s')
    (hlen : offset + length ≤ s.schedule.length) (hempty : s.emptyLevel = true) :
    Grows s.schedule s'.schedule ∧ (s'.emptyLevel = false → Marked s'.schedule offset length) := by
  refine scanLevel_induction (P := fun x ↦ Grows s.schedule x.schedule ∧
    (x.emptyLevel = false → Marked x.schedule offset length)) ?_ h ?_
  · rintro x v rest ⟨hg, -⟩ hv
    refine ⟨hg.trans (grows_set _ _), fun _ ↦ ⟨v, hv, ?_⟩⟩
    have hlen' := hg.1
    dsimp only
    rw [List.getElem?_set_self (by omega)]
  · refine ⟨Grows.refl _, ?_⟩
    intro hno
    rw [hempty] at hno
    cases hno

theorem scanLevel_minDay (h : scanLevel level offset length fuel s = .ok s') (hday : level ≠ .day) :
    s'.minDay = s.minDay := by
  refine scanLevel_induction (P := fun x ↦ x.minDay = s.minDay) ?_ h rfl
  intro x v rest hx _
  simpa [hday] using hx

/-- Once a day is read the least one is recorded. -/
theorem scanLevel_day (h : scanLevel .day 144 31 fuel s = .ok s') (hlen : 144 + 31 ≤ s.schedule.length)
    (hempty : s.emptyLevel = true) (hmin : s.minDay = 32) :
    s'.emptyLevel = true ∧ s'.minDay = 32 ∨ DayMarked s'.schedule s'.minDay := by
  have hall := scanLevel_induction (P := fun x ↦ s.schedule.length = x.schedule.length ∧
    (x.emptyLevel = true ∧ x.minDay = 32 ∨ DayMarked x.schedule x.minDay)) ?_ h ?_
  · exact hall.2
  · rintro x v rest ⟨hlen', hx⟩ hv
    refine ⟨by simpa using hlen', .inr ?_⟩
    by_cases hlt : v < x.minDay
    · simp only [hlt, and_self, if_true]
      exact DayMarked.of_set hv (by omega)
    · simp only [hlt, and_false, if_false]
      rcases hx with ⟨-, h32⟩ | hx
      · omega
      · exact hx.grows (grows_set _ _)
  · exact ⟨rfl, .inl ⟨hempty, hmin⟩⟩

theorem fillLevel_succ (a : List Bool) (offset length : Nat) :
    fillLevel a offset (length + 1) = (fillLevel a offset length).set (offset + length) true := by
  unfold fillLevel
  rw [List.range_succ, List.foldl_append]
  rfl

theorem fillLevel_grows (a : List Bool) (offset length : Nat) : Grows a (fillLevel a offset length) := by
  induction length with
  | zero => exact Grows.refl a
  | succ length ih =>
    rw [fillLevel_succ]
    exact ih.trans (grows_set _ _)

theorem fillLevel_first (hlen : offset + length ≤ a.length) (hpos : 0 < length) :
    (fillLevel a offset length)[offset]? = some true := by
  induction length with
  | zero => omega
  | succ length ih =>
    have hg := fillLevel_grows a offset length
    rw [fillLevel_succ]
    by_cases h0 : length = 0
    · subst h0
      rw [Nat.add_zero, List.getElem?_set_self (by rw [← hg.1]; omega)]
    · exact (grows_set _ _).2 _ (ih (by omega) (by omega))

theorem level_end_le (level : ScheduleLevel) :
    getScheduleOffset level + getScheduleLength level ≤ scheduleLength := by
  cases level <;> decide

theorem getScheduleLength_pos (level : ScheduleLevel) : 0 < getScheduleLength level := by
  cases level <;> decide

variable {rest rest' : List Char} {minDay minDay' : Nat}

theorem parseLevel_spec (hlen : a.length = scheduleLength)
    (h : parseLevel level (getScheduleOffset level) (getScheduleLength level) rest a minDay =
      .ok (rest', b, minDay')) :
    Grows a b ∧ Marked b (getScheduleOffset level) (getScheduleLength level) ∧
      (level ≠ .day → minDay' = minDay) ∧
      (level = .day → minDay = 32 → DayMarked b minDay' ∨ minDay' = 32 ∧ DayMarked b 0) := by
  have hend := level_end_le level
  unfold parseLevel at h
  cases hscan : scanLevel level (getScheduleOffset level) (getScheduleLength level) rest.length
      ⟨rest, a, true, minDay⟩ with
  | error msg =>
    rw [hscan] at h
    cases h
  | ok x =>
    rw [hscan] at h
    cases h
    have hmarks := scanLevel_marks hscan (by rw [hlen]; exact hend) rfl
    refine ⟨?_, ?_, fun hday ↦ scanLevel_minDay hscan hday, ?_⟩
    · split
      · exact hmarks.1.trans (fillLevel_grows _ _ _)
      · exact hmarks.1
    · split
      · refine ⟨0, getScheduleLength_pos level, fillLevel_first ?_ (getScheduleLength_pos level)⟩
        rw [← hmarks.1.1, hlen]
        exact hend
      · rename_i hnonempty
        exact hmarks.2 (by simpa using hnonempty)
    · rintro rfl rfl
      have hlen' : 144 + 31 ≤ a.length := by
        rw [hlen]
        decide
      rcases scanLevel_day hscan hlen' rfl rfl with ⟨hempty, h32⟩ | hday
      · refine .inr ⟨h32, by omega, ?_⟩
        rw [if_pos hempty]
        apply fillLevel_first _ (by decide)
        rw [← hmarks.1.1]
        exact hlen'
      · refine .inl ?_
        split
        · exact hday.grows (fillLevel_grows _ _ _)
        · exact hday

/-- `offset` is that of the first level, and the others follow it. -/
def Aligned : Nat → List ScheduleLevel → Prop
  | _, [] => True
  | offset, level :: levels =>
      getScheduleOffset level = offset ∧ Aligned (offset + getScheduleLength level) levels

theorem parseLevels_spec {levels : List ScheduleLevel} (hal : Aligned offset levels)
    (hnd : levels.Nodup) (hlen : a.length = scheduleLength)
    (h : parseLevels levels offset rest a minDay = .ok (rest', b, minDay')) :
    Grows a b ∧ (∀ level ∈ levels, Marked b (getScheduleOffset level) (getScheduleLength level)) ∧
      (.day ∉ levels → minDay' = minDay) ∧
      (.day ∈ levels → minDay = 32 → DayMarked b minDay' ∨ minDay' = 32 ∧ DayMarked b 0) := by
  induction levels generalizing offset rest a minDay with
  | nil =>
    cases h
    exact ⟨Grows.refl _, by simp, fun _ ↦ rfl, by simp⟩
  | cons level levels ih =>
    rcases hal with ⟨rfl, hal⟩
    rcases List.nodup_cons.mp hnd with ⟨hnot, hnd⟩
    unfold parseLevels at h
    cases hparse : parseLevel level (getScheduleOffset level) (getScheduleLength level) rest a minDay with
    | error msg =>
      rw [hparse] at h
      cases h
    | ok out =>
      rcases out with ⟨rest₁, a₁, min₁⟩
      rw [hparse] at h
      rcases parseLevel_spec hlen hparse with ⟨hg, hmark, hother, hday⟩
      rcases ih hal hnd (by rw [← hg.1, hlen]) h with ⟨hg', hmarks, hother', hday'⟩
      refine ⟨hg.trans hg', ?_, ?_, ?_⟩
      · intro k hk
        rcases List.mem_cons.mp hk with rfl | hk
        · exact hmark.grows hg'
        · exact hmarks k hk
      · intro hno
        simp only [List.mem_cons, not_or] at hno
        rw [hother' hno.2, hother (Ne.symm hno.1)]
      · intro hin h32
        by_cases hlevel : level = .day
        · -- the later levels leave the least day as it is
          subst hlevel
          have hsame := hother' hnot
          rcases hday rfl h32 with hd | ⟨hm, hd⟩
          · exact .inl (by rw [hsame]; exact hd.grows hg')
          · exact .inr ⟨by rw [hsame, hm], hd.grows hg'⟩
        · have hin' : ScheduleLevel.day ∈ levels := by
            rcases List.mem_cons.mp hin with heq | hin
            · exact absurd heq.symm hlevel
            · exact hin
          exact hday' hin' (by rw [hother hlevel, h32])

/-- What the constructor promises: every level allows a value, and some allowed day is in an allowed
month, in leap years at least. -/
structure Accepted (s : Schedule) : Prop where
  some : ∀ level, ∃ v, v < getScheduleLength level ∧ s.allows level v = true
  possible : ∃ m d, m < 12 ∧ d < (monthLengths true)[m]?.getD 0 ∧ s.allows .month m = true ∧
    s.allows .day d = true

theorem allows_of_marked {s : Schedule}
    (h : Marked s.schedule (getScheduleOffset level) (getScheduleLength level)) :
    ∃ v, v < getScheduleLength level ∧ s.allows level v = true := by
  rcases h with ⟨v, hv, hset⟩
  exact ⟨v, hv, by simp [allows, hset]⟩

theorem allows_day {s : Schedule} {d : Nat} (h : DayMarked s.schedule d) : s.allows .day d = true := by
  simp [allows, getScheduleOffset, h.2]

/-- One of the listed entries is set. -/
theorem exists_month {s : Schedule} {entries : List Nat}
    (h : ¬ entries.all (fun i ↦ !s.schedule[i]?.getD false) = true) (hge : ∀ i ∈ entries, 175 ≤ i) :
    ∃ i ∈ entries, s.allows .month (i - 175) = true := by
  simp only [List.all_eq_true, not_forall] at h
  rcases h with ⟨i, hi, hset⟩
  refine ⟨i, hi, ?_⟩
  have h175 := hge i hi
  unfold allows getScheduleOffset
  rw [show 175 + (i - 175) = i by omega]
  simpa using hset

theorem create_accepted {description : String} {s : Schedule} (h : create description = .ok s) :
    s.Accepted := by
  unfold create at h
  cases hparse : parseLevels ScheduleLevel.all 0 (cString description)
      (List.replicate scheduleLength false) 32 with
  | error msg =>
    rw [hparse] at h
    cases h
  | ok out =>
    rcases out with ⟨rest, a, minDay⟩
    have hspec := parseLevels_spec (by simp [Aligned, ScheduleLevel.all, getScheduleOffset,
      getScheduleLength]) (by decide) (by simp) hparse
    rcases hspec with ⟨-, hmarks, -, hday⟩
    rw [hparse] at h
    simp only [Except.bind] at h
    split at h
    · cases h
    · split at h
      · cases h
      · rename_i h29
        split at h
        · cases h
        · rename_i h30
          cases h
          have hsome : ∀ level, ∃ v, v < getScheduleLength level ∧
              (Schedule.mk a).allows level v = true := by
            intro level
            apply allows_of_marked
            apply hmarks
            cases level <;> decide
          refine ⟨hsome, ?_⟩
          rcases hsome .month with ⟨m, hm, hmonth⟩
          rcases hday (by decide) rfl with hd | ⟨-, hd⟩
          · -- days 30 and 31 were checked against the months
            have hlt := hd.1
            rcases Nat.lt_trichotomy minDay 29 with hlt29 | rfl | hgt29
            · refine ⟨m, minDay, hm, ?_, hmonth, allows_day hd⟩
              have hmin : ∀ k, k < 12 → 29 ≤ (monthLengths true)[k]?.getD 0 := by decide
              have hk := hmin m hm
              omega
            · rw [not_and] at h29
              rcases exists_month (s := ⟨a⟩) (h29 rfl) (by decide) with ⟨i, hi, hallowed⟩
              have hmin : ∀ k ∈ monthsOver29, k - 175 < 12 ∧
                  29 < (monthLengths true)[k - 175]?.getD 0 := by decide
              exact ⟨i - 175, 29, (hmin i hi).1, (hmin i hi).2, hallowed, allows_day hd⟩
            · obtain rfl : minDay = 30 := by omega
              rw [not_and] at h30
              rcases exists_month (s := ⟨a⟩) (h30 rfl) (by decide) with ⟨i, hi, hallowed⟩
              have hmin : ∀ k ∈ monthsOver30, k - 175 < 12 ∧
                  30 < (monthLengths true)[k - 175]?.getD 0 := by decide
              exact ⟨i - 175, 30, (hmin i hi).1, (hmin i hi).2, hallowed, allows_day hd⟩
          · refine ⟨m, 0, hm, ?_, hmonth, allows_day hd⟩
            have hmin : ∀ k, k < 12 → 0 < (monthLengths true)[k]?.getD 0 := by decide
            exact hmin m hm

end Schedule

end EvQueue
