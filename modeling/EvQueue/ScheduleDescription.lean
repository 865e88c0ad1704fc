import Mathlib.Tactic.IntervalCases
import EvQueue.ScheduleTime

/-!
# ScheduleDescription — what a description lists

A description lists values for six levels, and a level without values stands for all of them.  This file
says what the constructor makes of these lists: the entries of its table, and when it finds them
impossible to satisfy.
-/

namespace EvQueue

open Calendar

/-- The values listed for each level. -/
abbrev ScheduleValues := ScheduleLevel → List Nat

namespace ScheduleValues

/-- A level without values allows every value. -/
def Lists (values : ScheduleValues) (level : ScheduleLevel) (v : Nat) : Prop :=
  values level = [] ∨ v ∈ values level

instance (values : ScheduleValues) (level : ScheduleLevel) (v : Nat) :
    Decidable (values.Lists level v) := inferInstanceAs (Decidable (_ ∨ _))

/-- Some date of the calendar is on a listed day, month and weekday. -/
def Satisfiable (values : ScheduleValues) : Prop :=
  ∃ date : Date, date.Valid ∧ values.Lists .day date.day ∧ values.Lists .month date.month ∧
    values.Lists .wday (weekday date.dayNumber)

end ScheduleValues

namespace Schedule

/-! ## Reading the values -/

/-- The values of one level, and the rest of the description. -/
def readLevel (length : Nat) : Nat → List Char → Except String (List Nat × List Char)
  | 0, rest => .ok ([], rest)
  | fuel + 1, rest =>
      if rest.head? = none ∨ rest.head? = some ';' then .ok ([], rest)
      else
        match strtol rest with
        | none => .error "Non numeric data in schedule offset"
        | some (v, rest) =>
            if v < 0 ∨ v ≥ length then .error "Out of range schedule offset"
            else (readLevel length fuel (skip ',' rest)).map fun (vs, rest) ↦ (v.toNat :: vs, rest)

def readLevels : List ScheduleLevel → List Char → Except String (ScheduleValues × List Char)
  | [], rest => .ok (fun _ ↦ [], rest)
  | level :: levels, rest =>
      (readLevel (getScheduleLength level) rest.length rest).bind fun (vs, rest) ↦
        (readLevels levels (skip ';' rest)).map fun (values, rest) ↦
          (Function.update values level vs, rest)

/-- What a description lists, or the error of its syntax and range checks. -/
def readValues (description : List Char) : Except String ScheduleValues :=
  (readLevels ScheduleLevel.all description).bind fun (values, rest) ↦
    if rest ≠ [] then .error "Garbage at end of schedule" else .ok values

/-! ## The table that the values make -/

variable {level : ScheduleLevel} {offset length fuel i minDay : Nat} {a b : List Bool}
variable {rest rest' : List Char} {vs : List Nat}

/-- The entries set while the values are read. -/
def mark (offset : Nat) (a : List Bool) (vs : List Nat) : List Bool :=
  vs.foldl (fun a v ↦ a.set (offset + v) true) a

/-- The scanner keeps the table, whether the level is empty and the least day of what `readLevel` reads. -/
theorem scanLevel_eq (level : ScheduleLevel) (offset length fuel : Nat) (s : Scan) :
    scanLevel level offset length fuel s = (readLevel length fuel s.rest).map fun (vs, rest) ↦
      { rest
        schedule := mark offset s.schedule vs
        emptyLevel := s.emptyLevel && vs.isEmpty
        minDay := if level = .day then vs.foldl min s.minDay else s.minDay } := by
  induction fuel generalizing s with
  | zero => simp [scanLevel, readLevel, Except.map, mark]
  | succ fuel ih =>
    unfold scanLevel readLevel
    by_cases hend : s.rest.head? = none ∨ s.rest.head? = some ';'
    · rw [if_pos hend, if_pos hend]
      simp [Except.map, mark]
    · rw [if_neg hend, if_neg hend]
      cases strtol s.rest with
      | none => rfl
      | some found =>
        rcases found with ⟨v, rest⟩
        dsimp only
        by_cases hrange : v < 0 ∨ v ≥ length
        · rw [if_pos hrange, if_pos hrange]
          rfl
        · rw [if_neg hrange, if_neg hrange, ih]
          cases readLevel length fuel (skip ',' rest) with
          | error msg => rfl
          | ok out =>
            rcases out with ⟨vs, rest'⟩
            simp only [Except.map, mark, List.foldl_cons, List.isEmpty_cons, Bool.and_false,
              Bool.false_and, Except.ok.injEq, Scan.mk.injEq, true_and]
            by_cases hday : level = .day
            · -- the least day so far is the minimum of those read
              have hmin : (if v.toNat < s.minDay then v.toNat else s.minDay) = min s.minDay v.toNat := by
                split <;> omega
              simp only [hday, true_and, if_true, hmin]
            · simp only [hday, false_and, if_false]

/-- The values of a level as they are entered: all of them where none is listed. -/
def listed (values : ScheduleValues) (level : ScheduleLevel) : List Nat :=
  if values level = [] then List.range (getScheduleLength level) else values level

def markLevels (values : ScheduleValues) (levels : List ScheduleLevel) (a : List Bool) : List Bool :=
  levels.foldl (fun a level ↦ mark (getScheduleOffset level) a (listed values level)) a

/-- The table of a description that lists `values`. -/
def tableOf (values : ScheduleValues) : List Bool :=
  markLevels values ScheduleLevel.all (List.replicate scheduleLength false)

/-- The least day listed, or 32. -/
def leastDay (values : ScheduleValues) : Nat := (values .day).foldl min 32

theorem markLevels_congr {values values' : ScheduleValues} {levels : List ScheduleLevel}
    (h : ∀ level ∈ levels, values level = values' level) (a : List Bool) :
    markLevels values levels a = markLevels values' levels a := by
  induction levels generalizing a with
  | nil => rfl
  | cons level levels ih =>
    have hhead : listed values level = listed values' level := by
      unfold listed
      rw [h level (List.mem_cons_self ..)]
    unfold markLevels at ih ⊢
    rw [List.foldl_cons, List.foldl_cons, hhead]
    apply ih
    intro k hk
    exact h k (List.mem_cons_of_mem _ hk)

theorem parseLevel_eq (level : ScheduleLevel) (rest : List Char) (a : List Bool) (minDay : Nat) :
    parseLevel level (getScheduleOffset level) (getScheduleLength level) rest a minDay =
      (readLevel (getScheduleLength level) rest.length rest).map fun (vs, rest) ↦
        (skip ';' rest, markLevels (fun _ ↦ vs) [level] a,
          if level = .day then vs.foldl min minDay else minDay) := by
  unfold parseLevel
  rw [scanLevel_eq]
  cases readLevel (getScheduleLength level) rest.length rest with
  | error msg => rfl
  | ok out =>
    rcases out with ⟨vs, rest'⟩
    cases vs with
    | nil => simp [Except.map, markLevels, listed, mark, fillLevel]
    | cons v vs => simp [Except.map, markLevels, listed]

/-- The loop over the levels enters what `readLevels` reads. -/
theorem parseLevels_eq {levels : List ScheduleLevel} (hal : Aligned offset levels) (hnd : levels.Nodup)
    (rest : List Char) (a : List Bool) (minDay : Nat) :
    parseLevels levels offset rest a minDay = (readLevels levels rest).map fun (values, rest) ↦
      (rest, markLevels values levels a,
        if .day ∈ levels then (values .day).foldl min minDay else minDay) := by
  induction levels generalizing offset rest a minDay with
  | nil => rfl
  | cons level levels ih =>
    obtain ⟨rfl, hal⟩ := hal
    obtain ⟨hnot, hnd⟩ := List.nodup_cons.mp hnd
    unfold parseLevels readLevels
    rw [parseLevel_eq]
    cases readLevel (getScheduleLength level) rest.length rest with
    | error msg => rfl
    | ok out =>
      rcases out with ⟨vs, rest'⟩
      simp only [Except.map, Except.bind]
      rw [ih hal hnd]
      cases readLevels levels (skip ';' rest') with
      | error msg => rfl
      | ok out' =>
        rcases out' with ⟨values, rest''⟩
        have hlater : ∀ k ∈ levels, values k = Function.update values level vs k := by
          intro k hk
          rw [Function.update_of_ne]
          rintro rfl
          exact hnot hk
        have hlisted : listed (fun _ ↦ vs) level = listed (Function.update values level vs) level := by
          unfold listed
          rw [Function.update_self]
        simp only [Except.map, Except.ok.injEq, Prod.mk.injEq, true_and]
        refine ⟨?_, ?_⟩
        · rw [markLevels_congr hlater]
          unfold markLevels
          rw [List.foldl_cons, List.foldl_cons, List.foldl_nil, hlisted]
        · by_cases hday : level = .day
          · -- the day is read here and in no later level
            subst hday
            simp [hnot, Function.update_self]
          · have hne : ScheduleLevel.day ≠ level := Ne.symm hday
            simp [hday, hne]

/-- The constructor, in terms of the values read. -/
theorem create_eq (description : String) :
    create description = (readValues (cString description)).bind fun values ↦
      if leastDay values = 29 ∧ monthsOver29.all (fun i ↦ !(tableOf values)[i]?.getD false) then
        .error "Schedule constraints are impossible to satisfy"
      else if leastDay values = 30 ∧ monthsOver30.all (fun i ↦ !(tableOf values)[i]?.getD false) then
        .error "Schedule constraints are impossible to satisfy"
      else .ok ⟨tableOf values⟩ := by
  have hal : Aligned 0 ScheduleLevel.all := by
    simp [Aligned, ScheduleLevel.all, getScheduleOffset, getScheduleLength]
  have hday : ScheduleLevel.day ∈ ScheduleLevel.all := by decide
  unfold create readValues
  rw [parseLevels_eq hal (by decide)]
  cases readLevels ScheduleLevel.all (cString description) with
  | error msg => rfl
  | ok out =>
    rcases out with ⟨values, rest⟩
    simp only [Except.map, Except.bind, hday, if_true]
    by_cases hrest : rest = []
    · simp only [hrest, ne_eq, not_true, if_false]
      rfl
    · simp only [ne_eq, hrest, not_false_eq_true, if_true]

/-! ## The entries of the table -/

/-- Every value listed is one of its level. -/
def InRanges (values : ScheduleValues) : Prop :=
  ∀ level, ∀ v ∈ values level, v < getScheduleLength level

theorem readLevel_inRange {n : Nat} (h : readLevel n fuel rest = .ok (vs, rest')) : ∀ v ∈ vs, v < n := by
  induction fuel generalizing rest vs with
  | zero =>
    cases h
    simp
  | succ fuel ih =>
    unfold readLevel at h
    split at h
    · cases h
      simp
    · split at h
      · cases h
      · split at h
        · cases h
        · rename_i v rest₁ _ hrange
          cases hread : readLevel n fuel (skip ',' rest₁) with
          | error msg =>
            rw [hread] at h
            cases h
          | ok out =>
            rw [hread] at h
            cases h
            intro k hk
            rcases List.mem_cons.mp hk with rfl | hk
            · omega
            · exact ih hread k hk

theorem readLevels_inRanges {levels : List ScheduleLevel} {values : ScheduleValues}
    (h : readLevels levels rest = .ok (values, rest')) : InRanges values := by
  induction levels generalizing rest values with
  | nil =>
    cases h
    intro level v hv
    cases hv
  | cons level levels ih =>
    unfold readLevels at h
    cases hread : readLevel (getScheduleLength level) rest.length rest with
    | error msg =>
      rw [hread] at h
      cases h
    | ok out =>
      rw [hread] at h
      simp only [Except.bind] at h
      cases hmore : readLevels levels (skip ';' out.2) with
      | error msg =>
        rw [hmore] at h
        cases h
      | ok more =>
        rw [hmore] at h
        cases h
        intro k v hv
        by_cases hk : k = level
        · subst hk
          rw [Function.update_self] at hv
          exact readLevel_inRange hread v hv
        · rw [Function.update_of_ne hk] at hv
          exact ih hmore k v hv

theorem readValues_inRanges {description : List Char} {values : ScheduleValues}
    (h : readValues description = .ok values) : InRanges values := by
  unfold readValues at h
  cases hread : readLevels ScheduleLevel.all description with
  | error msg =>
    rw [hread] at h
    cases h
  | ok out =>
    rw [hread] at h
    simp only [Except.bind] at h
    split at h
    · cases h
    · cases h
      exact readLevels_inRanges hread

theorem length_mark (offset : Nat) (a : List Bool) (vs : List Nat) : (mark offset a vs).length = a.length := by
  induction vs generalizing a with
  | nil => rfl
  | cons v vs ih =>
    unfold mark at ih ⊢
    rw [List.foldl_cons, ih, List.length_set]

/-- The entries marked are added to those of before. -/
theorem mark_entry (hvs : ∀ v ∈ vs, offset + v < a.length) :
    (mark offset a vs)[i]?.getD false = true ↔ a[i]?.getD false = true ∨ ∃ v ∈ vs, offset + v = i := by
  induction vs generalizing a with
  | nil => simp [mark]
  | cons v vs ih =>
    have hv := hvs v (List.mem_cons_self ..)
    have hrest : ∀ v' ∈ vs, offset + v' < (a.set (offset + v) true).length := by
      intro v' hv'
      rw [List.length_set]
      exact hvs v' (List.mem_cons_of_mem _ hv')
    have hset : (a.set (offset + v) true)[i]?.getD false = true ↔
        a[i]?.getD false = true ∨ offset + v = i := by
      by_cases hi : offset + v = i
      · subst hi
        rw [List.getElem?_set_self hv]
        simp
      · rw [List.getElem?_set_ne hi]
        simp [hi]
    unfold mark at ih ⊢
    rw [List.foldl_cons, ih hrest, hset, or_assoc, List.exists_mem_cons_iff]

theorem listed_lt {values : ScheduleValues} (hin : InRanges values) (level : ScheduleLevel) :
    ∀ v ∈ listed values level, v < getScheduleLength level := by
  intro v hv
  unfold listed at hv
  split at hv
  · exact List.mem_range.mp hv
  · exact hin level v hv

theorem mem_listed {values : ScheduleValues} {v : Nat} (hv : v < getScheduleLength level) :
    v ∈ listed values level ↔ values.Lists level v := by
  unfold listed ScheduleValues.Lists
  split
  · rename_i hempty
    simp [hempty, hv]
  · rename_i hnonempty
    simp [hnonempty]

theorem markLevels_entry {values : ScheduleValues} (hin : InRanges values) (levels : List ScheduleLevel)
    (hlen : a.length = scheduleLength) :
    (markLevels values levels a).length = scheduleLength ∧
      ((markLevels values levels a)[i]?.getD false = true ↔ a[i]?.getD false = true ∨
        ∃ level ∈ levels, ∃ v ∈ listed values level, getScheduleOffset level + v = i) := by
  induction levels generalizing a with
  | nil => simp [markLevels, hlen]
  | cons level levels ih =>
    have hend := level_end_le level
    have hvs : ∀ v ∈ listed values level, getScheduleOffset level + v < a.length := by
      intro v hv
      have hlt := listed_lt hin level v hv
      omega
    obtain ⟨hlength, hentry⟩ := ih ((length_mark (getScheduleOffset level) a _).trans hlen)
    rw [mark_entry hvs] at hentry
    unfold markLevels at hlength hentry ⊢
    rw [List.foldl_cons]
    refine ⟨hlength, ?_⟩
    rw [hentry, or_assoc, List.exists_mem_cons_iff]

/-- Levels do not overlap. -/
theorem level_disjoint {level' : ScheduleLevel} {v v' : Nat} (hv : v < getScheduleLength level)
    (hv' : v' < getScheduleLength level') (h : getScheduleOffset level' + v' = getScheduleOffset level + v) :
    level' = level ∧ v' = v := by
  unfold getScheduleOffset at h
  unfold getScheduleLength at hv hv'
  cases level <;> cases level' <;> dsimp only at h hv hv' <;> first | exact ⟨rfl, by omega⟩ | omega

theorem length_tableOf {values : ScheduleValues} (hin : InRanges values) :
    (tableOf values).length = scheduleLength :=
  (markLevels_entry (i := 0) hin ScheduleLevel.all (by rw [List.length_replicate])).1

/-- The table allows the values listed, and the others of no level. -/
theorem tableOf_allows {values : ScheduleValues} (hin : InRanges values) {v : Nat}
    (hv : v < getScheduleLength level) :
    (Schedule.mk (tableOf values)).allows level v = true ↔ values.Lists level v := by
  have hentry := (markLevels_entry (i := getScheduleOffset level + v) hin ScheduleLevel.all
    (a := List.replicate scheduleLength false) (by rw [List.length_replicate])).2
  have hclear : (List.replicate scheduleLength false)[getScheduleOffset level + v]?.getD false = false := by
    rw [List.getElem?_replicate]
    split <;> rfl
  unfold allows tableOf
  rw [hentry, hclear, ← mem_listed hv]
  constructor
  · rintro (hno | ⟨level', -, v', hv', heq⟩)
    · cases hno
    · obtain ⟨rfl, rfl⟩ := level_disjoint hv (listed_lt hin level' v' hv') heq
      exact hv'
  · intro hmem
    refine .inr ⟨level, ?_, v, hmem, rfl⟩
    cases level <;> decide

/-! ## Impossible schedules -/

theorem foldl_min_le (vs : List Nat) (m : Nat) :
    vs.foldl min m ≤ m ∧ ∀ v ∈ vs, vs.foldl min m ≤ v := by
  induction vs generalizing m with
  | nil => simp
  | cons v vs ih =>
    obtain ⟨hm, hvs⟩ := ih (min m v)
    rw [List.foldl_cons]
    refine ⟨by omega, ?_⟩
    intro k hk
    rcases List.mem_cons.mp hk with rfl | hk
    · omega
    · exact hvs k hk

/-- The least day is listed, or it is 32 and none is. -/
theorem leastDay_le {values : ScheduleValues} {d : Nat} (h : leastDay values ≠ 32)
    (hd : values.Lists .day d) : leastDay values ≤ d := by
  rcases hd with hempty | hmem
  · refine absurd ?_ h
    unfold leastDay
    rw [hempty]
    rfl
  · exact (foldl_min_le (values .day) 32).2 d hmem

variable {values : ScheduleValues}

/-- The months with more than 29 days, and with more than 30, are among those that are checked. -/
theorem mem_monthsOver (y : Int) {m : Nat} (hm : m < 12) :
    (29 < monthLength y m → 175 + m ∈ monthsOver29) ∧
      (30 < monthLength y m → 175 + m ∈ monthsOver30) := by
  unfold monthLength
  cases isLeap y <;> interval_cases m <;> decide

/-- A check that fails says so rightly: no month that is allowed has the least day. -/
theorem not_satisfiable_of_check (hin : InRanges values) {months : List Nat} {least : Nat}
    (hne : least ≠ 32) (hleast : leastDay values = least)
    (hmonths : ∀ y m, m < 12 → least < monthLength y m → 175 + m ∈ months)
    (hnone : months.all (fun i ↦ !(tableOf values)[i]?.getD false) = true) : ¬ values.Satisfiable := by
  rintro ⟨date, hvalid, hday, hmonth, -⟩
  have hle := leastDay_le (by rwa [hleast]) hday
  have hmem := hmonths date.year date.month hvalid.1 (by have hlt := hvalid.2; omega)
  have hallowed := (tableOf_allows hin (show date.month < getScheduleLength .month from hvalid.1)).mpr hmonth
  have hno := List.all_eq_true.mp hnone _ hmem
  unfold allows getScheduleOffset at hallowed
  rw [hallowed] at hno
  cases hno

/-- What passes the checks has a date, in a leap year and on any weekday. -/
theorem satisfiable_of_accepted (hin : InRanges values) (ha : (Schedule.mk (tableOf values)).Accepted) :
    values.Satisfiable := by
  obtain ⟨m, d, hm, hd, hmonth, hday⟩ := ha.possible
  obtain ⟨w, hw, hwday⟩ := ha.some .wday
  obtain ⟨y, -, hleap, hweekday⟩ := exists_weekday hw m d 0
  have hlen : d < monthLength y m := by
    unfold monthLength
    rwa [hleap]
  have hcases := monthLength_cases y hm
  refine ⟨⟨y, m, d⟩, ⟨hm, hlen⟩, ?_, ?_, ?_⟩
  · have hd31 : d < getScheduleLength .day := by
      show d < 31
      omega
    exact (tableOf_allows hin hd31).mp hday
  · exact (tableOf_allows hin (show m < getScheduleLength .month from hm)).mp hmonth
  · rw [Date.dayNumber, hweekday]
    exact (tableOf_allows hin (show w < getScheduleLength .wday from hw)).mp hwday

/-- A description that lists `values` makes their table, or none of them is ever due. -/
theorem create_of_values {description : String} (h : readValues (cString description) = .ok values) :
    values.Satisfiable ∧ create description = .ok ⟨tableOf values⟩ ∨
      ¬ values.Satisfiable ∧ create description = .error "Schedule constraints are impossible to satisfy" := by
  have hin := readValues_inRanges h
  have hcreate := create_eq description
  rw [h] at hcreate
  simp only [Except.bind] at hcreate
  split at hcreate
  · rename_i hcheck
    refine .inr ⟨?_, hcreate⟩
    exact not_satisfiable_of_check hin (by decide) hcheck.1 (fun y _ hm ↦ (mem_monthsOver y hm).1) hcheck.2
  · split at hcreate
    · rename_i hcheck
      refine .inr ⟨?_, hcreate⟩
      exact not_satisfiable_of_check hin (by decide) hcheck.1 (fun y _ hm ↦ (mem_monthsOver y hm).2) hcheck.2
    · exact .inl ⟨satisfiable_of_accepted hin (create_accepted hcreate), hcreate⟩

/-- Whatever passes the syntax and range checks is refused as impossible exactly where no date of the
calendar is on a listed day, month and weekday. -/
theorem create_impossible_iff (description : String) (values : ScheduleValues)
    (h : readValues (cString description) = .ok values) :
    create description = .error "Schedule constraints are impossible to satisfy" ↔
      ¬ values.Satisfiable := by
  rcases create_of_values h with ⟨hsat, hcreate⟩ | ⟨hno, hcreate⟩
  · rw [hcreate]
    simp [hsat]
  · rw [hcreate]
    simp [hno]

/-- 31 February. -/
theorem create_impossible_february : ∃ values, readValues (cString "0;0;0;30;1") = .ok values ∧
    (create "0;0;0;30;1" = .error "Schedule constraints are impossible to satisfy" ↔
      ¬ values.Satisfiable) :=
  ⟨_, rfl, create_impossible_iff "0;0;0;30;1" _ rfl⟩

end Schedule

end EvQueue
