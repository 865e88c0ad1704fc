import Mathlib.Data.List.TakeWhile
import EvQueue.ScheduleDescription

/-!
# ScheduleScan — the scanner of descriptions, index by index

What six lists of values look like as a description, and that the constructor reads it back.  Then the
constructor again, down to the `int` index that it moves over the description: every access is checked,
so that the scanner can also leave the description or its table, or go on forever.
-/

namespace EvQueue

namespace Schedule

variable {level : ScheduleLevel} {offset length fuel : Nat} {rest rest' description : List Char}

/-! ## Descriptions of values -/

def renderLevel (vs : List Nat) : List Char := [','].intercalate (vs.map (Nat.toDigits 10))

/-- The values of each level as decimals, joined by commas, and the levels by semicolons. -/
def render (values : ScheduleValues) : List Char :=
  [';'].intercalate (ScheduleLevel.all.map fun level ↦ renderLevel (values level))

/-- What follows the decimals of a level. -/
def Ends (rest : List Char) : Prop := rest = [] ∨ ∃ tail, rest = ';' :: tail

/-- A decimal as `strtol` sees it: it starts with a digit, holds nothing but digits and has the value. -/
def Decimal (digits : List Char) (v : Nat) : Prop :=
  digits ≠ [] ∧ digits.all Char.isDigit = true ∧
    digits.head?.any (fun c ↦ isSpace c || c == '-' || c == '+') = false ∧
    (digits.foldl (fun n c ↦ n * 10 + (c.toNat - 48)) 0 : Int) = v

instance (digits : List Char) (v : Nat) : Decidable (Decimal digits v) :=
  inferInstanceAs (Decidable (_ ∧ _ ∧ _ ∧ _))

theorem decimal_toDigits : ∀ v, v < 60 → Decimal (Nat.toDigits 10 v) v := by
  decide

/-- A decimal is converted up to the first character that is no digit. -/
theorem strtol_decimal {digits : List Char} {v : Nat} (h : Decimal digits v) (hv : v < 60)
    (hrest : rest.head?.any Char.isDigit = false) : strtol (digits ++ rest) = some ((v : Int), rest) := by
  obtain ⟨hne, hall, hhead, hvalue⟩ := h
  have hdigits : ∀ c ∈ digits, c.isDigit = true := by simpa using hall
  have hspan : (digits ++ rest).takeWhile Char.isDigit = digits ∧
      (digits ++ rest).dropWhile Char.isDigit = rest := by
    rw [List.takeWhile_append_of_pos hdigits, List.dropWhile_append_of_pos hdigits]
    cases rest with
    | nil => simp
    | cons c tail =>
      have hc : c.isDigit = false := by simpa using hrest
      simp [hc]
  -- neither blanks nor a sign stand before it
  have hstart : readSign ((digits ++ rest).dropWhile isSpace) = (false, digits ++ rest) := by
    cases digits with
    | nil => exact absurd rfl hne
    | cons c tail =>
      simp only [List.head?_cons, Option.any_some, Bool.or_eq_false_iff, beq_eq_false_iff_ne] at hhead
      obtain ⟨⟨hspace, hminus⟩, hplus⟩ := hhead
      rw [List.cons_append, List.dropWhile_cons_of_neg (by simp [hspace])]
      unfold readSign
      split
      · rename_i heq
        cases heq
        exact absurd rfl hminus
      · rename_i heq
        cases heq
        exact absurd rfl hplus
      · rfl
  unfold strtol
  rw [hstart]
  simp only [hspan.1, hspan.2, hne, if_false, hvalue, Bool.false_eq_true]
  have hbounds : max (-2 ^ 63 : Int) (min (2 ^ 63 - 1) v) = v := by omega
  rw [hbounds]

theorem head_toDigits {v : Nat} (hv : v < 60) (rest : List Char) :
    (Nat.toDigits 10 v ++ rest).head? ≠ none ∧ (Nat.toDigits 10 v ++ rest).head? ≠ some ';' := by
  obtain ⟨hne, hall, -, -⟩ := decimal_toDigits v hv
  cases hdigits : Nat.toDigits 10 v with
  | nil => exact absurd hdigits hne
  | cons c tail =>
    rw [hdigits] at hall
    refine ⟨by simp, ?_⟩
    rintro heq
    cases heq
    simp at hall

theorem Ends.head (h : Ends rest) : rest.head? = none ∨ rest.head? = some ';' := by
  rcases h with rfl | ⟨tail, rfl⟩
  · exact .inl rfl
  · exact .inr rfl

theorem renderLevel_cons_cons (v v' : Nat) (vs : List Nat) :
    renderLevel (v :: v' :: vs) = Nat.toDigits 10 v ++ ',' :: renderLevel (v' :: vs) := by
  simp [renderLevel, List.intercalate_cons_cons]

/-- The values of a level are read back from their decimals. -/
theorem readLevel_render {vs : List Nat} (hvs : ∀ v ∈ vs, v < length) (hlength : length ≤ 60)
    (hrest : Ends rest) (hfuel : vs.length ≤ fuel) :
    readLevel length fuel (renderLevel vs ++ rest) = .ok (vs, rest) := by
  induction vs generalizing fuel with
  | nil =>
    cases fuel with
    | zero => rfl
    | succ fuel =>
      unfold readLevel
      exact if_pos hrest.head
  | cons v vs ih =>
    obtain ⟨fuel, rfl⟩ : ∃ n, fuel = n + 1 := ⟨fuel - 1, by
      rw [List.length_cons] at hfuel
      omega⟩
    have hv : v < length := hvs v (List.mem_cons_self ..)
    have hlater : ∀ v' ∈ vs, v' < length := fun v' hv' ↦ hvs v' (List.mem_cons_of_mem _ hv')
    -- after the first decimal there is a comma, or the level ends
    obtain ⟨tail, htail, hdigit, hskip⟩ : ∃ tail, renderLevel (v :: vs) ++ rest = Nat.toDigits 10 v ++ tail ∧
        tail.head?.any Char.isDigit = false ∧ skip ',' tail = renderLevel vs ++ rest := by
      cases vs with
      | nil =>
        refine ⟨rest, by simp [renderLevel], ?_, ?_⟩
        · rcases hrest with rfl | ⟨tail, rfl⟩ <;> rfl
        · rcases hrest with rfl | ⟨tail, rfl⟩ <;> rfl
      | cons v' vs =>
        exact ⟨',' :: (renderLevel (v' :: vs) ++ rest), by simp [renderLevel_cons_cons], rfl, rfl⟩
    have hhead := head_toDigits (show v < 60 by omega) tail
    have hlate := @ih fuel hlater (by simpa using hfuel)
    rw [htail]
    unfold readLevel
    rw [if_neg (not_or.mpr hhead), strtol_decimal (decimal_toDigits v (by omega)) (by omega) hdigit]
    dsimp only
    rw [if_neg (by omega), hskip, hlate]
    rfl

theorem length_le_renderLevel (vs : List Nat) (h : ∀ v ∈ vs, v < 60) : vs.length ≤ (renderLevel vs).length := by
  induction vs with
  | nil => exact Nat.zero_le _
  | cons v vs ih =>
    have hdecimal := List.length_pos_iff.mpr (decimal_toDigits v (h v (List.mem_cons_self ..))).1
    have hlater := ih fun v' hv' ↦ h v' (List.mem_cons_of_mem _ hv')
    cases vs with
    | nil =>
      show 1 ≤ ([','].intercalate [Nat.toDigits 10 v]).length
      rw [List.intercalate_singleton]
      exact hdecimal
    | cons v' vs =>
      rw [renderLevel_cons_cons, List.length_append]
      simp only [List.length_cons] at *
      omega

theorem getScheduleLength_le (level : ScheduleLevel) : getScheduleLength level ≤ 60 := by
  cases level <;> decide

/-- Six lists of values in their ranges are read back from their description. -/
theorem readValues_render {values : ScheduleValues} (hin : InRanges values) :
    readValues (render values) = .ok values := by
  have hread : ∀ level rest, Ends rest →
      readLevel (getScheduleLength level) (renderLevel (values level) ++ rest).length
        (renderLevel (values level) ++ rest) = .ok (values level, rest) := by
    intro level rest hrest
    have hlength := getScheduleLength_le level
    apply readLevel_render (hin level) hlength hrest
    have hle := length_le_renderLevel (values level) fun v hv ↦ by
      have hlt := hin level v hv
      omega
    rw [List.length_append]
    omega
  have hlast := hread .wday [] (.inl rfl)
  rw [List.append_nil] at hlast
  unfold readValues render ScheduleLevel.all
  simp only [List.map_cons, List.map_nil, List.intercalate_cons_cons, List.intercalate_singleton,
    List.singleton_append, List.append_assoc, readLevels, Except.bind, Except.map]
  -- each level but the last is followed by a semicolon
  repeat rw [hread _ (';' :: _) (.inr ⟨_, rfl⟩)]; dsimp only [skip]; rw [if_pos rfl]
  rw [hlast]
  simp only [ne_eq, not_true, if_false, Except.ok.injEq]
  funext level
  cases level <;> rfl

/-! ## The scanner with its index -/

/-- How the constructor ends without a schedule: by an exception, by an access outside its table or the
description, or not within the rounds given. -/
inductive ScanStop where
  | raised (message : String)
  | outside
  | running
deriving DecidableEq, Repr

/-- What the parsing loop keeps; `i` is an `int`. -/
structure Cursor where
  i : Int
  schedule : List Bool
  emptyLevel : Bool
  minDay : Nat
deriving DecidableEq, Repr

/-- An `int` keeps the low 32 bits. -/
def toInt32 (n : Int) : Int := n.bmod (2 ^ 32)

/-- `schedule_description[i]`, where the terminator follows the characters, one a byte. -/
def charAt (description : List Char) (i : Int) : Except ScanStop Char :=
  if i < 0 then .error .outside
  else
    match (description ++ ['\x00'])[i.toNat]? with
    | none => .error .outside
    | some c => .ok c

/-- `schedule[offset+v] = true`. -/
def setAt (schedule : List Bool) (i : Nat) : Except ScanStop (List Bool) :=
  if i < schedule.length then .ok (schedule.set i true) else .error .outside

/-- `i += end_ptr-start_ptr`, where `strtol` has left `rest` of what starts at `i`. -/
def advance (description : List Char) (i : Int) (rest : List Char) : Int :=
  toInt32 (i + ((description.drop i.toNat).length - rest.length : Nat))

/-- `if(schedule_description[i]==c) i++`, where `next` stands at `i`. -/
def skipAt (c next : Char) (i : Int) : Int := if next = c then toInt32 (i + 1) else i

/-- The loop over the values of one level. -/
def scanValues (description : List Char) (level : ScheduleLevel) (offset length : Nat) :
    Nat → Cursor → Except ScanStop Cursor
  | 0, _ => .error .running
  | fuel + 1, c =>
      (charAt description c.i).bind fun first ↦
        if first = ';' ∨ first = '\x00' then .ok c
        else
          -- `strtol` stops at the terminator at the latest
          match strtol (description.drop c.i.toNat) with
          | none => .error (.raised "Non numeric data in schedule offset")
          | some (v, rest) =>
              if v < 0 ∨ v ≥ length then .error (.raised "Out of range schedule offset")
              else
                (setAt c.schedule (offset + v.toNat)).bind fun schedule ↦
                  (charAt description (advance description c.i rest)).bind fun next ↦
                    scanValues description level offset length fuel
                      { i := skipAt ',' next (advance description c.i rest)
                        schedule
                        emptyLevel := false
                        minDay := if level = .day ∧ v.toNat < c.minDay then v.toNat else c.minDay }

/-- `for(int i=offset;i<offset+length;i++) schedule[i] = true`. -/
def fillValues (offset length : Nat) (schedule : List Bool) : Except ScanStop (List Bool) :=
  (List.range length).foldlM (fun schedule i ↦ setAt schedule (offset + i)) schedule

/-- The loop over the levels. -/
def scanLevels (description : List Char) (fuel : Nat) :
    List ScheduleLevel → Nat → Cursor → Except ScanStop Cursor
  | [], _, c => .ok c
  | level :: levels, offset, c =>
      (scanValues description level offset (getScheduleLength level) fuel c).bind fun c ↦
        (if c.emptyLevel then fillValues offset (getScheduleLength level) c.schedule
          else .ok c.schedule).bind fun schedule ↦
          (charAt description c.i).bind fun next ↦
            -- the next level starts as an empty one
            scanLevels description fuel levels (offset + getScheduleLength level)
              { i := skipAt ';' next c.i, schedule, emptyLevel := true, minDay := c.minDay }

/-- The constructor on a description in memory. -/
def scan (fuel : Nat) (description : List Char) : Except ScanStop Schedule :=
  (scanLevels description fuel ScheduleLevel.all 0
    { i := 0, schedule := List.replicate scheduleLength false, emptyLevel := true, minDay := 32 }).bind
    fun c ↦ (charAt description c.i).bind fun last ↦
      if last ≠ '\x00' then .error (.raised "Garbage at end of schedule")
      else if c.minDay = 29 ∧ monthsOver29.all (fun i ↦ !c.schedule[i]?.getD false) then
        .error (.raised "Schedule constraints are impossible to satisfy")
      else if c.minDay = 30 ∧ monthsOver30.all (fun i ↦ !c.schedule[i]?.getD false) then
        .error (.raised "Schedule constraints are impossible to satisfy")
      else .ok ⟨c.schedule⟩

/-! ## Within the description and the table -/

theorem strtol_suffix {cs : List Char} {v : Int} (h : strtol cs = some (v, rest)) : rest <:+ cs := by
  have hsign : ∀ ds : List Char, (readSign ds).2 <:+ ds := by
    intro ds
    unfold readSign
    split <;> simp
  unfold strtol at h
  dsimp only at h
  split at h
  · cases h
  · obtain ⟨-, rfl⟩ := Prod.mk.inj (Option.some.inj h)
    exact ((List.dropWhile_suffix _).trans (hsign _)).trans (List.dropWhile_suffix _)

theorem skip_suffix (c : Char) (rest : List Char) : skip c rest <:+ rest := by
  cases rest with
  | nil => exact List.suffix_refl _
  | cons d rest =>
    rw [skip]
    split
    · exact List.suffix_cons _ _
    · exact List.suffix_refl _

/-- The index at which the rest of the description starts. -/
def indexOf (description rest : List Char) : Nat := description.length - rest.length

theorem charAt_indexOf (h : rest <:+ description) :
    charAt description (indexOf description rest) = .ok (rest.head?.getD '\x00') := by
  obtain ⟨front, rfl⟩ := h
  have hindex : indexOf (front ++ rest) rest = front.length := by
    unfold indexOf
    rw [List.length_append]
    omega
  unfold charAt
  rw [if_neg (by omega), Int.toNat_natCast, hindex, List.append_assoc, List.getElem?_append_right (by omega)]
  cases rest <;> simp

theorem drop_indexOf (h : rest <:+ description) : description.drop (indexOf description rest) = rest :=
  (List.suffix_iff_eq_drop.mp h).symm

theorem toInt32_natCast {n : Nat} (h : n < 2 ^ 31) : toInt32 n = n := by
  unfold toInt32
  exact Int.bmod_eq_of_le (by omega) (by omega)

/-- To read some characters is to move the index by their number. -/
theorem advance_indexOf (h : rest <:+ description) (h' : rest' <:+ rest)
    (hlen : description.length < 2 ^ 31) :
    advance description (indexOf description rest) rest' = indexOf description rest' := by
  have hle := h.length_le
  have hle' := h'.length_le
  have hsum : (indexOf description rest : Int) + (rest.length - rest'.length : Nat) =
      (indexOf description rest' : Nat) := by
    unfold indexOf
    omega
  have hlt : indexOf description rest' < 2 ^ 31 := by
    unfold indexOf
    omega
  unfold advance
  rw [Int.toNat_natCast, drop_indexOf h, hsum, toInt32_natCast hlt]

/-- To skip a separator is to move the index past it. -/
theorem skipAt_indexOf {c : Char} (hc : c ≠ '\x00') (h : rest <:+ description)
    (hlen : description.length < 2 ^ 31) :
    skipAt c (rest.head?.getD '\x00') (indexOf description rest) = indexOf description (skip c rest) := by
  have hle := h.length_le
  unfold skipAt
  cases rest with
  | nil => rw [List.head?_nil, Option.getD_none, if_neg (Ne.symm hc), skip]
  | cons d rest =>
    rw [List.head?_cons, Option.getD_some, skip]
    by_cases hd : d = c
    · rw [if_pos hd, if_pos hd]
      unfold indexOf at *
      rw [List.length_cons] at *
      have hnext : ((description.length - (rest.length + 1) : Nat) : Int) + 1 =
          (description.length - rest.length : Nat) := by omega
      rw [hnext, toInt32_natCast (by omega)]
    · rw [if_neg hd, if_neg hd]

/-- The scanner at the place where the list of characters left is `s.rest`. -/
def Scan.cursor (description : List Char) (s : Scan) : Cursor :=
  { i := indexOf description s.rest, schedule := s.schedule, emptyLevel := s.emptyLevel, minDay := s.minDay }

theorem bind_ok {ε α β : Type} (a : α) (f : α → Except ε β) : (Except.ok a).bind f = f a := rfl

/-- With its index below 2^31 the scanner does what it does on the list of characters, and stays on it. -/
theorem scanValues_eq {s : Scan} (hnul : ∀ c ∈ description, c ≠ '\x00')
    (hlen : description.length < 2 ^ 31) (hrest : s.rest <:+ description)
    (htable : offset + length ≤ s.schedule.length) (hfuel : s.rest.length < fuel) :
    scanValues description level offset length fuel (s.cursor description) =
      ((scanLevel level offset length fuel s).mapError .raised).map (Scan.cursor description) := by
  induction fuel generalizing s with
  | zero => omega
  | succ fuel ih =>
    have hle := hrest.length_le
    unfold scanValues scanLevel
    have hindex : (s.cursor description).i = indexOf description s.rest := rfl
    -- no character of the description is the terminator
    have hend : (s.rest.head?.getD '\x00' = ';' ∨ s.rest.head?.getD '\x00' = '\x00') ↔
        (s.rest.head? = none ∨ s.rest.head? = some ';') := by
      cases hs : s.rest with
      | nil => simp
      | cons c tail =>
        have hc := hnul c (hrest.subset (hs ▸ List.mem_cons_self ..))
        simp [hc]
    rw [hindex, charAt_indexOf hrest, Int.toNat_natCast, drop_indexOf hrest, bind_ok]
    by_cases hstop : s.rest.head? = none ∨ s.rest.head? = some ';'
    · rw [if_pos (hend.mpr hstop), if_pos hstop]
      rfl
    · rw [if_neg (mt hend.mp hstop), if_neg hstop]
      cases hnumber : strtol s.rest with
      | none => rfl
      | some found =>
        rcases found with ⟨v, rest'⟩
        dsimp only
        by_cases hrange : v < 0 ∨ v ≥ length
        · rw [if_pos hrange, if_pos hrange]
          rfl
        · rw [if_neg hrange, if_neg hrange]
          have hsuffix := strtol_suffix hnumber
          have hlt := strtol_length_lt hnumber
          have hread : rest' <:+ description := hsuffix.trans hrest
          have hskip := skip_suffix ',' rest'
          have hle' := hskip.length_le
          have hset : setAt (s.cursor description).schedule (offset + v.toNat) =
              .ok (s.schedule.set (offset + v.toNat) true) := if_pos (by
            show offset + v.toNat < s.schedule.length
            omega)
          -- the index moves by the characters read, and past a comma
          rw [hset, bind_ok, advance_indexOf hrest hsuffix hlen, charAt_indexOf hread, bind_ok,
            skipAt_indexOf (by decide) hread hlen]
          have hset' : offset + length ≤ (s.schedule.set (offset + v.toNat) true).length := by
            rw [List.length_set]
            exact htable
          have hfuel' : (skip ',' rest').length < fuel := by omega
          exact ih (s := ⟨_, _, _, _⟩) (hskip.trans hread) hset' hfuel'

theorem fillValues_eq {a : List Bool} (h : offset + length ≤ a.length) :
    fillValues offset length a = .ok (fillLevel a offset length) := by
  induction length with
  | zero => rfl
  | succ length ih =>
    have hlen := (fillLevel_grows a offset length).1
    have hset : setAt (fillLevel a offset length) (offset + length) =
        .ok ((fillLevel a offset length).set (offset + length) true) := if_pos (by omega)
    have hfill := ih (by omega)
    unfold fillValues at hfill ⊢
    rw [List.range_succ, List.foldlM_append, hfill, fillLevel_succ]
    show ((Except.ok (fillLevel a offset length)).bind fun schedule ↦
      (setAt schedule (offset + length)).bind Except.ok) = _
    rw [bind_ok, hset, bind_ok]

theorem scanLevel_suffix {s s' : Scan} (h : scanLevel level offset length fuel s = .ok s') :
    s'.rest <:+ s.rest := by
  induction fuel generalizing s with
  | zero =>
    cases h
    exact List.suffix_refl _
  | succ fuel ih =>
    unfold scanLevel at h
    split at h
    · cases h
      exact List.suffix_refl _
    · split at h
      · cases h
      · rename_i v rest' hnumber
        split at h
        · cases h
        · exact ((ih h).trans (skip_suffix ',' rest')).trans (strtol_suffix hnumber)

theorem scanLevel_length {s s' : Scan} (h : scanLevel level offset length fuel s = .ok s') :
    s'.schedule.length = s.schedule.length := by
  refine scanLevel_induction (P := fun x ↦ x.schedule.length = s.schedule.length) ?_ h rfl
  intro x v rest hx _
  rw [List.length_set]
  exact hx

/-- Any number of rounds that is large enough does what as many as characters do. -/
theorem scanLevel_rounds {s : Scan} (h : s.rest.length ≤ fuel) :
    scanLevel level offset length fuel s = scanLevel level offset length s.rest.length s := by
  induction fuel, h using Nat.le_induction with
  | base => rfl
  | succ fuel h ih => rw [scanLevel_fuel h, ih]

/-- One round of the loop over the levels, and what it leaves of the description. -/
theorem scanLevels_eq {levels : List ScheduleLevel} {a : List Bool} (minDay : Nat)
    (hnul : ∀ c ∈ description, c ≠ '\x00') (hlen : description.length < 2 ^ 31)
    (hfuel : description.length < fuel) (hal : Aligned offset levels) (hrest : rest <:+ description)
    (htable : a.length = scheduleLength) :
    scanLevels description fuel levels offset ⟨indexOf description rest, a, true, minDay⟩ =
        ((parseLevels levels offset rest a minDay).mapError .raised).map
          (fun (rest, a, minDay) ↦ ⟨indexOf description rest, a, true, minDay⟩) ∧
      ∀ rest' b minDay', parseLevels levels offset rest a minDay = .ok (rest', b, minDay') →
        rest' <:+ description := by
  induction levels generalizing offset rest a minDay with
  | nil =>
    refine ⟨rfl, ?_⟩
    intro rest' b minDay' h
    cases h
    exact hrest
  | cons level levels ih =>
    obtain ⟨rfl, hal⟩ := hal
    have hend := level_end_le level
    have hle := hrest.length_le
    have hscan : scanValues description level (getScheduleOffset level) (getScheduleLength level) fuel
        (Scan.cursor description ⟨rest, a, true, minDay⟩) = _ :=
      scanValues_eq hnul hlen hrest (by rw [htable]; exact hend) (show rest.length < fuel by omega)
    rw [scanLevel_rounds (show rest.length ≤ fuel by omega)] at hscan
    unfold scanLevels parseLevels parseLevel
    rw [show (⟨indexOf description rest, a, true, minDay⟩ : Cursor) =
      Scan.cursor description ⟨rest, a, true, minDay⟩ from rfl, hscan]
    cases hlevel : scanLevel level (getScheduleOffset level) (getScheduleLength level) rest.length
        ⟨rest, a, true, minDay⟩ with
    | error msg => exact ⟨rfl, fun _ _ _ h ↦ by cases h⟩
    | ok s =>
      have hsuffix : s.rest <:+ description := (scanLevel_suffix hlevel).trans hrest
      have hlength : s.schedule.length = scheduleLength := (scanLevel_length hlevel).trans htable
      have hfill : (if s.emptyLevel then
          fillValues (getScheduleOffset level) (getScheduleLength level) s.schedule
          else Except.ok s.schedule) = .ok (if s.emptyLevel then
            fillLevel s.schedule (getScheduleOffset level) (getScheduleLength level)
            else s.schedule) := by
        split
        · exact fillValues_eq (by rw [hlength]; exact hend)
        · rfl
      have hfilled : (if s.emptyLevel then
          fillLevel s.schedule (getScheduleOffset level) (getScheduleLength level)
          else s.schedule).length = scheduleLength := by
        split
        · rw [← (fillLevel_grows _ _ _).1, hlength]
        · exact hlength
      simp only [Except.mapError, Except.map, Scan.cursor, bind_ok]
      rw [hfill, bind_ok, charAt_indexOf hsuffix, bind_ok, skipAt_indexOf (by decide) hsuffix hlen]
      exact ih _ hal ((skip_suffix ';' s.rest).trans hsuffix) hfilled

/-- On a description shorter than 2^31 bytes the scanner is the constructor. -/
theorem scan_eq {s : String} (hlen : (cString s).length < 2 ^ 31) (hfuel : (cString s).length < fuel) :
    scan fuel (cString s) = (create s).mapError .raised := by
  have hnul : ∀ c ∈ cString s, c ≠ '\x00' := by
    rintro c hc rfl
    have hnot := List.mem_takeWhile_imp hc
    simp at hnot
  have hal : Aligned 0 ScheduleLevel.all := by
    simp [Aligned, ScheduleLevel.all, getScheduleOffset, getScheduleLength]
  obtain ⟨hscan, hsuffix⟩ := scanLevels_eq 32 hnul hlen hfuel hal (List.suffix_refl _)
    (List.length_replicate (n := scheduleLength) (a := false))
  have hstart : indexOf (cString s) (cString s) = 0 := Nat.sub_self _
  rw [hstart, Nat.cast_zero] at hscan
  unfold scan create
  rw [hscan]
  cases hparse : parseLevels ScheduleLevel.all 0 (cString s) (List.replicate scheduleLength false) 32 with
  | error msg => rfl
  | ok out =>
    rcases out with ⟨rest, a, minDay⟩
    simp only [Except.mapError, Except.map, bind_ok]
    rw [charAt_indexOf (hsuffix rest a minDay hparse), bind_ok]
    have hrest : rest.head?.getD '\x00' ≠ '\x00' ↔ rest ≠ [] := by
      cases rest with
      | nil => simp
      | cons c tail =>
        have hc := hnul c ((hsuffix _ _ _ hparse).subset (List.mem_cons_self ..))
        simp [hc]
    by_cases hnil : rest ≠ []
    · rw [if_pos (hrest.mpr hnil), if_pos hnil]
    · rw [if_neg (mt hrest.mp hnil), if_neg hnil]
      split
      · rfl
      · split <;> rfl

theorem mem_intercalate {sep : List Char} {parts : List (List Char)} {c : Char}
    (h : c ∈ sep.intercalate parts) : c ∈ sep ∨ ∃ part ∈ parts, c ∈ part := by
  induction parts with
  | nil => simp at h
  | cons part parts ih =>
    cases parts with
    | nil =>
      rw [List.intercalate_singleton] at h
      exact .inr ⟨part, List.mem_cons_self .., h⟩
    | cons part' parts =>
      rw [List.intercalate_cons_cons, List.mem_append, List.mem_append] at h
      rcases h with (h | h) | h
      · exact .inr ⟨part, List.mem_cons_self .., h⟩
      · exact .inl h
      · rcases ih h with hsep | ⟨p, hp, hc⟩
        · exact .inl hsep
        · exact .inr ⟨p, List.mem_cons_of_mem _ hp, hc⟩

/-- A description of values holds digits, commas and semicolons only. -/
theorem render_nul {values : ScheduleValues} (hin : InRanges values) : ∀ c ∈ render values, c ≠ '\x00' := by
  rintro c hc rfl
  rcases mem_intercalate hc with hsep | ⟨part, hpart, hc⟩
  · revert hsep
    decide
  · obtain ⟨level, -, rfl⟩ := List.mem_map.mp hpart
    rcases mem_intercalate hc with hsep | ⟨digits, hdigits, hc⟩
    · revert hsep
      decide
    · obtain ⟨v, hv, rfl⟩ := List.mem_map.mp hdigits
      have hlt := hin level v hv
      have hlength := getScheduleLength_le level
      have hall := (decimal_toDigits v (by omega)).2.1
      have hdigit := List.all_eq_true.mp hall _ hc
      revert hdigit
      decide

theorem cString_ofList (hnul : ∀ c ∈ description, c ≠ '\x00') :
    cString (String.ofList description) = description := by
  unfold cString
  rw [String.toList_ofList, List.takeWhile_eq_self_iff]
  intro c hc
  have hne := hnul c hc
  have hzero : c.toNat ≠ 0 := by
    intro h0
    exact hne (Char.toNat_inj.mp h0)
  simpa using hzero

/-- Below 2^31 bytes: the description of six lists of values, in any order and with repetitions, makes
the schedule that allows on each level what is listed there and nothing else; and whatever the
description, the scanner ends, on a schedule or by an exception, inside its table and the description. -/
theorem scan_spec :
    (∀ values : ScheduleValues, InRanges values → values.Satisfiable → (render values).length < 2 ^ 31 →
      ∃ rounds s, (∀ fuel, rounds ≤ fuel → scan fuel (render values) = .ok s) ∧
        s.schedule.length = scheduleLength ∧
        ∀ level v, v < getScheduleLength level → (s.allows level v = true ↔ values.Lists level v)) ∧
    ∀ description : List Char, (∀ c ∈ description, c ≠ '\x00') → description.length < 2 ^ 31 →
      ∃ rounds result, ∀ fuel, rounds ≤ fuel → scan fuel description = Except.mapError .raised result := by
  have hends : ∀ description : List Char, (∀ c ∈ description, c ≠ '\x00') → description.length < 2 ^ 31 →
      ∀ fuel, description.length + 1 ≤ fuel →
        scan fuel description = (create (String.ofList description)).mapError .raised := by
    intro description hnul hlen fuel hfuel
    have hstring := cString_ofList hnul
    have hscan := scan_eq (s := String.ofList description) (by rwa [hstring])
      (show (cString (String.ofList description)).length < fuel by rw [hstring]; exact hfuel)
    rwa [hstring] at hscan
  refine ⟨?_, fun description hnul hlen ↦ ⟨_, _, hends description hnul hlen⟩⟩
  intro values hin hsat hlen
  have hnul := render_nul hin
  have hread : readValues (cString (String.ofList (render values))) = .ok values := by
    rw [cString_ofList hnul]
    exact readValues_render hin
  -- the values read make a schedule, as some date is on them
  rcases create_of_values hread with ⟨-, hcreate⟩ | ⟨hno, -⟩
  · refine ⟨(render values).length + 1, ⟨tableOf values⟩, ?_, length_tableOf hin, ?_⟩
    · intro fuel hfuel
      rw [hends _ hnul hlen fuel hfuel, hcreate]
      rfl
    · intro level v hv
      exact tableOf_allows hin hv
  · exact absurd hsat hno

/-- A quarter past four and past three, listed in that order, from Monday to Friday. -/
def quarterPast : ScheduleValues
  | .sec => [0]
  | .min => [15]
  | .hour => [4, 3]
  | .wday => [1, 2, 3, 4, 5]
  | _ => []

/-- The schedule of a list, and a description that ends too early. -/
theorem scan_quarterPast :
    (∃ rounds s, (∀ fuel, rounds ≤ fuel → scan fuel (render quarterPast) = .ok s) ∧
      s.schedule.length = scheduleLength ∧ ∀ level v, v < getScheduleLength level →
        (s.allows level v = true ↔ quarterPast.Lists level v)) ∧
    ∃ rounds result, ∀ fuel, rounds ≤ fuel → scan fuel ['7', ','] = Except.mapError .raised result := by
  refine ⟨scan_spec.1 quarterPast ?_ ?_ (by decide), scan_spec.2 ['7', ','] (by simp) (by decide)⟩
  · intro level
    cases level <;> decide
  · -- 1 January 1970 is a Thursday
    exact ⟨⟨1970, 0, 0⟩, ⟨by decide, by decide⟩, by decide, by decide, by decide⟩

/-! ## Descriptions of 2^32 bytes -/

theorem strtol_zeros {n : Nat} (h : 0 < n) : strtol (List.replicate n '0') = some (0, []) := by
  obtain ⟨n, rfl⟩ : ∃ m, n = m + 1 := ⟨n - 1, by omega⟩
  have hvalue : ∀ m : Nat,
      ((List.replicate m '0').foldl (fun n c ↦ n * 10 + (c.toNat - 48)) 0 : Int) = 0 := by
    intro m
    induction m with
    | zero => rfl
    | succ m ih =>
      rw [List.replicate_succ, List.foldl_cons]
      exact ih
  have hstart : readSign ((List.replicate (n + 1) '0').dropWhile isSpace) =
      (false, List.replicate (n + 1) '0') := by
    rw [List.replicate_succ, List.dropWhile_cons_of_neg (by decide)]
    rfl
  have hdigits : (List.replicate (n + 1) '0').takeWhile Char.isDigit = List.replicate (n + 1) '0' := by
    rw [List.takeWhile_eq_self_iff]
    intro c hc
    rw [List.eq_of_mem_replicate hc]
    decide
  have hrest : (List.replicate (n + 1) '0').dropWhile Char.isDigit = [] := by
    rw [List.dropWhile_eq_nil_iff]
    intro c hc
    rw [List.eq_of_mem_replicate hc]
    decide
  unfold strtol
  rw [hstart]
  dsimp only
  rw [hdigits, hrest, hvalue, if_neg (by rw [List.replicate_succ]; exact List.cons_ne_nil _ _)]
  rfl

/-- Where the number of zeros is lost in the index, the scanner stands where it was. -/
theorem scanValues_zeros {n : Nat} (hpos : 0 < n) (hwrap : toInt32 n = 0) {c : Cursor} (hi : c.i = 0)
    (htable : c.schedule.length = scheduleLength) :
    scanValues (List.replicate n '0') .sec 0 60 fuel c = .error .running := by
  induction fuel generalizing c with
  | zero => rfl
  | succ fuel ih =>
    have hfirst : charAt (List.replicate n '0') 0 = .ok '0' := by
      obtain ⟨n, rfl⟩ : ∃ m, n = m + 1 := ⟨n - 1, by omega⟩
      rfl
    have hadvance : advance (List.replicate n '0') 0 [] = 0 := by
      unfold advance
      rw [Int.toNat_zero, List.drop_zero, List.length_replicate, List.length_nil, Nat.sub_zero, zero_add]
      exact hwrap
    have hset : setAt c.schedule (0 + (0 : Int).toNat) = .ok (c.schedule.set 0 true) := if_pos (by
      rw [htable]
      decide)
    unfold scanValues
    rw [hi, hfirst, bind_ok, if_neg (by decide), Int.toNat_zero, List.drop_zero, strtol_zeros hpos]
    dsimp only
    rw [if_neg (by decide), hset, bind_ok, hadvance, hfirst, bind_ok]
    apply ih
    · rfl
    · rw [List.length_set]
      exact htable

/-- 2^32 zeros: the scanner reads them again and again. -/
theorem scan_zeros : (∀ c ∈ List.replicate (2 ^ 32) '0', c ≠ '\x00') ∧
    ∀ fuel, scan fuel (List.replicate (2 ^ 32) '0') = .error .running := by
  refine ⟨?_, ?_⟩
  · intro c hc
    rw [List.eq_of_mem_replicate hc]
    decide
  · intro fuel
    have hwrap : toInt32 ((2 ^ 32 : Nat) : Int) = 0 := by decide
    have hvalues : scanValues _ .sec 0 60 fuel ⟨0, List.replicate scheduleLength false, true, 32⟩ = _ :=
      scanValues_zeros (Nat.two_pow_pos 32) hwrap rfl List.length_replicate
    unfold scan ScheduleLevel.all scanLevels
    rw [show getScheduleLength .sec = 60 from rfl, hvalues]
    rfl

end Schedule

end EvQueue
