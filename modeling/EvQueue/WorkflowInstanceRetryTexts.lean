import EvQueue.SavedWorkflow
import EvQueue.WorkflowInstanceRetries

/-!
# WorkflowInstanceRetryTexts — the retry attributes as the document has them

The document holds texts.  `retry_task` and `schedule_update` read them with `parseInt`, which raises when a
text is no number, and cuts a number to an `int`; an exception leaves `TaskStop` with the mutex of the
instance locked.  Where nothing is raised they do what `TaskNode.retry` does with the numbers that are read.
-/

namespace EvQueue

/-! ## Numbers -/

namespace SavedWorkflow

theorem isBlank_of_isDigit {c : Char} (h : c.isDigit = true) : isBlank c = false := by
  apply decide_eq_false
  rintro (rfl | rfl | rfl | rfl) <;> cases h

theorem parseDigits_eq {cs : List Char} (h : ∀ c ∈ cs, c.isDigit = true) (n : Nat) :
    parseDigits n cs = some (Nat.ofDigitChars 10 cs n) := by
  induction cs generalizing n with
  | nil => rfl
  | cons c cs ih =>
    unfold parseDigits
    rw [if_pos (h c List.mem_cons_self), ih fun c hc ↦ h c (List.mem_cons_of_mem _ hc),
      Nat.ofDigitChars_cons]

theorem parseUnsigned_toDigits (n : Nat) : parseUnsigned (Nat.toDigits 10 n) = some n := by
  have hdigits : ∀ c ∈ Nat.toDigits 10 n, c.isDigit = true :=
    fun c hc ↦ Nat.isDigit_of_mem_toDigits (by decide) (by decide) hc
  have hparse := parseDigits_eq hdigits 0
  rw [Nat.ofDigitChars_ten_toDigits] at hparse
  cases hcs : Nat.toDigits 10 n with
  | nil => exact absurd hcs Nat.toDigits_ne_nil
  | cons c cs =>
    rw [hcs] at hparse
    exact hparse

/-- Text without blanks is not trimmed. -/
theorem trim_of_noBlank {cs : List Char} (h : ∀ c ∈ cs, isBlank c = false) :
    ((cs.dropWhile isBlank).reverse.dropWhile isBlank).reverse = cs := by
  have hself : ∀ {cs : List Char}, (∀ c ∈ cs, isBlank c = false) → cs.dropWhile isBlank = cs := by
    intro cs h
    cases cs with
    | nil => rfl
    | cons c cs => exact List.dropWhile_cons_of_neg (by rw [h c List.mem_cons_self]; exact Bool.false_ne_true)
  rw [hself h, hself fun c hc ↦ h c (List.mem_reverse.mp hc), List.reverse_reverse]

/-- What `%d` writes is read back. -/
theorem parseInt_toString {n : Int} (h : -2 ^ 31 ≤ n ∧ n < 2 ^ 31) : parseInt (toString n) = some n := by
  have hlong : ((some n).filter fun n ↦ -2 ^ 63 ≤ n ∧ n < 2 ^ 63).map (fun n ↦ n.bmod (2 ^ 32)) = some n := by
    rw [Option.filter_some, if_pos (by simp only [Bool.decide_and, Bool.and_eq_true, decide_eq_true_eq]; omega),
      Option.map_some, Int.bmod_eq_of_le (by omega) (by omega)]
  have hdigit : ∀ m : Nat, ∀ c ∈ Nat.toDigits 10 m, c.isDigit = true :=
    fun m c hc ↦ Nat.isDigit_of_mem_toDigits (by decide) (by decide) hc
  have hblank : ∀ m : Nat, ∀ c ∈ Nat.toDigits 10 m, isBlank c = false :=
    fun m c hc ↦ isBlank_of_isDigit (hdigit m c hc)
  cases n with
  | ofNat m =>
    have hlist : (toString (Int.ofNat m)).toList = Nat.toDigits 10 m := Nat.toList_repr
    unfold parseInt
    rw [hlist, trim_of_noBlank (hblank m)]
    have hall := hdigit m
    have hdigits := parseUnsigned_toDigits m
    dsimp only
    split
    · rename_i hcs
      exact absurd (hall '-' (hcs ▸ List.mem_cons_self)) (by decide)
    · rename_i hcs
      exact absurd (hall '+' (hcs ▸ List.mem_cons_self)) (by decide)
    · rw [hdigits]
      exact hlong
  | negSucc m =>
    have hlist : (toString (Int.negSucc m)).toList = '-' :: Nat.toDigits 10 (m + 1) := by
      show ("-" ++ (m + 1).repr).toList = _
      rw [String.toList_append, Nat.toList_repr]
      rfl
    unfold parseInt
    rw [hlist, trim_of_noBlank]
    · simp only [parseUnsigned_toDigits]
      exact hlong
    · intro c hc
      rcases List.mem_cons.mp hc with rfl | hc
      · decide
      · exact hblank _ c hc

theorem parseInt_range {s : String} {n : Int} (h : parseInt s = some n) : -2 ^ 31 ≤ n ∧ n < 2 ^ 31 := by
  unfold parseInt at h
  rcases Option.map_eq_some_iff.mp h with ⟨long, -, rfl⟩
  exact ⟨Int.le_bmod (by decide), Int.bmod_lt (by decide)⟩

end SavedWorkflow

open SavedWorkflow

variable {Node : Type}

/-- The attributes of a task that `retry_task` reads, but for `retval`. -/
structure RetryTexts where
  retrySchedule : Option String
  retryScheduleLevel : Option String
  retryDelay : Option String
  retryTimes : Option String
  retryRetval : Option String
deriving DecidableEq

/-- What comes of a call of `retry_task`. -/
inductive RetryOutcome where
  | exhausted
  | passedOver
  /-- A retry is planned, so many seconds ahead. -/
  | planned (delay : Int)
deriving DecidableEq, Repr

/-- What a call of `retry_task` meets with besides the document. -/
structure RetryCall where
  /-- The variables `retry_delay` and `retry_times` before they are set. -/
  uninitialised : Int32 × Int32
  /-- The warning of the first and of the second `schedule_update`, about an unknown schedule, is logged;
  `Logger::Log` may raise. -/
  logged : Bool × Bool

def RetryCall.unset (c : RetryCall) : Int × Int := (c.uninitialised.1.toInt, c.uninitialised.2.toInt)

/-- The name of a schedule fits into the XPath expression, in which it is quoted, and into its buffer. -/
def Quotable (scheduleName : String) : Prop :=
  Char.ofNat 39 ∉ scheduleName.toList ∧ scheduleName.utf8ByteSize < 228

instance (scheduleName : String) : Decidable (Quotable scheduleName) :=
  inferInstanceAs (Decidable (_ ∧ _))

namespace RetryTexts

/-! ## The calls

`none` is a call that does not come back: something has raised, a level below the first one was asked for, of
which there is no node, or a buffer or an `int` was left at its end. -/

variable (c : RetryCall) (logged : Bool) (schedules : String → Option (List (String × String)))

/-- `retry_schedule_level`; 0 where it is not there. -/
def scheduleLevel (a : RetryTexts) : Option Int :=
  match a.retryScheduleLevel with
  | none => some 0
  | some text => parseInt text

def scheduleUpdate (a : RetryTexts) (scheduleName : String) (retry : Int × Int) :
    Option (RetryTexts × Int × Int) :=
  if ¬Quotable scheduleName then none
  else
    match schedules scheduleName with
    | none => if logged then some (a, retry) else none
    | some levels =>
        -- the levels are counted in an `int`
        if 2 ^ 31 ≤ levels.length then none
        else
          a.scheduleLevel.bind fun level ↦
            if level < 0 ∨ level = 2 ^ 31 - 1 then none
            else
              let a := { a with retryScheduleLevel := some (toString (level + 1)) }
              match levels[level.toNat]? with
              | none => some (a, 0, 0)
              | some (retryDelay, retryTimes) =>
                  let a := { a with
                    retryDelay := some retryDelay
                    retryTimes := some retryTimes }
                  (parseInt retryDelay).bind fun delay ↦ (parseInt retryTimes).map fun times ↦ (a, delay, times)

/-- The attributes of these names, where both are there. -/
def retryAttributes (a : RetryTexts) : Option (Option (Int × Int)) :=
  match a.retryDelay with
  | none => some none
  | some retryDelay =>
      (parseInt retryDelay).bind fun delay ↦
        match a.retryTimes with
        | none => some none
        | some retryTimes => (parseInt retryTimes).map fun times ↦ some (delay, times)

def retryParameters (a : RetryTexts) : Option (Option (RetryTexts × Int × Int)) :=
  a.scheduleLevel.bind fun level ↦
    match a.retrySchedule, decide (level = 0) with
    | some scheduleName, true => (a.scheduleUpdate c.logged.1 schedules scheduleName c.unset).map some
    | _, _ => a.retryAttributes.map (Option.map fun retry ↦ (a, retry))

def nextLevel (a : RetryTexts) (retry : Int × Int) : Option (RetryTexts × Int × Int) :=
  match a.retrySchedule with
  | some scheduleName =>
    if retry.2 = 0 then a.scheduleUpdate c.logged.2 schedules scheduleName retry else some (a, retry)
  | none => some (a, retry)

/-- `retry_retval` asks for another return value; there is none to compare when the task has no `retval`. -/
def refuses (a : RetryTexts) (retval : Option Int) : Option Bool :=
  match a.retryRetval with
  | none => some false
  | some text => (parseInt text).bind fun wanted ↦ retval.map fun retval ↦ decide (wanted ≠ retval)

/-- The attributes behind `retry_task`, and what came of the call.  `retval` is read as it was written, with
`%d`. -/
def retry (a : RetryTexts) (retval : Option Int) : Option (RetryTexts × RetryOutcome) :=
  (a.retryParameters c schedules).bind fun parameters ↦
    match parameters with
    | none => some (a, .exhausted)
    | some (a, retry) =>
        (a.nextLevel c schedules retry).bind fun (a, retryDelay, retryTimes) ↦
          if retryDelay = 0 ∨ retryTimes = 0 then some (a, .exhausted)
          else
            (a.refuses retval).bind fun refused ↦
              if refused then some (a, .passedOver)
              else if retryTimes = -2 ^ 31 then none
              else some ({ a with retryTimes := some (toString (retryTimes - 1)) }, .planned retryDelay)

/-! ## The numbers that are read -/

end RetryTexts

/-- The number that a text is read as. -/
def number (text : String) : Int := (parseInt text).getD 0

/-- The parameters of a level. -/
def readLevel (level : String × String) : Int × Int := (number level.1, number level.2)

def readSchedules (schedules : String → Option (List (String × String))) (name : String) :
    Option (List (Int × Int)) :=
  (schedules name).map (List.map readLevel)

namespace RetryTexts

/-- The task with these attributes.  A level below the first one is none at which a task begins. -/
def read (a : RetryTexts) (t : TaskNode Node) : TaskNode Node :=
  { t with
    retrySchedule := a.retrySchedule
    retryScheduleLevel := a.retryScheduleLevel.map fun text ↦ (number text).natAbs
    retryDelay := a.retryDelay.map number
    retryTimes := a.retryTimes.map number
    retryRetval := a.retryRetval.map number }

end RetryTexts

/-- The outcome without the delay. -/
def RetryOutcome.kind : RetryOutcome → Retry
  | .exhausted => .exhausted
  | .passedOver => .passedOver
  | .planned _ => .planned

def RetryOutcome.delay? : RetryOutcome → Option Int
  | .planned delay => some delay
  | _ => none

theorem number_of_parseInt {text : String} {n : Int} (h : parseInt text = some n) : number text = n := by
  unfold number
  rw [h, Option.getD_some]

namespace RetryTexts

variable {c : RetryCall} {logged : Bool} {schedules : String → Option (List (String × String))}
variable {a a' : RetryTexts} {t : TaskNode Node} {retry retry' : Int × Int} {name : String} {level : Int}

theorem scheduleLevel_range (h : a.scheduleLevel = some level) : -2 ^ 31 ≤ level ∧ level < 2 ^ 31 := by
  unfold scheduleLevel at h
  cases hlevel : a.retryScheduleLevel with
  | none =>
    rw [hlevel, Option.some.injEq] at h
    omega
  | some text =>
    rw [hlevel] at h
    exact parseInt_range h

theorem getD_read (h : a.scheduleLevel = some level) (t : TaskNode Node) :
    (a.read t).retryScheduleLevel.getD 0 = level.natAbs := by
  unfold scheduleLevel at h
  unfold read
  cases hlevel : a.retryScheduleLevel with
  | none =>
    rw [hlevel, Option.some.injEq] at h
    rw [← h]
    rfl
  | some text =>
    rw [hlevel] at h
    show (number text).natAbs = _
    rw [number_of_parseInt h]

/-- What a call of `schedule_update` that comes back has done. -/
inductive Updates (logged : Bool) (schedules : String → Option (List (String × String))) (name : String)
    (retry : Int × Int) (a : RetryTexts) : RetryTexts → Int × Int → Prop
  | unknown (hunknown : schedules name = none) (hlogged : logged = true) :
      Updates logged schedules name retry a a retry
  /-- It is behind the last level. -/
  | behind {levels : List (String × String)} {level : Int} (hknown : schedules name = some levels)
      (hcount : levels.length < 2 ^ 31) (hlevel : a.scheduleLevel = some level)
      (hrange : 0 ≤ level ∧ level ≠ 2 ^ 31 - 1) (hbehind : levels[level.toNat]? = none) :
      Updates logged schedules name retry a { a with retryScheduleLevel := some (toString (level + 1)) } (0, 0)
  | taken {levels : List (String × String)} {retryDelay retryTimes : String} {level delay times : Int}
      (hknown : schedules name = some levels) (hcount : levels.length < 2 ^ 31)
      (hlevel : a.scheduleLevel = some level) (hrange : 0 ≤ level ∧ level ≠ 2 ^ 31 - 1)
      (htaken : levels[level.toNat]? = some (retryDelay, retryTimes))
      (hdelay : parseInt retryDelay = some delay) (htimes : parseInt retryTimes = some times) :
      Updates logged schedules name retry a
        { a with
          retryScheduleLevel := some (toString (level + 1))
          retryDelay := some retryDelay
          retryTimes := some retryTimes } (delay, times)

theorem scheduleUpdate_iff : a.scheduleUpdate logged schedules name retry = some (a', retry') ↔
    Quotable name ∧ Updates logged schedules name retry a a' retry' := by
  unfold scheduleUpdate
  constructor
  · intro h
    split at h
    · cases h
    rename_i hquotable
    rw [not_not] at hquotable
    refine ⟨hquotable, ?_⟩
    cases hknown : schedules name with
    | none =>
      rw [hknown] at h
      dsimp only at h
      split at h
      · rename_i hlogged
        cases h
        exact .unknown hknown hlogged
      · cases h
    | some levels =>
      rw [hknown] at h
      dsimp only at h
      split at h
      · cases h
      rename_i hcount
      rw [Nat.not_le] at hcount
      -- the level is parsed and counted on, unless it is negative or `INT_MAX`
      rcases Option.bind_eq_some_iff.mp h with ⟨level, hlevel, h⟩
      split at h
      · cases h
      rename_i hinside
      have hrange : 0 ≤ level ∧ level ≠ 2 ^ 31 - 1 := by omega
      cases htaken : levels[level.toNat]? with
      | none =>
        rw [htaken] at h
        cases h
        exact .behind hknown hcount hlevel hrange htaken
      | some taken =>
        rw [htaken] at h
        rcases Option.bind_eq_some_iff.mp h with ⟨delay, hdelay, h⟩
        rcases Option.map_eq_some_iff.mp h with ⟨times, htimes, h⟩
        cases h
        exact .taken hknown hcount hlevel hrange htaken hdelay htimes
  · rintro ⟨hquotable, h⟩
    rw [if_neg (not_not.mpr hquotable)]
    cases h with
    | unknown hunknown hlogged =>
      rw [hunknown]
      exact if_pos hlogged
    | behind hknown hcount hlevel hrange hbehind =>
      rw [hknown]
      dsimp only
      rw [if_neg (Nat.not_le.mpr hcount), hlevel, Option.bind_some, if_neg (by omega), hbehind]
    | taken hknown hcount hlevel hrange htaken hdelay htimes =>
      rw [hknown]
      dsimp only
      rw [if_neg (Nat.not_le.mpr hcount), hlevel, Option.bind_some, if_neg (by omega), htaken]
      dsimp only
      rw [hdelay, htimes]
      rfl

theorem scheduleUpdate_read (h : a.scheduleUpdate logged schedules name retry = some (a', retry'))
    (t : TaskNode Node) :
    (a.read t).scheduleUpdate (readSchedules schedules) name retry = (a'.read t, retry') := by
  -- the next level is written, and read again
  have hcurrent {level : Int} (hlevel : a.scheduleLevel = some level) (hrange : 0 ≤ level ∧ level ≠ 2 ^ 31 - 1) :
      (number (toString (level + 1))).natAbs = (a.read t).retryScheduleLevel.getD 0 + 1 ∧
        (a.read t).retryScheduleLevel.getD 0 = level.toNat := by
    have hint := scheduleLevel_range hlevel
    rw [number_of_parseInt (parseInt_toString (by omega)), getD_read hlevel]
    omega
  unfold TaskNode.scheduleUpdate readSchedules
  cases (scheduleUpdate_iff.mp h).2 with
  | unknown hunknown => rw [hunknown, Option.map_none]
  | behind hknown _ hlevel hrange hbehind =>
    obtain ⟨hnumber, hat⟩ := hcurrent hlevel hrange
    rw [hknown]
    dsimp only [Option.map_some]
    rw [Nat.add_sub_cancel, List.getElem?_map, hat, hbehind]
    dsimp only [Option.map_none, read, Option.map_some]
    rw [hnumber, hat]
  | taken hknown _ hlevel hrange htaken hdelay htimes =>
    obtain ⟨hnumber, hat⟩ := hcurrent hlevel hrange
    rw [hknown]
    dsimp only [Option.map_some]
    rw [Nat.add_sub_cancel, List.getElem?_map, hat, htaken]
    dsimp only [Option.map_some, read, readLevel]
    rw [hnumber, hat, number_of_parseInt hdelay, number_of_parseInt htimes]

theorem nextLevel_read (h : a.nextLevel c schedules retry = some (a', retry')) (t : TaskNode Node) :
    (a.read t).nextLevel (readSchedules schedules) retry = (a'.read t, retry') := by
  unfold nextLevel at h
  unfold TaskNode.nextLevel
  show (match a.retrySchedule with | some name => _ | none => _) = _
  cases hschedule : a.retrySchedule with
  | none =>
    rw [hschedule, Option.some.injEq, Prod.mk.injEq] at h
    rw [← h.1, ← h.2]
  | some name =>
    rw [hschedule] at h
    dsimp only at h ⊢
    split at h
    · rename_i hspent
      rw [if_pos hspent]
      exact scheduleUpdate_read h t
    · rename_i hleft
      rw [if_neg hleft]
      rw [Option.some.injEq, Prod.mk.injEq] at h
      rw [← h.1, ← h.2]

theorem retryAttributes_read {found : Option (Int × Int)} (h : a.retryAttributes = some found)
    (t : TaskNode Node) :
    ((a.read t).retryDelay.bind fun delay ↦ (a.read t).retryTimes.map fun times ↦
      (a.read t, delay, times)) = found.map fun retry ↦ (a.read t, retry) := by
  unfold retryAttributes at h
  unfold read
  dsimp only
  cases hdelay : a.retryDelay with
  | none =>
    rw [hdelay, Option.some.injEq] at h
    rw [← h]
    rfl
  | some delay =>
    rw [hdelay] at h
    rcases Option.bind_eq_some_iff.mp h with ⟨n, hn, h⟩
    cases htimes : a.retryTimes with
    | none =>
      rw [htimes, Option.some.injEq] at h
      rw [← h]
      rfl
    | some times =>
      rw [htimes] at h
      rcases Option.map_eq_some_iff.mp h with ⟨m, hm, h⟩
      rw [← h]
      rw [Option.map_some, Option.map_some, Option.bind_some, Option.map_some, Option.map_some,
        number_of_parseInt hn, number_of_parseInt hm]

theorem retryParameters_read {found : Option (RetryTexts × Int × Int)}
    (h : a.retryParameters c schedules = some found) (t : TaskNode Node) :
    (a.read t).retryParameters c.unset (readSchedules schedules) =
      found.map fun f ↦ (f.1.read t, f.2) := by
  unfold retryParameters at h
  rcases Option.bind_eq_some_iff.mp h with ⟨level, hlevel, h⟩
  have hgetD := getD_read hlevel t
  have hattributes (hbegun : a.retrySchedule = none ∨ level ≠ 0)
      (h : a.retryAttributes.map (Option.map fun retry ↦ (a, retry)) = some found) :
      (a.read t).retryParameters c.unset (readSchedules schedules) =
        found.map fun f ↦ (f.1.read t, f.2) := by
    rcases Option.map_eq_some_iff.mp h with ⟨attributes, hattributes, heq⟩
    have hbegun' : (a.read t).retrySchedule = none ∨ (a.read t).retryScheduleLevel.getD 0 ≠ 0 := by
      rw [hgetD]
      exact hbegun.imp_right fun hne ↦ by omega
    rw [TaskNode.retryParameters_attributes hbegun', retryAttributes_read hattributes t, ← heq]
    cases attributes <;> rfl
  cases hschedule : a.retrySchedule with
  | none =>
    rw [hschedule] at h
    exact hattributes (.inl hschedule) h
  | some name =>
    rw [hschedule] at h
    by_cases hfresh : level = 0
    · rw [decide_eq_true hfresh] at h
      rw [hfresh] at hgetD
      rcases Option.map_eq_some_iff.mp h with ⟨⟨a', retry⟩, hupdate, heq⟩
      have hname : (a.read t).retrySchedule = some name := hschedule
      rw [TaskNode.retryParameters_fresh hname hgetD, ← heq]
      exact congrArg some (scheduleUpdate_read hupdate t)
    · rw [decide_eq_false hfresh] at h
      exact hattributes (.inr hfresh) h

theorem refuses_read {refused : Bool} (h : a.refuses t.retval = some refused) :
    refused = true ↔ (a.read t).retryRetval.isSome ∧ (a.read t).retryRetval ≠ (a.read t).retval := by
  unfold refuses at h
  unfold read
  dsimp only
  cases hwanted : a.retryRetval with
  | none =>
    rw [hwanted, Option.some.injEq] at h
    rw [← h]
    simp
  | some text =>
    rw [hwanted] at h
    rcases Option.bind_eq_some_iff.mp h with ⟨wanted, hread, h⟩
    rcases Option.map_eq_some_iff.mp h with ⟨retval, hretval, h⟩
    rw [← h, hretval]
    simp [number_of_parseInt hread]

/-- `retry_times` is an `int`. -/
theorem scheduleUpdate_range (h : a.scheduleUpdate logged schedules name retry = some (a', retry'))
    (hrange : -2 ^ 31 ≤ retry.2 ∧ retry.2 < 2 ^ 31) : -2 ^ 31 ≤ retry'.2 ∧ retry'.2 < 2 ^ 31 := by
  cases (scheduleUpdate_iff.mp h).2 with
  | unknown => exact hrange
  | behind => decide
  | taken _ _ _ _ _ _ htimes => exact parseInt_range htimes

theorem retryParameters_range (h : a.retryParameters c schedules = some (some (a', retry))) :
    -2 ^ 31 ≤ retry.2 ∧ retry.2 < 2 ^ 31 := by
  have hattributes (h : a.retryAttributes.map (Option.map fun retry ↦ (a, retry)) = some (some (a', retry))) :
      -2 ^ 31 ≤ retry.2 ∧ retry.2 < 2 ^ 31 := by
    rcases Option.map_eq_some_iff.mp h with ⟨attributes, hattributes, h⟩
    rcases Option.map_eq_some_iff.mp h with ⟨retry', hretry, h⟩
    rw [Prod.mk.injEq] at h
    rw [hretry] at hattributes
    unfold retryAttributes at hattributes
    cases hdelay : a.retryDelay with
    | none =>
      rw [hdelay] at hattributes
      cases hattributes
    | some delay =>
      rw [hdelay] at hattributes
      rcases Option.bind_eq_some_iff.mp hattributes with ⟨n, -, hattributes⟩
      cases htimes : a.retryTimes with
      | none =>
        rw [htimes] at hattributes
        cases hattributes
      | some times =>
        rw [htimes] at hattributes
        rcases Option.map_eq_some_iff.mp hattributes with ⟨m, hm, heq⟩
        rw [Option.some.injEq] at heq
        rw [← h.2, ← heq]
        exact parseInt_range hm
  unfold retryParameters at h
  rcases Option.bind_eq_some_iff.mp h with ⟨level, -, h⟩
  split at h
  · rcases Option.map_eq_some_iff.mp h with ⟨⟨a'', retry'⟩, hupdate, heq⟩
    rw [Option.some.injEq, Prod.mk.injEq] at heq
    rw [← heq.2]
    apply scheduleUpdate_range hupdate
    exact ⟨c.uninitialised.2.le_toInt, c.uninitialised.2.toInt_lt⟩
  · exact hattributes h

theorem nextLevel_range (h : a.nextLevel c schedules retry = some (a', retry'))
    (hrange : -2 ^ 31 ≤ retry.2 ∧ retry.2 < 2 ^ 31) : -2 ^ 31 ≤ retry'.2 ∧ retry'.2 < 2 ^ 31 := by
  unfold nextLevel at h
  split at h
  · split at h
    · exact scheduleUpdate_range h hrange
    · rw [Option.some.injEq, Prod.mk.injEq] at h
      rw [← h.2]
      exact hrange
  · rw [Option.some.injEq, Prod.mk.injEq] at h
    rw [← h.2]
    exact hrange

/-- **Where a call comes back, it does with the texts what `TaskNode.retry` does with the numbers.** -/
theorem retry_read {outcome : RetryOutcome} {t : TaskNode Node}
    (h : a.retry c schedules t.retval = some (a', outcome)) :
    (a.read t).retry c.unset (readSchedules schedules) = (a'.read t, outcome.kind) ∧
      (a.read t).plan c.unset (readSchedules schedules) = outcome.delay? := by
  unfold RetryTexts.retry at h
  unfold TaskNode.retry TaskNode.plan
  rcases Option.bind_eq_some_iff.mp h with ⟨found, hparameters, h⟩
  rw [retryParameters_read hparameters t]
  cases found with
  | none =>
    rw [Option.some.injEq, Prod.mk.injEq] at h
    rw [← h.1, ← h.2]
    exact ⟨rfl, rfl⟩
  | some found =>
    rcases found with ⟨a₁, retry⟩
    rcases Option.bind_eq_some_iff.mp h with ⟨⟨a₂, delay, times⟩, hnext, h⟩
    dsimp only [Option.map_some]
    rw [nextLevel_read hnext t]
    dsimp only at h ⊢
    by_cases hend : delay = 0 ∨ times = 0
    · rw [if_pos hend, Option.some.injEq, Prod.mk.injEq] at h
      rw [if_pos hend, if_pos hend, ← h.1, ← h.2]
      exact ⟨rfl, rfl⟩
    · rw [if_neg hend] at h
      rw [if_neg hend, if_neg hend]
      rcases Option.bind_eq_some_iff.mp h with ⟨refused, hrefused, h⟩
      have hfilter := refuses_read hrefused
      cases refused with
      | true =>
        rw [if_pos rfl, Option.some.injEq, Prod.mk.injEq] at h
        rw [if_pos (hfilter.mp rfl), if_pos (hfilter.mp rfl), ← h.1, ← h.2]
        exact ⟨rfl, rfl⟩
      | false =>
        have hno := fun hyes ↦ Bool.false_ne_true (hfilter.mpr hyes)
        rw [if_neg Bool.false_ne_true] at h
        rw [if_neg hno, if_neg hno]
        split at h
        · cases h
        · rename_i hleast
          have hrange := nextLevel_range hnext (retryParameters_range hparameters)
          dsimp only at hrange
          rw [Option.some.injEq, Prod.mk.injEq] at h
          rw [← h.1, ← h.2]
          refine ⟨?_, rfl⟩
          dsimp only [read, Option.map_some, RetryOutcome.kind]
          rw [number_of_parseInt (parseInt_toString (by omega))]

/-! ## Calls that come back -/

/-- The texts of a delay and of times that are not negative. -/
def Parsed (level : String × String) : Prop :=
  (∃ delay, parseInt level.1 = some delay) ∧ ∃ times, parseInt level.2 = some times ∧ 0 ≤ times

/-- A schedule that the document has, whose levels can be read and counted. -/
structure Listed (schedules : String → Option (List (String × String))) (name : String)
    (levels : List (String × String)) : Prop where
  quotable : Quotable name
  known : schedules name = some levels
  count : levels.length + 1 < 2 ^ 31
  parsed : ∀ l ∈ levels, Parsed l

/-- The task is at a level of its schedule, or has none. -/
def Begun (a : RetryTexts) : Prop := a.retrySchedule = none ∨ a.scheduleLevel ≠ some 0

/-- What a call needs to come back: the texts that it reads are numbers, and the task is at no level yet, at
one of its schedule, or without a schedule. -/
structure Ready (schedules : String → Option (List (String × String))) (a : RetryTexts) : Prop where
  retval : a.retryRetval = none
  schedule : ∀ name, a.retrySchedule = some name → ∃ levels, Listed schedules name levels
  level : ∃ level, a.scheduleLevel = some level ∧
    ∀ name levels, a.retrySchedule = some name → schedules name = some levels →
      0 ≤ level ∧ level ≤ levels.length
  attributes : a.Begun →
    ∃ delay times, a.retryDelay = some delay ∧ a.retryTimes = some times ∧ Parsed (delay, times)

/-- The times that a call has read are not negative, and while there are any the task is ready. -/
structure Left (schedules : String → Option (List (String × String))) (a : RetryTexts) (retry : Int × Int) :
    Prop where
  times : 0 ≤ retry.2 ∧ retry.2 < 2 ^ 31
  ready : retry.2 ≠ 0 → a.Ready schedules ∧ a.Begun

theorem scheduleLevel_toString (hlevel : -2 ^ 31 ≤ level ∧ level < 2 ^ 31)
    (ha : a.retryScheduleLevel = some (toString level)) : a.scheduleLevel = some level := by
  unfold scheduleLevel
  rw [ha]
  exact parseInt_toString hlevel

/-- The level behind the one of the task is taken, if there is one. -/
theorem scheduleUpdate_left {levels : List (String × String)} (hlisted : Listed schedules name levels)
    (hschedule : a.retrySchedule = some name) (hretval : a.retryRetval = none)
    (hlevel : a.scheduleLevel = some level) (hrange : 0 ≤ level ∧ level ≠ 2 ^ 31 - 1) (logged : Bool)
    (retry : Int × Int) :
    ∃ a' retry', a.scheduleUpdate logged schedules name retry = some (a', retry') ∧
      a'.retrySchedule = some name ∧ a'.retryRetval = none ∧ a'.scheduleLevel = some (level + 1) ∧
      Left schedules a' retry' := by
  have hint := scheduleLevel_range hlevel
  have hfits : levels.length < 2 ^ 31 := Nat.lt_of_succ_lt hlisted.count
  cases hnext : levels[level.toNat]? with
  | none =>
    have hwritten := scheduleLevel_toString (a := { a with retryScheduleLevel := some (toString (level + 1)) })
      (by omega) rfl
    exact ⟨_, _, scheduleUpdate_iff.mpr ⟨hlisted.quotable, .behind hlisted.known hfits hlevel hrange hnext⟩,
      hschedule, hretval, hwritten, by decide, fun hne ↦ absurd rfl hne⟩
  | some next =>
    have hwritten := scheduleLevel_toString (a := { a with
        retryScheduleLevel := some (toString (level + 1))
        retryDelay := some next.1
        retryTimes := some next.2 }) (by omega) rfl
    obtain ⟨⟨delay, hdelay⟩, times, htimes, hpos⟩ := hlisted.parsed next (List.mem_of_getElem? hnext)
    refine ⟨_, _, scheduleUpdate_iff.mpr ⟨hlisted.quotable,
      .taken hlisted.known hfits hlevel hrange hnext hdelay htimes⟩, hschedule, hretval, hwritten,
      ⟨hpos, (parseInt_range htimes).2⟩, fun _ ↦ ⟨⟨hretval, ?_, ⟨_, hwritten, ?_⟩, fun _ ↦ ?_⟩, .inr ?_⟩⟩
    · intro name' h
      obtain rfl := Option.some.inj (hschedule.symm.trans h)
      exact ⟨levels, hlisted⟩
    · intro name' levels' h hknown
      obtain rfl := Option.some.inj (hschedule.symm.trans h)
      obtain rfl := Option.some.inj (hlisted.known.symm.trans hknown)
      have hlt := (List.getElem?_eq_some_iff.mp hnext).1
      omega
    · exact ⟨_, _, rfl, rfl, ⟨delay, hdelay⟩, times, htimes, hpos⟩
    · rw [hwritten, ne_eq, Option.some.injEq]
      omega

/-- The attributes of a task that has begun, or has no schedule, are read. -/
theorem Ready.retryAttributes (h : a.Ready schedules) (hbegun : a.Begun) :
    ∃ delay times, a.retryAttributes = some (some (delay, times)) ∧ 0 ≤ times ∧ times < 2 ^ 31 := by
  obtain ⟨delayText, timesText, hdelayText, htimesText, ⟨delay, hdelay⟩, times, htimes, hpos⟩ :=
    h.attributes hbegun
  refine ⟨delay, times, ?_, hpos, (parseInt_range htimes).2⟩
  unfold RetryTexts.retryAttributes
  rw [hdelayText, htimesText]
  dsimp only at hdelay htimes ⊢
  rw [hdelay, htimes]
  rfl

/-- A call reads its parameters; where the task has a schedule, a further level can be taken. -/
theorem Ready.retryParameters (h : a.Ready schedules) (c : RetryCall) :
    ∃ a' retry, a.retryParameters c schedules = some (some (a', retry)) ∧ Left schedules a' retry ∧
      a'.retrySchedule = a.retrySchedule ∧ a'.retryRetval = none ∧
      ∀ name, a.retrySchedule = some name →
        ∃ level, a'.scheduleLevel = some level ∧ 0 ≤ level ∧ level ≠ 2 ^ 31 - 1 := by
  obtain ⟨level, hlevel, hinside⟩ := h.level
  unfold RetryTexts.retryParameters
  rw [hlevel, Option.bind_some]
  by_cases hbegun : a.Begun
  · obtain ⟨delay, times, hattributes, htimes⟩ := h.retryAttributes hbegun
    refine ⟨a, (delay, times), ?_, ⟨htimes, fun _ ↦ ⟨h, hbegun⟩⟩, rfl, h.retval, ?_⟩
    · rw [hattributes]
      rcases hbegun with hnone | hne
      · rw [hnone]
        rfl
      · rw [decide_eq_false fun heq ↦ hne (hlevel.trans (congrArg some heq))]
        cases a.retrySchedule <;> rfl
    · intro name hname
      obtain ⟨levels, hlisted⟩ := h.schedule name hname
      have hrange := hinside name levels hname hlisted.known
      have hcount := hlisted.count
      exact ⟨level, hlevel, hrange.1, by omega⟩
  · rw [Begun, not_or, not_not, hlevel, Option.some.injEq] at hbegun
    obtain ⟨name, hname⟩ := Option.ne_none_iff_exists'.mp hbegun.1
    obtain ⟨levels, hlisted⟩ := h.schedule name hname
    obtain rfl := hbegun.2
    obtain ⟨a', retry, hupdate, hschedule, hretval, hlevel', hleft⟩ :=
      scheduleUpdate_left hlisted hname h.retval hlevel (by decide) c.logged.1 c.unset
    refine ⟨a', retry, ?_, hleft, hschedule.trans hname.symm, hretval, fun _ _ ↦ ⟨1, hlevel', by decide⟩⟩
    rw [hname, decide_eq_true rfl]
    dsimp only
    rw [hupdate]
    rfl

theorem Left.nextLevel (h : Left schedules a retry) (hretval : a.retryRetval = none)
    (hschedule : ∀ name, a.retrySchedule = some name → ∃ levels, Listed schedules name levels)
    (hlevel : ∀ name, a.retrySchedule = some name →
      ∃ level, a.scheduleLevel = some level ∧ 0 ≤ level ∧ level ≠ 2 ^ 31 - 1) (c : RetryCall) :
    ∃ a' retry', a.nextLevel c schedules retry = some (a', retry') ∧ Left schedules a' retry' ∧
      a'.retryRetval = none := by
  unfold RetryTexts.nextLevel
  cases hname : a.retrySchedule with
  | none => exact ⟨a, retry, rfl, h, hretval⟩
  | some name =>
    dsimp only
    by_cases hspent : retry.2 = 0
    · obtain ⟨levels, hlisted⟩ := hschedule name hname
      obtain ⟨level, hat, hrange⟩ := hlevel name hname
      obtain ⟨a', retry', hupdate, -, hretval', -, hleft⟩ :=
        scheduleUpdate_left hlisted hname hretval hat hrange c.logged.2 retry
      rw [if_pos hspent]
      exact ⟨a', retry', hupdate, hleft, hretval'⟩
    · rw [if_neg hspent]
      exact ⟨a, retry, rfl, h, hretval⟩

/-- One of the times is taken. -/
theorem Ready.counted (h : a.Ready schedules) (hbegun : a.Begun) {times : Int}
    (htimes : 0 ≤ times ∧ times < 2 ^ 31) :
    Ready schedules { a with retryTimes := some (toString times) } := by
  refine ⟨h.retval, h.schedule, h.level, fun _ ↦ ?_⟩
  obtain ⟨delayText, timesText, hdelayText, -, hdelay, -⟩ := h.attributes hbegun
  exact ⟨delayText, _, hdelayText, rfl, hdelay, times, parseInt_toString (by omega), htimes.1⟩

/-- **A call for a task that is ready comes back, and while a retry is planned it leaves the task ready.** -/
theorem Ready.call (h : a.Ready schedules) (c : RetryCall) (retval : Option Int) :
    ∃ a' outcome, a.retry c schedules retval = some (a', outcome) ∧
      ((∃ delay, outcome = .planned delay) → a'.Ready schedules) := by
  obtain ⟨a₁, retry, hparameters, hleft, hsame, hretval, hlevel⟩ := h.retryParameters c
  rw [← hsame] at hlevel
  obtain ⟨a₂, ⟨delay, times⟩, hnext, hleft', hretval'⟩ :=
    hleft.nextLevel hretval (fun name hname ↦ h.schedule name (hsame.symm.trans hname)) hlevel c
  have hrefuses : a₂.refuses retval = some false := by
    unfold refuses
    rw [hretval']
  unfold RetryTexts.retry
  rw [hparameters, Option.bind_some]
  dsimp only
  rw [hnext, Option.bind_some]
  dsimp only
  by_cases hend : delay = 0 ∨ times = 0
  · rw [if_pos hend]
    refine ⟨_, _, rfl, ?_⟩
    rintro ⟨_, hplanned⟩
    cases hplanned
  · have hrange := hleft'.times
    rw [not_or] at hend
    dsimp only at hrange
    rw [if_neg (not_or.mpr hend), hrefuses, Option.bind_some, if_neg Bool.false_ne_true, if_neg (by omega)]
    obtain ⟨hready, hbegun⟩ := hleft'.ready hend.2
    exact ⟨_, _, rfl, fun _ ↦ hready.counted hbegun (by omega)⟩

end RetryTexts

/-! ## The instance -/

/-- An instance, with the texts of its document.  The retry attributes and the schedules of `workflow.doc` are
not looked at. -/
structure TextInstance (Node : Type) where
  workflow : WorkflowInstance Node
  /-- Those of a task. -/
  attributes : Nat → RetryTexts
  /-- The attributes `retry_delay` and `retry_times` of the levels; an attribute that is missing is empty. -/
  schedules : String → Option (List (String × String))

namespace TextInstance

variable (c : RetryCall) (now : Int)

/-- `retry_task` called at time `now`, with the events that it inserts: a task and when it is due. -/
def retryTask (s : TextInstance Node) (id : Nat) : Option (TextInstance Node × List (Nat × Int)) :=
  match s.workflow.doc.task? id with
  | none => some (s, [])
  | some task =>
      ((s.attributes id).retry c s.schedules task.retval).map fun (a, outcome) ↦
        let s := { s with attributes := Function.update s.attributes id a }
        match outcome with
        | .exhausted => ({ s with workflow := { s.workflow with errorTally := s.workflow.errorTally + 1 } }, [])
        | .passedOver => (s, [])
        | .planned delay =>
            ({ s with workflow := { s.workflow with
                retrier := s.workflow.retrier ++ [id]
                retryingTally := s.workflow.retryingTally + 1 } }, [(id, now + delay)])

/-- What `TaskStop` records of a failure. -/
def failedWith (retval : Int) (output : String) (t : TaskNode Node) : TaskNode Node :=
  { t with
    status := some .terminated
    retval := some retval
    outputs := t.outputs ++ [⟨retval, .text, output⟩] }

def recorded (s : TextInstance Node) (id : Nat) (retval : Int) (output : String) : TextInstance Node :=
  { s with workflow := s.workflow.setTask id (failedWith retval output) }

def notRetried (t : TaskNode Node) : TaskNode Node :=
  { t with error := some "Won't retry because workflow is cancelling" }

def marked (s : TextInstance Node) (id : Nat) : TextInstance Node :=
  { s with workflow := s.workflow.setTask id notRetried }

/-- The end of `TaskStop`, for a task of this job. -/
def settle (env : Environment Node) (s : TextInstance Node) (job : Nat) : TextInstance Node × Bool :=
  let siblings := s.workflow.doc.tasksOf job
  let workflow :=
    if siblings.length = siblings.countP TaskNode.successful then
      (WorkflowInstance.runSubjobs env job s.workflow).1
    else s.workflow
  let workflow := { workflow with runningTally := workflow.runningTally - 1 }
  ({ s with workflow }, workflow.workflowEnded)

/-- `TaskStop` for a task that has failed, up to `record_savepoint`, which changes no counter; with the events
that it inserts. -/
def taskStop (env : Environment Node) (s : TextInstance Node) (id : Nat) (retval : Int) (output : String) :
    Option (TextInstance Node × Bool × List (Nat × Int)) :=
  match s.workflow.doc.task? id with
  | none => some (s, s.workflow.workflowEnded, [])
  | some task =>
      let s := s.recorded id retval output
      let called :=
        if s.workflow.isCancelling then some (s.marked id, []) else retryTask c now s id
      called.map fun (s, events) ↦
        let (s, ended) := s.settle env task.job
        (s, ended, events)

/-- The instance with the numbers that are read. -/
def read (s : TextInstance Node) : WorkflowInstance Node :=
  { s.workflow with
    doc :=
      { s.workflow.doc with
        tasks := s.workflow.doc.tasks.map fun t ↦ (s.attributes t.id).read t
        schedules := readSchedules s.schedules } }

variable {c : RetryCall} {now : Int} {s s' : TextInstance Node} {id : Nat} {task : TaskNode Node}
variable {a : RetryTexts}

theorem task?_read (hfind : s.workflow.doc.task? id = some task) :
    s.read.doc.task? id = some ((s.attributes id).read task) := by
  obtain rfl : task.id = id := by simpa using List.find?_some hfind
  unfold Document.task? at hfind ⊢
  show (s.workflow.doc.tasks.map _).find? _ = _
  rw [List.find?_map]
  exact congrArg (Option.map _) hfind

/-- The texts of a task decide what `retry_task` does, and which event it inserts. -/
theorem retryTask_eq (now : Int) {outcome : RetryOutcome} (hfind : s.workflow.doc.task? id = some task)
    (hretry : (s.attributes id).retry c s.schedules task.retval = some (a, outcome)) :
    s.retryTask c now id = some (
      { s with
        attributes := Function.update s.attributes id a
        workflow := s.workflow.retried id s.workflow.doc outcome.kind },
      (outcome.delay?.map fun delay ↦ (id, now + delay)).toList) := by
  unfold retryTask
  rw [hfind]
  dsimp only
  rw [hretry]
  cases outcome <;> rfl

/-- **A call that comes back does what `retryTaskAt` does to the instance with the numbers.** -/
theorem retryTask_read {env : Environment Node} {events : List (Nat × Int)}
    (henv : env.uninitialised = c.unset) (hfind : s.workflow.doc.task? id = some task)
    (h : s.retryTask c now id = some (s', events)) :
    ∃ d, Document.Replaced id ((s'.attributes id).read task) s.read.doc d ∧
      s.read.retryTaskAt env now id = ({ s'.workflow with doc := d }, events) := by
  obtain ⟨⟨a, outcome⟩, hretry⟩ : ∃ found,
      (s.attributes id).retry c s.schedules task.retval = some found := by
    apply Option.ne_none_iff_exists'.mp
    intro hnone
    unfold retryTask at h
    rw [hfind] at h
    dsimp only at h
    rw [hnone] at h
    cases h
  have heq := retryTask_eq now hfind hretry
  rw [h, Option.some.injEq, Prod.mk.injEq] at heq
  obtain ⟨rfl, rfl⟩ := heq
  obtain ⟨houtcome, hplan⟩ := RetryTexts.retry_read (t := task) hretry
  obtain ⟨d, hd, hafter⟩ := WorkflowInstance.retryTaskAt_eq env now (task?_read hfind)
  rw [henv] at hd hafter
  have hschedules : s.read.doc.schedules = readSchedules s.schedules := rfl
  rw [hschedules, houtcome] at hd hafter
  rw [hplan] at hafter
  refine ⟨d, ?_, ?_⟩
  · dsimp only
    rw [Function.update_self]
    exact hd
  · rw [hafter]
    cases outcome <;> rfl

end TextInstance

end EvQueue
