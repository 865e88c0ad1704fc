import EvQueue.Base.Calendar

/-!
# Schedule — when a workflow is due

A schedule allows some seconds, minutes, hours, days, months and weekdays.  This file embeds
`Schedule.cpp`: the constructor that reads a description such as `0;30;4,16;;;1,2,3,4,5`, and the search
for the next time.  Local time is the Gregorian calendar at a fixed offset from UTC.
-/

namespace EvQueue

open Calendar

inductive ScheduleLevel where
  | sec | min | hour | day | month | wday
deriving DecidableEq, Repr

namespace ScheduleLevel

/-- `SCHEDULE_LEVEL_SEC` to `SCHEDULE_LEVEL_WDAY`. -/
def all : List ScheduleLevel := [sec, min, hour, day, month, wday]

/-- `SCHEDULE_LEVEL_SEC` to `SCHEDULE_LEVEL_MONTH`. -/
def upToMonth : List ScheduleLevel := [sec, min, hour, day, month]

end ScheduleLevel

def scheduleLength : Nat := 194

def getScheduleLength : ScheduleLevel → Nat
  | .sec => 60
  | .min => 60
  | .hour => 24
  | .day => 31
  | .month => 12
  | .wday => 7

def getScheduleOffset : ScheduleLevel → Nat
  | .sec => 0
  | .min => 60
  | .hour => 120
  | .day => 144
  | .month => 175
  | .wday => 187

/-! ## What the constructor uses of the C library -/

/-- `isspace` of the C locale. -/
def isSpace (c : Char) : Bool := c == ' ' || (9 ≤ c.toNat && c.toNat ≤ 13)

def readSign : List Char → Bool × List Char
  | '-' :: rest => (true, rest)
  | '+' :: rest => (false, rest)
  | rest => (false, rest)

/-- `strtol` in base 10, where a `long` has 64 bits: the value and what follows it, or `none` where no
digit is found and the end pointer stays on the start. -/
def strtol (cs : List Char) : Option (Int × List Char) :=
  let (negative, cs) := readSign (cs.dropWhile isSpace)
  let digits := cs.takeWhile Char.isDigit
  if digits = [] then none
  else
    let n : Int := digits.foldl (fun n c ↦ n * 10 + (c.toNat - 48)) 0
    some (max (-2 ^ 63) (min (2 ^ 63 - 1) (if negative then -n else n)), cs.dropWhile Char.isDigit)

/-- The characters of a C string. -/
def cString (s : String) : List Char := s.toList.takeWhile fun c ↦ c.toNat ≠ 0

structure Schedule where
  schedule : List Bool
deriving DecidableEq, Repr

namespace Schedule

/-! ## The constructor -/

/-- The state of the inner loop: the rest of the description, the table, whether the level is empty so
far and the least day. -/
structure Scan where
  rest : List Char
  schedule : List Bool
  emptyLevel : Bool
  minDay : Nat
deriving DecidableEq, Repr

def skip (c : Char) : List Char → List Char
  | [] => []
  | d :: rest => if d = c then rest else d :: rest

/-- The loop over the values of one level.  Every round reads at least one character, so as many rounds
as there are characters are enough. -/
def scanLevel (level : ScheduleLevel) (offset length : Nat) : Nat → Scan → Except String Scan
  | 0, s => .ok s
  | fuel + 1, s =>
      if s.rest.head? = none ∨ s.rest.head? = some ';' then .ok s
      else
        match strtol s.rest with
        | none => .error "Non numeric data in schedule offset"
        | some (v, rest) =>
            if v < 0 ∨ v ≥ length then .error "Out of range schedule offset"
            else scanLevel level offset length fuel
              { rest := skip ',' rest
                schedule := s.schedule.set (offset + v.toNat) true
                emptyLevel := false
                minDay := if level = .day ∧ v.toNat < s.minDay then v.toNat else s.minDay }

def fillLevel (schedule : List Bool) (offset length : Nat) : List Bool :=
  (List.range length).foldl (fun schedule i ↦ schedule.set (offset + i) true) schedule

/-- One round of the loop over the levels, where `offset` and `length` are those of the level. -/
def parseLevel (level : ScheduleLevel) (offset length : Nat) (rest : List Char) (schedule : List Bool)
    (minDay : Nat) : Except String (List Char × List Bool × Nat) :=
  (scanLevel level offset length rest.length ⟨rest, schedule, true, minDay⟩).map fun s ↦
    (skip ';' s.rest, if s.emptyLevel then fillLevel s.schedule offset length else s.schedule, s.minDay)

def parseLevels : List ScheduleLevel → Nat → List Char → List Bool → Nat →
    Except String (List Char × List Bool × Nat)
  | [], _, rest, schedule, minDay => .ok (rest, schedule, minDay)
  | level :: levels, offset, rest, schedule, minDay =>
      (parseLevel level offset (getScheduleLength level) rest schedule minDay).bind
        fun (rest, schedule, minDay) ↦
          parseLevels levels (offset + getScheduleLength level) rest schedule minDay

/-- The entries of the months with more than 29 days, and with more than 30. -/
def monthsOver29 : List Nat := [175, 177, 178, 179, 180, 181, 182, 183, 184, 185, 186]
def monthsOver30 : List Nat := [175, 177, 179, 181, 182, 184, 186]

def create (scheduleDescription : String) : Except String Schedule :=
  (parseLevels ScheduleLevel.all 0 (cString scheduleDescription) (List.replicate scheduleLength false) 32).bind
    fun (rest, schedule, minDay) ↦
      if rest ≠ [] then .error "Garbage at end of schedule"
      else if minDay = 29 ∧ monthsOver29.all (fun i ↦ !schedule[i]?.getD false) then
        .error "Schedule constraints are impossible to satisfy"
      else if minDay = 30 ∧ monthsOver30.all (fun i ↦ !schedule[i]?.getD false) then
        .error "Schedule constraints are impossible to satisfy"
      else .ok ⟨schedule⟩

/-- `schedule[GetScheduleOffset(level)+v]`. -/
def allows (s : Schedule) (level : ScheduleLevel) (v : Nat) : Bool :=
  s.schedule[getScheduleOffset level + v]?.getD false

end Schedule

/-! ## Local time -/

/-- `struct tm`, with the year counted from 1900. -/
structure Tm where
  sec : Nat
  min : Nat
  hour : Nat
  mday : Nat
  mon : Nat
  year : Int
  wday : Nat
deriving DecidableEq, Repr

def localtime_r (utcOffset : Int) (t : Int) : Tm :=
  let day := (t + utcOffset) / 86400
  let second := ((t + utcOffset) % 86400).toNat
  let date := Date.ofDayNumber day
  { sec := second % 60
    min := second / 60 % 60
    hour := second / 3600
    mday := date.day + 1
    mon := date.month
    year := date.year - 1900
    wday := weekday day }

/-- The time and the fields brought into their ranges. -/
def mktime (utcOffset : Int) (tm : Tm) : Int × Tm :=
  let day := monthStart (tm.year + 1900 + tm.mon / 12) (tm.mon % 12) + tm.mday - 1
  let t := ((day * 24 + tm.hour) * 60 + tm.min) * 60 + tm.sec - utcOffset
  (t, localtime_r utcOffset t)

namespace Schedule

/-! ## The next time -/

/-- The loop over the levels: the first possible value of each, and the reminder left after the last.
`none` is a level that allows nothing, for which the value stays uninitialised. -/
def findFirst (s : Schedule) : List ScheduleLevel → List Nat → Nat → Option (List Nat × Nat)
  | level :: levels, now :: nows, currentLevelOffset =>
      let length := getScheduleLength level
      let nextLevelsValid := (levels.zip nows).all fun (k, v) ↦ s.allows k v
      let j i := if nextLevelsValid then (now + i + currentLevelOffset) % length else i
      ((List.range length).find? fun i ↦ s.allows level (j i)).bind fun i ↦
        let nextLevelOffset := if nextLevelsValid ∧ j i < now + currentLevelOffset then 1 else 0
        (s.findFirst levels nows nextLevelOffset).map fun (js, off) ↦ (j i :: js, off)
  | _, _, off => some ([], off)

/-- `get_next_time`, which calls itself on a later time when the date it composed does not exist or is
on a wrong weekday. -/
def get_next_time (utcOffset : Int) (s : Schedule) : Nat → Int → Option Int
  | 0, _ => none
  | fuel + 1, now =>
      let nowT := localtime_r utcOffset now
      match s.findFirst ScheduleLevel.upToMonth [nowT.sec, nowT.min, nowT.hour, nowT.mday - 1, nowT.mon] 0 with
      | some ([sec, min, hour, day, mon], nextLevelOffset) =>
          let (first, firstT) := mktime utcOffset
            { sec, min, hour, mday := day + 1, mon, year := nowT.year + nextLevelOffset, wday := 0 }
          if firstT.mday ≠ day + 1 ∨ firstT.mon ≠ mon then
            get_next_time utcOffset s fuel first
          else if !s.allows .wday firstT.wday then
            -- the seconds stay as they are
            let (first, _) := mktime utcOffset { firstT with min := 0, hour := 0, mday := firstT.mday + 1 }
            get_next_time utcOffset s fuel first
          else some first
      | _ => none

/-- `GetNextTime`, called at time `now`. -/
def getNextTime (utcOffset : Int) (s : Schedule) (fuel : Nat) (now : Int) : Option Int :=
  (s.get_next_time utcOffset fuel (now + 1)).map fun nextTime ↦
    if nextTime ≤ now then now + 86400 * 365 else nextTime

end Schedule

end EvQueue
