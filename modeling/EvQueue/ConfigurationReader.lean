import EvQueue.Base.CheckedScan
import EvQueue.Configuration
import EvQueue.Exception

/-!
# ConfigurationReader — the configuration file, line by line

`fgets` puts a line, or the part of it that fits, into a buffer, and one index is moved over it.  Every
access to the buffer is checked.  Behind the two tests for a line break, which look in front of the
terminator before the length is known not to be zero, the index stays on the line whatever stands there.
-/

namespace EvQueue

/-- `CONFIGURATION_LINE_MAXLEN`. -/
def configurationLineMaxlen : Nat := 256

namespace ConfigurationReader

/-- How reading ends without a configuration: by an exception, or by an access to the line at an index that
is neither one of its characters nor that of its terminator. -/
inductive ReadStop where
  | raised (e : Exception)
  | outside (i : Int)
deriving DecidableEq, Repr

def raise {α : Type} (error : String) : Except ReadStop α := .error (.raised ⟨"ConfigurationReader", error⟩)

/-- `line[i]`. -/
def charAt (line : List Char) (i : Int) : Except ReadStop Char :=
  (CheckedScan.read '\x00' line i).mapError .outside

/-- `while(p(line[i])) i++`. -/
def skip (p : Char → Bool) (line : List Char) (i : Nat) : Except ReadStop Nat :=
  (CheckedScan.scan '\x00' p line (line.length + 2) i).mapError .outside

def isBlank (c : Char) : Bool := c == ' ' || c == '\t'

/-- The characters of an entry.  No character beyond ASCII is alphanumeric in the C locale. -/
def isEntry (c : Char) : Bool := c.isAlphanum || c == '.' || c == '_'

inductive Quoted where
  | no
  | single
  | double
deriving DecidableEq, Repr

/-- The tests in the loop over the value, which bind as they do in the source. -/
def valueEnds (quoted : Quoted) (c : Char) : Bool :=
  (quoted == .no && c == ' ' || c == '\t' || c == '#') || quoted == .single && c == '\'' ||
    quoted == .double && c == '"'

/-- `if(line[len-1]==c) { line[len-1]='\0'; len--; }`. -/
def trim (c : Char) (line : List Char) : Except ReadStop (List Char) := do
  let last ← charAt line ((line.length : Int) - 1)
  return if last = c then line.dropLast else line

/-- From the first character behind the blanks to the one behind `=`: the length of the entry, and the
index. -/
def scanEntry (line : List Char) (entry : Nat) : Except ReadStop (Nat × Nat) := do
  let i ← skip isEntry line entry
  if i = entry then raise "Expected configuration entry"
  else
    let c ← charAt line i
    if c = '\x00' then raise "Missing value"
    else
      let entryLen := i - entry
      let i ← skip isBlank line i
      let c ← charAt line i
      if c ≠ '=' then raise "Expecting '='"
      else return (entryLen, i + 1)

/-- `if(line[i]=='\'') { quoted=1; i++; } else if(line[i]=='\"') { quoted=2; i++; }`. -/
def openQuote (c : Char) (i : Nat) : Quoted × Nat :=
  if c = '\'' then (.single, i + 1) else if c = '"' then (.double, i + 1) else (.no, i)

/-- From the first character of the value to the end of the line: the length of the value. -/
def scanBody (line : List Char) (quoted : Quoted) (value : Nat) : Except ReadStop Nat := do
  let c ← charAt line value
  if c = '\x00' then raise "Empty value"
  else
    let i ← skip (fun c ↦ c != '\x00' && !valueEnds quoted c) line value
    let valueLen := i - value
    let c ← charAt line i
    if quoted ≠ .no ∧ c = '\x00' then raise "Missing ending quote"
    else
      let i ← skip isBlank line (if quoted ≠ .no then i + 1 else i)
      let c ← charAt line i
      if c ≠ '\x00' ∧ c ≠ '#' then raise "Garbage data after value"
      else return valueLen

/-- From the character behind `=` to the end of the line: the start and the length of the value. -/
def scanValue (line : List Char) (i : Nat) : Except ReadStop (Nat × Nat) := do
  let i ← skip isBlank line i
  let c ← charAt line i
  if c = '\x00' then raise "Missing value"
  else
    let (quoted, value) := openQuote c i
    (scanBody line quoted value).map fun valueLen ↦ (value, valueLen)

/-- The body of the loop for a line that `fgets` has left in the buffer. -/
def readLine (config : Configuration) (buffer : List Char) : Except ReadStop Configuration := do
  -- `strlen` stops at the first null, also at one of the file
  let line ← trim '\n' (buffer.takeWhile (· ≠ '\x00'))
  let line ← trim '\r' line
  if line.length = 0 then return config
  else
    let i ← skip isBlank line 0
    let c ← charAt line i
    if c = '#' ∨ c = '\x00' then return config
    else
      let entry := i
      let (entryLen, i) ← scanEntry line entry
      let (value, valueLen) ← scanValue line i
      -- `entry[entry_len]='\0'` and `value[value_len]='\0'`
      let _ ← charAt line (entry + entryLen : Nat)
      let _ ← charAt line (value + valueLen : Nat)
      match config.set ((line.drop entry).take entryLen) ((line.drop value).take valueLen) with
      | none => raise "Unknown configuration entry"
      | some config => return config

/-- What `fgets` takes from a file when `room` more characters fit, and what it leaves. -/
def fgets : Nat → List Char → List Char × List Char
  | 0, content => ([], content)
  | _ + 1, [] => ([], [])
  | room + 1, c :: content =>
      if c = '\n' then ([c], content)
      else
        let (line, rest) := fgets room content
        (c :: line, rest)

/-- What `fgets` returns one after the other, for as many calls. -/
def bufferLines : Nat → List Char → List (List Char)
  | 0, _ => []
  | _ + 1, [] => []
  | calls + 1, content =>
      let (line, rest) := fgets (configurationLineMaxlen - 1) content
      line :: bufferLines calls rest

/-- The lines of a file; a call that returns a line takes a character at least. -/
def fileLines (content : List Char) : List (List Char) := bufferLines content.length content

/-- `Read`, where `none` is a file that cannot be opened. -/
def read : Option (List Char) → Except ReadStop Configuration
  | none => raise "Unable to open configuration file"
  | some content => (fileLines content).foldlM readLine .create

/-! ## What is left of a line -/

/-- What is left of the line at an index. -/
def At (line : List Char) (i : Nat) (rest : List Char) : Prop :=
  ∃ front, line = front ++ rest ∧ i = front.length

section At

variable {line rest : List Char} {i : Nat} {c : Char} {p : Char → Bool}

theorem at_zero (line : List Char) : At line 0 line := ⟨[], rfl, rfl⟩

theorem At.charAt (h : At line i rest) : charAt line i = .ok (rest.head?.getD '\x00') := by
  obtain ⟨front, rfl, rfl⟩ := h
  unfold ConfigurationReader.charAt
  rw [CheckedScan.read_append]
  rfl

theorem At.next (h : At line i (c :: rest)) : At line (i + 1) rest := by
  obtain ⟨front, rfl, rfl⟩ := h
  exact ⟨front ++ [c], by simp, by simp⟩

/-- The terminator ends the loop, if nothing else does. -/
theorem At.skip (h : At line i rest) (hp : p '\x00' = false) :
    skip p line i = .ok (i + (rest.takeWhile p).length) ∧
      At line (i + (rest.takeWhile p).length) (rest.dropWhile p) := by
  obtain ⟨front, rfl, rfl⟩ := h
  constructor
  · unfold ConfigurationReader.skip
    rw [CheckedScan.scan_append hp (by rw [List.length_append]; omega), List.length_append]
    rfl
  · refine ⟨front ++ rest.takeWhile p, ?_, ?_⟩
    · rw [List.append_assoc, List.takeWhile_append_dropWhile]
    · rw [List.length_append]

theorem At.slice (h : At line i rest) (n : Nat) : (line.drop i).take n = rest.take n := by
  obtain ⟨front, rfl, rfl⟩ := h
  rw [List.drop_left]

theorem At.charAt_add (h : At line i rest) {n : Nat} (hn : n ≤ rest.length) :
    ∃ c, ConfigurationReader.charAt line (i + n : Nat) = .ok c := by
  obtain ⟨front, rfl, rfl⟩ := h
  have hat : At (front ++ rest) (front.length + n) (rest.drop n) := by
    refine ⟨front ++ rest.take n, ?_, ?_⟩
    · rw [List.append_assoc, List.take_append_drop]
    · rw [List.length_append, List.length_take, Nat.min_eq_left hn]
  exact ⟨_, hat.charAt⟩

end At

/-- `scanEntry` on what is left of the line: the entry, and what is left behind `=`. -/
def takeEntry (rest : List Char) : Except String (List Char × List Char) :=
  if rest.takeWhile isEntry = [] then .error "Expected configuration entry"
  else if rest.dropWhile isEntry = [] then .error "Missing value"
  else
    match (rest.dropWhile isEntry).dropWhile isBlank with
    | [] => .error "Expecting '='"
    | c :: tail => if c = '=' then .ok (rest.takeWhile isEntry, tail) else .error "Expecting '='"

/-- Behind a value, and blanks, there is nothing but a comment. -/
def endLine (value : List Char) : List Char → Except String (List Char)
  | [] => .ok value
  | c :: _ => if c = '#' then .ok value else .error "Garbage data after value"

/-- The part of `scanValue` behind the opening quote. -/
def takeBody (quoted : Quoted) (body : List Char) : Except String (List Char) :=
  if body = [] then .error "Empty value"
  else if quoted ≠ .no ∧ body.dropWhile (!valueEnds quoted ·) = [] then .error "Missing ending quote"
  else
    let after := body.dropWhile (!valueEnds quoted ·)
    endLine (body.takeWhile (!valueEnds quoted ·))
      ((if quoted ≠ .no then after.tail else after).dropWhile isBlank)

/-- `scanValue` on what is left of the line. -/
def takeValue (rest : List Char) : Except String (List Char) :=
  match rest.dropWhile isBlank with
  | [] => .error "Missing value"
  | c :: tail =>
      if c = '\'' then takeBody .single tail
      else if c = '"' then takeBody .double tail
      else takeBody .no (c :: tail)

/-- What a line without its line break asks for: nothing, or a value for an entry. -/
def parseLine (line : List Char) : Except String (Option (List Char × List Char)) :=
  match line.dropWhile isBlank with
  | [] => .ok none
  | c :: tail =>
      if c = '#' then .ok none
      else
        (takeEntry (c :: tail)).bind fun p ↦ (takeValue p.2).map fun value ↦ some (p.1, value)

/-! ## The index stays on the line -/

section Index

variable {line rest : List Char} {i : Nat}

/-- A line holds no null, so that it is one only where nothing is left. -/
theorem head_eq_null_iff (h : '\x00' ∉ rest) : rest.head?.getD '\x00' = '\x00' ↔ rest = [] := by
  cases rest with
  | nil => simp
  | cons c rest =>
    rw [List.mem_cons, not_or] at h
    simp [Ne.symm h.1]

theorem not_mem_dropWhile {p : Char → Bool} (h : '\x00' ∉ rest) : '\x00' ∉ rest.dropWhile p :=
  fun hin ↦ h ((List.dropWhile_sublist p).subset hin)

theorem takeWhile_congr {p q : Char → Bool} (h : ∀ c ∈ rest, p c = q c) :
    rest.takeWhile p = rest.takeWhile q := by
  induction rest with
  | nil => rfl
  | cons c rest ih =>
    rw [List.takeWhile_cons, List.takeWhile_cons, h c List.mem_cons_self,
      ih fun d hd ↦ h d (List.mem_cons_of_mem _ hd)]

theorem dropWhile_congr {p q : Char → Bool} (h : ∀ c ∈ rest, p c = q c) :
    rest.dropWhile p = rest.dropWhile q := by
  induction rest with
  | nil => rfl
  | cons c rest ih =>
    rw [List.dropWhile_cons, List.dropWhile_cons, h c List.mem_cons_self,
      ih fun d hd ↦ h d (List.mem_cons_of_mem _ hd)]

theorem scanEntry_of_at (h : At line i rest) (hnull : '\x00' ∉ rest) :
    (∃ error, takeEntry rest = .error error ∧ scanEntry line i = raise error) ∨
    ∃ entry tail j, takeEntry rest = .ok (entry, tail) ∧ scanEntry line i = .ok (entry.length, j) ∧
      At line j tail ∧ '\x00' ∉ tail ∧ entry <+: rest := by
  obtain ⟨hentry, hat⟩ := h.skip (p := isEntry) (by decide)
  have hnull' := not_mem_dropWhile (p := isEntry) hnull
  obtain ⟨hblanks, hat'⟩ := hat.skip (p := isBlank) (by decide)
  have hnull'' := not_mem_dropWhile (p := isBlank) hnull'
  have hstart : (i + (rest.takeWhile isEntry).length = i) ↔ rest.takeWhile isEntry = [] := by
    rw [← List.length_eq_zero_iff]
    omega
  unfold scanEntry takeEntry
  simp only [hentry, hat.charAt, hblanks, hat'.charAt, bind, Except.bind, pure, Except.pure, hstart,
    head_eq_null_iff hnull']
  by_cases hempty : rest.takeWhile isEntry = []
  · rw [if_pos hempty, if_pos hempty]
    exact .inl ⟨_, rfl, rfl⟩
  · rw [if_neg hempty, if_neg hempty]
    by_cases hend : rest.dropWhile isEntry = []
    · rw [if_pos hend, if_pos hend]
      exact .inl ⟨_, rfl, rfl⟩
    · rw [if_neg hend, if_neg hend]
      cases hrest : (rest.dropWhile isEntry).dropWhile isBlank with
      | nil =>
        rw [List.head?_nil, Option.getD_none, if_pos (by decide)]
        exact .inl ⟨_, rfl, rfl⟩
      | cons c tail =>
        rw [hrest] at hat' hnull''
        rw [List.head?_cons, Option.getD_some]
        by_cases hc : c = '='
        · rw [if_neg (not_not.mpr hc)]
          dsimp only
          rw [if_pos hc]
          refine .inr ⟨_, _, _, rfl, ?_, hat'.next, fun hin ↦ hnull'' (List.mem_cons_of_mem _ hin),
            List.takeWhile_prefix _⟩
          rw [Nat.add_sub_cancel_left]
        · rw [if_pos hc]
          dsimp only
          rw [if_neg hc]
          exact .inl ⟨_, rfl, rfl⟩

/-- The loop over a value ends at the terminator by its own condition. -/
theorem span_value (quoted : Quoted) (hnull : '\x00' ∉ rest) :
    rest.takeWhile (fun c ↦ c != '\x00' && !valueEnds quoted c) = rest.takeWhile (!valueEnds quoted ·) ∧
      rest.dropWhile (fun c ↦ c != '\x00' && !valueEnds quoted c) =
        rest.dropWhile (!valueEnds quoted ·) := by
  have hsame : ∀ c ∈ rest, (c != '\x00' && !valueEnds quoted c) = !valueEnds quoted c := by
    intro c hc
    have hne : c ≠ '\x00' := fun heq ↦ hnull (heq ▸ hc)
    simp [hne]
  exact ⟨takeWhile_congr hsame, dropWhile_congr hsame⟩

/-- The test of what follows the value and blanks. -/
theorem endLine_cases (value : List Char) (hnull : '\x00' ∉ rest) :
    (endLine value rest = .error "Garbage data after value" ∧
      (rest.head?.getD '\x00' ≠ '\x00' ∧ rest.head?.getD '\x00' ≠ '#')) ∨
    (endLine value rest = .ok value ∧
      ¬(rest.head?.getD '\x00' ≠ '\x00' ∧ rest.head?.getD '\x00' ≠ '#')) := by
  cases rest with
  | nil => exact .inr ⟨rfl, fun hboth ↦ hboth.1 rfl⟩
  | cons c tail =>
    have hne : c ≠ '\x00' := fun heq ↦ hnull (heq ▸ List.mem_cons_self)
    have hend : endLine value (c :: tail) =
        if c = '#' then .ok value else .error "Garbage data after value" := rfl
    rw [hend, List.head?_cons, Option.getD_some]
    by_cases hc : c = '#'
    · rw [if_pos hc]
      exact .inr ⟨rfl, fun hboth ↦ hboth.2 hc⟩
    · rw [if_neg hc]
      exact .inl ⟨rfl, hne, hc⟩

theorem scanBody_of_at {quoted : Quoted} (h : At line i rest) (hnull : '\x00' ∉ rest) :
    (∃ error, takeBody quoted rest = .error error ∧ scanBody line quoted i = raise error) ∨
    ∃ value, takeBody quoted rest = .ok value ∧ scanBody line quoted i = .ok value.length ∧
      value <+: rest := by
  obtain ⟨hvalue, hat⟩ := h.skip (p := fun c ↦ c != '\x00' && !valueEnds quoted c) (by simp)
  rw [(span_value quoted hnull).1] at hvalue hat
  rw [(span_value quoted hnull).2] at hat
  have hnull' := not_mem_dropWhile (p := (!valueEnds quoted ·)) hnull
  unfold scanBody takeBody
  simp only [h.charAt, hvalue, hat.charAt, bind, Except.bind, pure, Except.pure,
    head_eq_null_iff hnull, head_eq_null_iff hnull']
  by_cases hempty : rest = []
  · rw [if_pos hempty, if_pos hempty]
    exact .inl ⟨_, rfl, rfl⟩
  · rw [if_neg hempty, if_neg hempty]
    by_cases hquote : quoted ≠ .no ∧ rest.dropWhile (!valueEnds quoted ·) = []
    · rw [if_pos hquote, if_pos hquote]
      exact .inl ⟨_, rfl, rfl⟩
    · rw [if_neg hquote, if_neg hquote]
      -- behind the closing quote, if there is one
      obtain ⟨after, j, hafter, hj, hat'⟩ : ∃ after j,
          (if quoted ≠ .no then (rest.dropWhile (!valueEnds quoted ·)).tail
            else rest.dropWhile (!valueEnds quoted ·)) = after ∧
          (if quoted ≠ .no then i + (rest.takeWhile (!valueEnds quoted ·)).length + 1
            else i + (rest.takeWhile (!valueEnds quoted ·)).length) = j ∧ At line j after := by
        refine ⟨_, _, rfl, rfl, ?_⟩
        by_cases hno : quoted ≠ .no
        · rw [if_pos hno, if_pos hno]
          cases hrest : rest.dropWhile (!valueEnds quoted ·) with
          | nil => exact absurd ⟨hno, hrest⟩ hquote
          | cons c tail =>
            rw [hrest] at hat
            exact hat.next
        · rw [if_neg hno, if_neg hno]
          exact hat
      obtain ⟨hblanks, hat''⟩ := hat'.skip (p := isBlank) (by decide)
      have hnull'' : '\x00' ∉ after.dropWhile isBlank := by
        apply not_mem_dropWhile
        rw [← hafter]
        split
        · exact fun hin ↦ hnull' (List.mem_of_mem_tail hin)
        · exact hnull'
      rw [hj, hafter, hblanks]
      simp only [hat''.charAt]
      rcases endLine_cases (rest.takeWhile (!valueEnds quoted ·)) hnull'' with
        ⟨hend, hgarbage⟩ | ⟨hend, hcomment⟩
      · rw [hend, if_pos hgarbage]
        exact .inl ⟨_, rfl, rfl⟩
      · rw [hend, if_neg hcomment]
        exact .inr ⟨_, rfl, by rw [Nat.add_sub_cancel_left], List.takeWhile_prefix _⟩

theorem scanValue_of_at (h : At line i rest) (hnull : '\x00' ∉ rest) :
    (∃ error, takeValue rest = .error error ∧ scanValue line i = raise error) ∨
    ∃ value v body, takeValue rest = .ok value ∧ scanValue line i = .ok (v, value.length) ∧
      At line v body ∧ value <+: body := by
  obtain ⟨hblanks, hat⟩ := h.skip (p := isBlank) (by decide)
  have hnull' := not_mem_dropWhile (p := isBlank) hnull
  unfold scanValue takeValue
  simp only [hblanks, hat.charAt, bind, Except.bind, head_eq_null_iff hnull']
  cases hrest : rest.dropWhile isBlank with
  | nil =>
    rw [if_pos rfl]
    exact .inl ⟨_, rfl, rfl⟩
  | cons c tail =>
    rw [hrest] at hat hnull'
    have hnull'' : '\x00' ∉ tail := fun hin ↦ hnull' (List.mem_cons_of_mem _ hin)
    rw [if_neg (List.cons_ne_nil _ _), List.head?_cons, Option.getD_some]
    -- with each quote, and with none, the value starts where the body does
    obtain ⟨k, hk⟩ : ∃ k, openQuote c (i + (rest.takeWhile isBlank).length) = k := ⟨_, rfl⟩
    rw [hk]
    have hbody {quoted : Quoted} {v : Nat} {body : List Char} (hat : At line v body)
        (hnull : '\x00' ∉ body) (hopen : k = (quoted, v)) :
        (∃ error, takeBody quoted body = .error error ∧
          (scanBody line k.1 k.2).map (fun valueLen ↦ (k.2, valueLen)) = raise error) ∨
        ∃ value v body', takeBody quoted body = .ok value ∧
          (scanBody line k.1 k.2).map (fun valueLen ↦ (k.2, valueLen)) = .ok (v, value.length) ∧
            At line v body' ∧ value <+: body' := by
      subst hopen
      rcases @scanBody_of_at line body v quoted hat hnull with ⟨error, htake, hscan⟩ | ⟨value, htake, hscan, hin⟩
      · rw [hscan]
        exact .inl ⟨error, htake, rfl⟩
      · rw [hscan]
        exact .inr ⟨value, v, body, htake, rfl, hat, hin⟩
    dsimp only
    by_cases hsingle : c = '\''
    · rw [if_pos hsingle]
      exact hbody hat.next hnull'' (hk.symm.trans (if_pos hsingle))
    · rw [if_neg hsingle]
      by_cases hdouble : c = '"'
      · rw [if_pos hdouble]
        exact hbody hat.next hnull'' (hk.symm.trans ((if_neg hsingle).trans (if_pos hdouble)))
      · rw [if_neg hdouble]
        exact hbody hat hnull' (hk.symm.trans ((if_neg hsingle).trans (if_neg hdouble)))

end Index

/-! ## A line -/

/-- The line without this character at its end. -/
def stripEnd (c : Char) (line : List Char) : List Char :=
  if line.getLast? = some c then line.dropLast else line

/-- What the request of a line makes of the configuration. -/
def assign (config : Configuration) :
    Except String (Option (List Char × List Char)) → Except ReadStop Configuration
  | .error error => raise error
  | .ok none => .ok config
  | .ok (some (entry, value)) =>
      match config.set entry value with
      | none => raise "Unknown configuration entry"
      | some config => .ok config

section Line

variable {line buffer : List Char} {config : Configuration}

theorem trim_of_ne_nil (c : Char) (h : line ≠ []) : trim c line = .ok (stripEnd c line) := by
  have hat : At line (line.length - 1) [line.getLast h] := by
    refine ⟨line.dropLast, ?_, ?_⟩
    · rw [List.dropLast_append_getLast]
    · rw [List.length_dropLast]
  have hpos := List.length_pos_iff.mpr h
  have hindex : (line.length : Int) - 1 = (line.length - 1 : Nat) := by omega
  unfold trim stripEnd
  rw [hindex, hat.charAt, List.getLast?_eq_getLast_of_ne_nil h]
  by_cases hlast : line.getLast h = c
  · simp [bind, Except.bind, pure, Except.pure, hlast]
  · simp [bind, Except.bind, pure, Except.pure, hlast]

-- A length of zero is taken for that of a line that ends in front of the buffer.
example (c : Char) : trim c [] = .error (.outside (-1)) := rfl

theorem stripEnd_subset (c : Char) (line : List Char) : stripEnd c line ⊆ line := by
  unfold stripEnd
  split
  · exact List.dropLast_subset line
  · exact fun _ h ↦ h

/-- Once the length is known not to be zero the line is read as by `parseLine`. -/
theorem readLine_of_trimmed (hbuffer : buffer.takeWhile (· ≠ '\x00') ≠ [])
    (hline : stripEnd '\n' (buffer.takeWhile (· ≠ '\x00')) ≠ []) :
    readLine config buffer =
      assign config (parseLine (stripEnd '\r' (stripEnd '\n' (buffer.takeWhile (· ≠ '\x00'))))) := by
  have hnull : '\x00' ∉ stripEnd '\r' (stripEnd '\n' (buffer.takeWhile (· ≠ '\x00'))) := by
    intro hin
    have hkept := List.mem_takeWhile_imp (stripEnd_subset _ _ (stripEnd_subset _ _ hin))
    simp at hkept
  unfold readLine
  simp only [trim_of_ne_nil _ hbuffer, trim_of_ne_nil _ hline, bind, Except.bind, pure, Except.pure]
  generalize stripEnd '\r' (stripEnd '\n' (buffer.takeWhile (· ≠ '\x00'))) = line at hnull
  by_cases hzero : line.length = 0
  · rw [if_pos hzero, List.length_eq_zero_iff.mp hzero]
    rfl
  · rw [if_neg hzero]
    obtain ⟨hblanks, hat⟩ := (at_zero line).skip (p := isBlank) (by decide)
    have hnull' := not_mem_dropWhile (p := isBlank) hnull
    rw [hblanks]
    simp only [hat.charAt]
    unfold parseLine
    cases hrest : line.dropWhile isBlank with
    | nil =>
      rw [List.head?_nil, Option.getD_none, if_pos (.inr rfl)]
      rfl
    | cons c tail =>
      rw [hrest] at hat hnull'
      have hne : c ≠ '\x00' := fun heq ↦ hnull' (heq ▸ List.mem_cons_self)
      rw [List.head?_cons, Option.getD_some]
      dsimp only
      by_cases hcomment : c = '#'
      · rw [if_pos hcomment, if_pos (.inl hcomment)]
        rfl
      · rw [if_neg hcomment, if_neg (by simp [hcomment, hne])]
        rcases scanEntry_of_at hat hnull' with ⟨error, htake, hscan⟩ |
          ⟨entry, rest, j, htake, hscan, hat', hnull'', hentry⟩
        · rw [hscan, htake]
          rfl
        · rw [hscan, htake]
          rcases scanValue_of_at hat' hnull'' with ⟨error, htake', hscan'⟩ |
            ⟨value, v, body, htake', hscan', hat'', hvalue⟩
          · simp only [hscan', Except.bind, htake']
            rfl
          · -- both terminators are written on the line
            obtain ⟨c₁, hc₁⟩ := hat.charAt_add hentry.length_le
            obtain ⟨c₂, hc₂⟩ := hat''.charAt_add hvalue.length_le
            simp only [hscan', hc₁, hc₂, hat.slice, hat''.slice, Except.bind, htake', Except.map, assign]
            rw [← List.prefix_iff_eq_take.mp hentry, ← List.prefix_iff_eq_take.mp hvalue]

end Line

/-! ## Where the index leaves the line -/

section Outside

variable {config : Configuration} {line buffer content : List Char} {lines : List (List Char)}

theorem assign_ne_outside (config : Configuration) (r : Except String (Option (List Char × List Char)))
    (i : Int) : assign config r ≠ .error (.outside i) := by
  rcases r with error | (- | ⟨entry, value⟩)
  · simp [assign, raise]
  · simp [assign]
  · unfold assign
    dsimp only
    split <;> simp [raise]

/-- Only the two tests for a line break may look in front of the line. -/
theorem readLine_inside_iff :
    (∀ i, readLine config buffer ≠ .error (.outside i)) ↔
      buffer.takeWhile (· ≠ '\x00') ≠ [] ∧ buffer.takeWhile (· ≠ '\x00') ≠ ['\n'] := by
  constructor
  · intro h
    constructor
    · intro hempty
      apply h (-1)
      unfold readLine
      rw [hempty]
      rfl
    · intro hbreak
      apply h (-1)
      unfold readLine
      rw [hbreak]
      rfl
  · rintro ⟨hempty, hbreak⟩ i
    have hline : stripEnd '\n' (buffer.takeWhile (· ≠ '\x00')) ≠ [] := by
      intro hstrip
      unfold stripEnd at hstrip
      split at hstrip
      · rename_i hlast
        have happend := List.dropLast_append_getLast? _ hlast
        rw [hstrip] at happend
        exact hbreak happend.symm
      · exact hempty hstrip
    rw [readLine_of_trimmed hempty hline]
    exact assign_ne_outside _ _ i

/-- A line that starts with its line break is nothing else. -/
theorem fgets_of_head {room : Nat} (h : (fgets room content).1.head? = some '\n') :
    (fgets room content).1 = ['\n'] := by
  cases room with
  | zero => cases h
  | succ room =>
    cases content with
    | nil => cases h
    | cons c content =>
      unfold fgets at h ⊢
      by_cases hc : c = '\n'
      · rw [if_pos hc, hc]
      · rw [if_neg hc] at h
        exact absurd (Option.some.inj h) hc

/-- A call takes a character at least. -/
theorem fgets_cons_ne_nil (room : Nat) (c : Char) (content : List Char) :
    (fgets (room + 1) (c :: content)).1 ≠ [] := by
  unfold fgets
  split <;> simp

theorem mem_bufferLines {calls : Nat} (h : line ∈ bufferLines calls content) :
    ∃ content, content ≠ [] ∧ line = (fgets (configurationLineMaxlen - 1) content).1 := by
  induction calls generalizing content with
  | zero => exact absurd h List.not_mem_nil
  | succ calls ih =>
    cases content with
    | nil => exact absurd h List.not_mem_nil
    | cons c content =>
      unfold bufferLines at h
      rcases List.mem_cons.mp h with hfirst | hlater
      · exact ⟨c :: content, List.cons_ne_nil _ _, hfirst⟩
      · exact ih hlater

/-- On a line of a file the index stays on the line exactly when this starts with neither a line break nor a
null. -/
theorem readLine_inside_iff_head (h : line ∈ fileLines content) :
    (∀ i, readLine config line ≠ .error (.outside i)) ↔
      line.head? ≠ some '\n' ∧ line.head? ≠ some '\x00' := by
  obtain ⟨content', hcontent, rfl⟩ := mem_bufferLines h
  rw [readLine_inside_iff]
  cases hline : (fgets (configurationLineMaxlen - 1) content').1 with
  | nil =>
    cases content' with
    | nil => exact absurd rfl hcontent
    | cons c content' => exact absurd hline (fgets_cons_ne_nil 254 c content')
  | cons c line =>
    by_cases hnull : c = '\x00'
    · rw [hnull, List.takeWhile_cons_of_neg (by decide)]
      simp
    · rw [List.takeWhile_cons_of_pos (by simpa using hnull)]
      by_cases hbreak : c = '\n'
      · have honly : (fgets (configurationLineMaxlen - 1) content').1 = ['\n'] := fgets_of_head (by
          rw [hline, hbreak]
          rfl)
        rw [hline] at honly
        cases honly
        simp
      · simp [hnull, hbreak]

/-- A fold ends with an error at one of the items, behind those that gave none. -/
theorem foldlM_eq_error_iff {σ α ε : Type} {f : σ → α → Except ε σ} {s : σ} {xs : List α} {e : ε} :
    xs.foldlM f s = .error e ↔
      ∃ done x later s', xs = done ++ x :: later ∧ done.foldlM f s = .ok s' ∧ f s' x = .error e := by
  induction xs generalizing s with
  | nil =>
    constructor
    · intro h
      cases h
    · rintro ⟨done, x, later, s', hsplit, -⟩
      simp at hsplit
  | cons x xs ih =>
    rw [List.foldlM_cons]
    cases hx : f s x with
    | error e' =>
      constructor
      · intro h
        exact ⟨[], x, xs, s, rfl, rfl, hx.trans h⟩
      · rintro ⟨done, y, later, s', hsplit, hdone, hy⟩
        cases done with
        | nil =>
          cases hsplit
          cases hdone
          exact hx.symm.trans hy
        | cons z done =>
          cases hsplit
          rw [List.foldlM_cons, hx] at hdone
          cases hdone
    | ok s₁ =>
      show xs.foldlM f s₁ = .error e ↔ _
      rw [ih]
      constructor
      · rintro ⟨done, y, later, s', rfl, hdone, hy⟩
        refine ⟨x :: done, y, later, s', rfl, ?_, hy⟩
        rw [List.foldlM_cons, hx]
        exact hdone
      · rintro ⟨done, y, later, s', hsplit, hdone, hy⟩
        cases done with
        | nil =>
          cases hsplit
          cases hdone
          rw [hx] at hy
          cases hy
        | cons z done =>
          cases hsplit
          rw [List.foldlM_cons, hx] at hdone
          exact ⟨done, y, later, s', rfl, hdone, hy⟩

/-- Reading a file stays on every line exactly when no line that `fgets` returns starts with a line break or
a null; no line is asked for behind one that an exception was thrown for. -/
theorem read_inside_iff (content : List Char) :
    (∀ i, read (some content) ≠ .error (.outside i)) ↔
      ∀ done line later config, fileLines content = done ++ line :: later →
        done.foldlM readLine .create = .ok config →
        line.head? ≠ some '\n' ∧ line.head? ≠ some '\x00' := by
  constructor
  · intro h done line later config hsplit hdone
    have hmem : line ∈ fileLines content := by rw [hsplit]; simp
    have hinside : ∀ i, readLine config line ≠ .error (.outside i) := by
      intro i hline
      exact h i (foldlM_eq_error_iff.mpr ⟨done, line, later, config, hsplit, hdone, hline⟩)
    exact (readLine_inside_iff_head hmem).mp hinside
  · intro h i hread
    obtain ⟨done, line, later, config, hsplit, hdone, hline⟩ := foldlM_eq_error_iff.mp hread
    have hmem : line ∈ fileLines content := by rw [hsplit]; simp
    exact (readLine_inside_iff_head hmem).mpr (h done line later config hsplit hdone) i hline

/-- An empty line behind one that says something. -/
theorem read_emptyLine :
    read (some "gc.enable=no\n\ngc.limit=5\n".toList) = .error (.outside (-1)) := by
  rfl

end Outside

end ConfigurationReader

end EvQueue
