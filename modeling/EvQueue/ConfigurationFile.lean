import EvQueue.ConfigurationReader

/-!
# ConfigurationFile — what a file of quoted values sets

A value that stands in quotes is meant to be read back as it is.  In the loop over the value a tab and `#`
end it as well, since the test for an unquoted value covers the space only: such a value is cut, and what
is behind makes the line an error unless it looks like a comment.
-/

namespace EvQueue.ConfigurationReader

inductive Quote where
  | single
  | double
deriving DecidableEq, Repr

namespace Quote

def char : Quote → Char
  | single => '\''
  | double => '"'

def quoted : Quote → Quoted
  | single => .single
  | double => .double

end Quote

/-- A comment up to the end of its line. -/
structure Comment where
  text : List Char
  oneLine : '\n' ∉ text ∧ '\x00' ∉ text

/-- `key = 'value' # comment`. -/
structure QuotedLine where
  entry : List Char
  known : Configuration.Known entry
  before : List Char
  after : List Char
  quote : Quote
  value : List Char
  behind : List Char
  comment : Option Comment
  blanks : ∀ c ∈ before ++ after ++ behind, isBlank c = true
  plain : quote.char ∉ value ∧ '\n' ∉ value ∧ '\r' ∉ value ∧ '\x00' ∉ value

/-- A line with nothing but a comment. -/
structure CommentLine where
  before : List Char
  comment : Comment
  blanks : ∀ c ∈ before, isBlank c = true

inductive FileLine where
  | quoted (l : QuotedLine)
  | comment (l : CommentLine)

def Comment.chars (c : Comment) : List Char := '#' :: c.text

def QuotedLine.text (l : QuotedLine) : List Char :=
  l.entry ++ (l.before ++ '=' :: (l.after ++ l.quote.char ::
    (l.value ++ l.quote.char :: (l.behind ++ (l.comment.map Comment.chars).getD []))))

def CommentLine.text (l : CommentLine) : List Char := l.before ++ l.comment.chars

def FileLine.text : FileLine → List Char
  | quoted l => l.text
  | comment l => l.text

/-- The lines with their line breaks; behind the last one there may be none. -/
def brokenLines (newline : Bool) : List FileLine → List (List Char)
  | [] => []
  | [l] => [l.text ++ if newline then ['\n'] else []]
  | l :: l' :: lines => (l.text ++ ['\n']) :: brokenLines newline (l' :: lines)

def fileText (newline : Bool) (lines : List FileLine) : List Char := (brokenLines newline lines).flatten

/-- Every line fits into the buffer, with its line break and a terminator. -/
def Fits (newline : Bool) (lines : List FileLine) : Prop :=
  ∀ line ∈ brokenLines newline lines, line.length < configurationLineMaxlen

/-- The value that a line gives to an entry. -/
def FileLine.valueFor (entry : List Char) : FileLine → Option (List Char)
  | quoted l => if l.entry = entry then some l.value else none
  | comment _ => none

/-- The value in the last line of an entry. -/
def lastValue (entry : List Char) : List FileLine → Option (List Char)
  | [] => none
  | l :: lines => (lastValue entry lines).or (l.valueFor entry)

/-- The entries have the values of their last lines, and all others their defaults. -/
def ReadsBack (newline : Bool) (lines : List FileLine) : Prop :=
  ∃ config, read (some (fileText newline lines)) = .ok config ∧
    ∀ entry, Configuration.Known entry →
      config.get entry = (lastValue entry lines).or (Configuration.create.get entry)

/-! ## Values that are cut -/

/-- What ends a value even in quotes. -/
def cuts (c : Char) : Bool := c == '\t' || c == '#'

def Clean (value : List Char) : Prop := '\t' ∉ value ∧ '#' ∉ value

instance (value : List Char) : Decidable (Clean value) := inferInstanceAs (Decidable (_ ∧ _))

/-- Behind the first tab or `#`, which is passed by as if it were the quote, there is a comment. -/
def CutShort (value : List Char) : Prop :=
  ((value.dropWhile (!cuts ·)).tail.dropWhile isBlank).head? = some '#'

instance (value : List Char) : Decidable (CutShort value) :=
  inferInstanceAs (Decidable (_ = _))

def cut (value : List Char) : List Char := value.takeWhile (!cuts ·)

section Values

variable {value rest : List Char} {quote : Quote}

theorem clean_iff : Clean value ↔ ∀ c ∈ value, cuts c = false := by
  constructor
  · rintro ⟨htab, hhash⟩ c hc
    have hne : c ≠ '\t' := fun heq ↦ htab (heq ▸ hc)
    have hne' : c ≠ '#' := fun heq ↦ hhash (heq ▸ hc)
    simp [cuts, hne, hne']
  · intro h
    exact ⟨fun hin ↦ absurd (h _ hin) (by decide), fun hin ↦ absurd (h _ hin) (by decide)⟩

theorem dropWhile_eq_nil_iff_clean : value.dropWhile (!cuts ·) = [] ↔ Clean value := by
  rw [clean_iff, List.dropWhile_eq_nil_iff]
  simp

/-- Only a clean value is not cut. -/
theorem cut_eq_iff : cut value = value ↔ Clean value := by
  unfold cut
  rw [clean_iff, List.takeWhile_eq_self_iff]
  simp

/-- Up to the closing quote a value ends where it is cut. -/
theorem valueEnds_of_ne {c : Char} (h : c ≠ quote.char) : valueEnds quote.quoted c = cuts c := by
  have hquote := beq_eq_false_iff_ne.mpr h
  cases quote with
  | single =>
    show (c == '\t' || c == '#' || c == '\'' || false) = _
    rw [show (c == '\'') = false from hquote, Bool.or_false, Bool.or_false]
    rfl
  | double =>
    show (c == '\t' || c == '#' || false || c == '"') = _
    rw [show (c == '"') = false from hquote, Bool.or_false, Bool.or_false]
    rfl

theorem valueEnds_quote : valueEnds quote.quoted quote.char = true := by
  cases quote <;> decide

theorem Quote.quoted_ne_no (quote : Quote) : quote.quoted ≠ .no := by
  cases quote <;> decide

theorem Quote.char_plain (quote : Quote) :
    isBlank quote.char = false ∧ quote.char ≠ '#' ∧ quote.char ≠ '\r' ∧ quote.char ≠ '\n' ∧
      quote.char ≠ '\x00' := by
  cases quote <;> decide

/-- A loop over characters stops at the first one that does not meet its condition. -/
theorem span_of_stop {p : Char → Bool} {front : List Char} {stop : Char}
    (hfront : ∀ c ∈ front, p c = true) (hstop : p stop = false) (rest : List Char) :
    (front ++ stop :: rest).takeWhile p = front ∧ (front ++ stop :: rest).dropWhile p = stop :: rest := by
  have hneg : ¬p stop = true := by rw [hstop]; exact Bool.false_ne_true
  constructor
  · rw [List.takeWhile_append_of_pos hfront, List.takeWhile_cons_of_neg hneg, List.append_nil]
  · rw [List.dropWhile_append_of_pos hfront, List.dropWhile_cons_of_neg hneg]

/-- Whatever ends a quoted value is passed by; behind it only a comment may follow. -/
theorem takeBody_of_stop {front : List Char} {stop : Char}
    (hfront : ∀ c ∈ front, valueEnds quote.quoted c = false) (hstop : valueEnds quote.quoted stop = true) :
    takeBody quote.quoted (front ++ stop :: rest) = endLine front (rest.dropWhile isBlank) := by
  obtain ⟨htake, hdrop⟩ : (front ++ stop :: rest).takeWhile (!valueEnds quote.quoted ·) = front ∧
      (front ++ stop :: rest).dropWhile (!valueEnds quote.quoted ·) = stop :: rest :=
    span_of_stop (fun c hc ↦ by rw [hfront c hc]; rfl) (by rw [hstop]; rfl) rest
  unfold takeBody
  rw [if_neg (by simp), htake, hdrop, if_neg (fun h ↦ List.cons_ne_nil _ _ h.2)]
  dsimp only
  rw [if_pos quote.quoted_ne_no, List.tail_cons]

/-- A value that is not clean is cut in front of the first tab or `#` in it. -/
theorem exists_stop (h : ¬Clean value) :
    ∃ stop r, value = cut value ++ stop :: r ∧ cuts stop = true ∧ (∀ c ∈ cut value, cuts c = false) ∧
      (CutShort value ↔ (r.dropWhile isBlank).head? = some '#') := by
  cases hrest : value.dropWhile (!cuts ·) with
  | nil => exact absurd (dropWhile_eq_nil_iff_clean.mp hrest) h
  | cons stop r =>
    refine ⟨stop, r, ?_, ?_, ?_, ?_⟩
    · rw [← hrest]
      exact List.takeWhile_append_dropWhile.symm
    · have hhead := List.head_dropWhile_not (!cuts ·) (l := value) (by rw [hrest]; simp)
      simpa [hrest] using hhead
    · intro c hc
      simpa using List.mem_takeWhile_imp hc
    · unfold CutShort
      rw [hrest, List.tail_cons]

theorem takeBody_quoted {behind tail : List Char} (hvalue : quote.char ∉ value)
    (hbehind : ∀ c ∈ behind, isBlank c = true) (htail : tail = [] ∨ ∃ text, tail = '#' :: text) :
    takeBody quote.quoted (value ++ quote.char :: (behind ++ tail)) =
      if Clean value ∨ CutShort value then .ok (cut value) else .error "Garbage data after value" := by
  have hends : ∀ c ∈ value, valueEnds quote.quoted c = cuts c :=
    fun c hc ↦ valueEnds_of_ne fun heq ↦ hvalue (heq ▸ hc)
  by_cases hclean : Clean value
  · -- the value ends at its quote
    rw [takeBody_of_stop (fun c hc ↦ (hends c hc).trans (clean_iff.mp hclean c hc)) valueEnds_quote,
      List.dropWhile_append_of_pos hbehind, if_pos (.inl hclean), cut_eq_iff.mpr hclean]
    rcases htail with rfl | ⟨text, rfl⟩ <;> rfl
  · -- it ends at its first tab or `#`
    obtain ⟨stop, r, hsplit, hstop, hcut, hshort⟩ := exists_stop hclean
    have hfront : ∀ c ∈ cut value, valueEnds quote.quoted c = false := by
      intro c hc
      rw [hends c (by rw [hsplit]; exact List.mem_append_left _ hc)]
      exact hcut c hc
    have hends' : valueEnds quote.quoted stop = true := by
      rw [hends stop (by rw [hsplit]; simp)]
      exact hstop
    have hbody : value ++ quote.char :: (behind ++ tail) =
        cut value ++ stop :: (r ++ quote.char :: (behind ++ tail)) := by
      conv_lhs => rw [hsplit]
      rw [List.append_assoc, List.cons_append]
    rw [hbody, takeBody_of_stop hfront hends']
    cases hblanks : r.dropWhile isBlank with
    | nil =>
      -- there is nothing else, and the quote is no comment
      rw [hblanks] at hshort
      rw [List.dropWhile_append_of_pos (List.dropWhile_eq_nil_iff.mp hblanks),
        List.dropWhile_cons_of_neg (by simp [quote.char_plain.1])]
      rw [endLine, if_neg quote.char_plain.2.1, if_neg (not_or.mpr ⟨hclean, by rw [hshort]; simp⟩)]
    | cons d r' =>
      rw [hblanks] at hshort
      rw [List.dropWhile_append, hblanks]
      simp only [hclean, hshort, false_or, List.isEmpty_cons, Bool.false_eq_true, if_false,
        List.cons_append, List.head?_cons, Option.some.injEq, endLine]

end Values

/-! ## One line -/

section Line

variable {line rest : List Char}

theorem stripEnd_of_not_mem {c : Char} (h : c ∉ line) : stripEnd c line = line := by
  unfold stripEnd
  split
  · rename_i hlast
    exact absurd (List.mem_of_getLast? hlast) h
  · rfl

theorem stripEnd_append_cons (c : Char) (front : List Char) (d : Char) (rest : List Char) :
    stripEnd c (front ++ d :: rest) = front ++ stripEnd c (d :: rest) := by
  have hlast : (front ++ d :: rest).getLast? = (d :: rest).getLast? := by
    rw [List.getLast?_append_of_ne_nil _ (List.cons_ne_nil d rest)]
  unfold stripEnd
  rw [hlast, List.dropLast_append_of_ne_nil (List.cons_ne_nil d rest)]
  split <;> rfl

theorem stripEnd_append_singleton (c : Char) (front : List Char) : stripEnd c (front ++ [c]) = front := by
  unfold stripEnd
  rw [if_pos (by simp), List.dropLast_concat]

/-- A carriage return at the end of a comment is not one of its characters; it stays a comment. -/
theorem stripEnd_comment (c : Comment) : ∃ text, stripEnd '\r' c.chars = '#' :: text := by
  unfold Comment.chars stripEnd
  cases htext : c.text with
  | nil => exact ⟨[], by decide⟩
  | cons d text =>
    split
    · exact ⟨(d :: text).dropLast, by rw [List.dropLast_cons_cons]⟩
    · exact ⟨d :: text, rfl⟩

theorem isBlank_iff {c : Char} : isBlank c = true ↔ c = ' ' ∨ c = '\t' := by
  simp [isBlank]

/-- No entry is empty, and its characters are those the loop over it takes. -/
theorem entries_isEntry : ∀ i < configurationEntries, Configuration.entries i ≠ [] ∧
    (Configuration.entries i).all isEntry = true := by
  decide +kernel

theorem isEntry_of_known {entry : List Char} (h : Configuration.Known entry) :
    entry ≠ [] ∧ ∀ c ∈ entry, isEntry c = true := by
  obtain ⟨i, hi, rfl⟩ := h
  obtain ⟨hne, hall⟩ := entries_isEntry i hi
  exact ⟨hne, by simpa using hall⟩

theorem not_isEntry_of_isBlank {c : Char} (h : isBlank c = true) : isEntry c = false := by
  rcases isBlank_iff.mp h with rfl | rfl <;> decide

theorem takeEntry_known {entry before : List Char} (hentry : Configuration.Known entry)
    (hbefore : ∀ c ∈ before, isBlank c = true) :
    takeEntry (entry ++ (before ++ '=' :: rest)) = .ok (entry, rest) := by
  obtain ⟨hne, hall⟩ := isEntry_of_known hentry
  -- a blank or `=` is behind the entry
  obtain ⟨c, tail, htail, hc⟩ : ∃ c tail, before ++ '=' :: rest = c :: tail ∧ isEntry c = false := by
    cases before with
    | nil => exact ⟨'=', rest, rfl, by decide⟩
    | cons c before =>
      exact ⟨c, before ++ '=' :: rest, rfl, not_isEntry_of_isBlank (hbefore c List.mem_cons_self)⟩
  obtain ⟨htake, hdrop⟩ := span_of_stop hall hc tail
  obtain ⟨-, hblanks⟩ := span_of_stop hbefore (by decide : isBlank '=' = false) rest
  unfold takeEntry
  rw [htail, htake, hdrop, if_neg hne, if_neg (List.cons_ne_nil _ _), ← htail, hblanks]
  rfl

theorem takeValue_quoted {after : List Char} (hafter : ∀ c ∈ after, isBlank c = true) (quote : Quote) :
    takeValue (after ++ quote.char :: rest) = takeBody quote.quoted rest := by
  obtain ⟨-, hblanks⟩ := span_of_stop hafter quote.char_plain.1 rest
  unfold takeValue
  rw [hblanks]
  cases quote <;> rfl

namespace QuotedLine

variable (l : QuotedLine)

theorem blank_before : ∀ c ∈ l.before, isBlank c = true := fun c hc ↦ l.blanks c (by simp [hc])

theorem blank_after : ∀ c ∈ l.after, isBlank c = true := fun c hc ↦ l.blanks c (by simp [hc])

theorem blank_behind : ∀ c ∈ l.behind, isBlank c = true := fun c hc ↦ l.blanks c (by simp [hc])

/-- The line with another tail behind the blanks at its end. -/
def withTail (tail : List Char) : List Char :=
  l.entry ++ (l.before ++ '=' :: (l.after ++ l.quote.char ::
    (l.value ++ l.quote.char :: (l.behind ++ tail))))

theorem parseLine_withTail {tail : List Char} (htail : tail = [] ∨ ∃ text, tail = '#' :: text) :
    parseLine (l.withTail tail) =
      if Clean l.value ∨ CutShort l.value then .ok (some (l.entry, cut l.value))
      else .error "Garbage data after value" := by
  obtain ⟨hne, hall⟩ := isEntry_of_known l.known
  have hentry : takeEntry (l.withTail tail) =
      .ok (l.entry, l.after ++ l.quote.char :: (l.value ++ l.quote.char :: (l.behind ++ tail))) :=
    takeEntry_known l.known l.blank_before
  have hvalue := takeBody_quoted l.plain.1 l.blank_behind htail
  unfold withTail at hentry ⊢
  cases hchars : l.entry with
  | nil => exact absurd hchars hne
  | cons c entry =>
    have hc := hall c (by rw [hchars]; exact List.mem_cons_self)
    have hblank : ¬isBlank c = true := by
      intro hblank
      rw [not_isEntry_of_isBlank hblank] at hc
      cases hc
    have hhash : c ≠ '#' := by
      rintro rfl
      exact absurd hc (by decide)
    rw [hchars] at hentry
    unfold parseLine
    rw [List.cons_append, List.dropWhile_cons_of_neg hblank]
    dsimp only
    rw [if_neg hhash, ← List.cons_append, hentry]
    simp only [Except.bind, takeValue_quoted l.blank_after, hvalue]
    split <;> rfl

/-- Everything in front of the closing quote. -/
def front : List Char := l.entry ++ (l.before ++ '=' :: (l.after ++ l.quote.char :: l.value))

theorem withTail_eq (tail : List Char) :
    l.withTail tail = l.front ++ l.quote.char :: (l.behind ++ tail) := by
  simp [withTail, front]

theorem stripEnd_text : ∃ tail, stripEnd '\r' l.text = l.withTail tail ∧
    (tail = [] ∨ ∃ text, tail = '#' :: text) := by
  have htext : l.text = l.withTail ((l.comment.map Comment.chars).getD []) := rfl
  rw [htext, withTail_eq]
  cases l.comment with
  | none =>
    -- a quote and blanks are at the end
    have hreturn : '\r' ∉ l.quote.char :: l.behind := by
      rw [List.mem_cons, not_or]
      refine ⟨fun heq ↦ l.quote.char_plain.2.2.1 heq.symm, fun hin ↦ ?_⟩
      exact absurd (l.blank_behind _ hin) (by decide)
    refine ⟨[], ?_, .inl rfl⟩
    rw [stripEnd_append_cons, withTail_eq, Option.map_none, Option.getD_none, List.append_nil,
      stripEnd_of_not_mem hreturn]
  | some c =>
    obtain ⟨text, htail⟩ := stripEnd_comment c
    refine ⟨'#' :: text, ?_, .inr ⟨text, rfl⟩⟩
    rw [Option.map_some, Option.getD_some, withTail_eq, ← htail, ← List.cons_append, ← List.append_assoc,
      ← List.cons_append, ← List.append_assoc]
    exact stripEnd_append_cons _ _ _ _

theorem parseLine_text : parseLine (stripEnd '\r' l.text) =
    if Clean l.value ∨ CutShort l.value then .ok (some (l.entry, cut l.value))
    else .error "Garbage data after value" := by
  obtain ⟨tail, htext, htail⟩ := l.stripEnd_text
  rw [htext, l.parseLine_withTail htail]

end QuotedLine

theorem CommentLine.parseLine_text (l : CommentLine) : parseLine (stripEnd '\r' l.text) = .ok none := by
  obtain ⟨text, htail⟩ := stripEnd_comment l.comment
  obtain ⟨-, hblanks⟩ := span_of_stop l.blanks (by decide : isBlank '#' = false) text
  have htext : stripEnd '\r' l.text = l.before ++ '#' :: text := by
    rw [← htail]
    exact stripEnd_append_cons _ _ _ _
  unfold parseLine
  rw [htext, hblanks]
  rfl

/-- The characters that end a line, or the string in the buffer. -/
def isEnd (c : Char) : Bool := c == '\n' || c == '\x00'

theorem isEnd_iff {c : Char} : isEnd c = true ↔ c = '\n' ∨ c = '\x00' := by
  simp [isEnd]

theorem not_isEnd_of_isBlank {c : Char} (h : isBlank c = true) : isEnd c = false := by
  rcases isBlank_iff.mp h with rfl | rfl <;> decide

theorem not_isEnd_of_isEntry {c : Char} (h : isEntry c = true) : isEnd c = false := by
  rw [Bool.eq_false_iff]
  intro hend
  rcases isEnd_iff.mp hend with rfl | rfl <;> exact absurd h (by decide)

theorem Comment.not_isEnd (c : Comment) : ∀ d ∈ c.chars, isEnd d = false := by
  intro d hd
  rw [Bool.eq_false_iff]
  intro hend
  unfold Comment.chars at hd
  rcases isEnd_iff.mp hend with rfl | rfl
  · exact c.oneLine.1 (by simpa using hd)
  · exact c.oneLine.2 (by simpa using hd)

theorem QuotedLine.not_isEnd (l : QuotedLine) : ∀ c ∈ l.text, isEnd c = false := by
  have hvalue : ∀ c ∈ l.value, isEnd c = false := by
    intro c hc
    rw [Bool.eq_false_iff]
    intro hend
    rcases isEnd_iff.mp hend with rfl | rfl
    · exact l.plain.2.1 hc
    · exact l.plain.2.2.2 hc
  have hquote : isEnd l.quote.char = false := by cases l.quote <;> decide
  intro c hc
  unfold QuotedLine.text at hc
  simp only [List.mem_append, List.mem_cons] at hc
  rcases hc with hc | hc | rfl | hc | rfl | hc | rfl | hc | hc
  · exact not_isEnd_of_isEntry ((isEntry_of_known l.known).2 c hc)
  · exact not_isEnd_of_isBlank (l.blank_before c hc)
  · decide
  · exact not_isEnd_of_isBlank (l.blank_after c hc)
  · exact hquote
  · exact hvalue c hc
  · exact hquote
  · exact not_isEnd_of_isBlank (l.blank_behind c hc)
  · cases hcomment : l.comment with
    | none =>
      rw [hcomment] at hc
      exact absurd hc List.not_mem_nil
    | some comment =>
      rw [hcomment] at hc
      exact comment.not_isEnd c hc

namespace FileLine

variable (l : FileLine)

theorem not_isEnd : ∀ c ∈ l.text, isEnd c = false := by
  cases l with
  | quoted l => exact l.not_isEnd
  | comment l =>
    intro c hc
    rcases List.mem_append.mp hc with hblank | hcomment
    · exact not_isEnd_of_isBlank (l.blanks c hblank)
    · exact l.comment.not_isEnd c hcomment

theorem text_ne_nil : l.text ≠ [] := by
  cases l with
  | quoted l => simp [FileLine.text, QuotedLine.text]
  | comment l => simp [FileLine.text, CommentLine.text, Comment.chars]

/-- What the line is read as. -/
def parsed : FileLine → Except String (Option (List Char × List Char))
  | quoted l =>
      if Clean l.value ∨ CutShort l.value then .ok (some (l.entry, cut l.value))
      else .error "Garbage data after value"
  | comment _ => .ok none

theorem parseLine_text : parseLine (stripEnd '\r' l.text) = l.parsed := by
  cases l with
  | quoted l => exact l.parseLine_text
  | comment l => exact l.parseLine_text

/-- With its line break, or at the end of the file without it. -/
theorem readLine_text (config : Configuration) (newline : Bool) :
    readLine config (l.text ++ if newline then ['\n'] else []) = assign config l.parsed := by
  have hbreak : '\n' ∉ l.text := fun hin ↦ absurd (l.not_isEnd _ hin) (by decide)
  have hnull : ∀ c ∈ l.text ++ (if newline then ['\n'] else []), decide (c ≠ '\x00') = true := by
    intro c hc
    rw [decide_eq_true_iff]
    rintro rfl
    rcases List.mem_append.mp hc with hin | hin
    · exact absurd (l.not_isEnd _ hin) (by decide)
    · cases newline <;> simp at hin
  have hstrip : stripEnd '\n' (l.text ++ if newline then ['\n'] else []) = l.text := by
    cases newline with
    | false =>
      show stripEnd '\n' (l.text ++ []) = l.text
      rw [List.append_nil, stripEnd_of_not_mem hbreak]
    | true => exact stripEnd_append_singleton _ _
  have hwhole := List.takeWhile_eq_self_iff.mpr hnull
  rw [readLine_of_trimmed, hwhole, hstrip, l.parseLine_text]
  · rw [hwhole]
    simp [l.text_ne_nil]
  · rw [hwhole, hstrip]
    exact l.text_ne_nil

end FileLine

end Line

/-! ## All lines of a file -/

section File

variable {text rest : List Char} {lines : List FileLine} {newline : Bool}

theorem fgets_newline {room : Nat} (htext : '\n' ∉ text) (hroom : text.length < room) :
    fgets room (text ++ '\n' :: rest) = (text ++ ['\n'], rest) := by
  induction text generalizing room with
  | nil =>
    cases room with
    | zero => exact absurd hroom (Nat.not_lt_zero _)
    | succ room => rfl
  | cons c text ih =>
    rw [List.mem_cons, not_or] at htext
    cases room with
    | zero => exact absurd hroom (Nat.not_lt_zero _)
    | succ room =>
      have hlater : fgets room (text ++ '\n' :: rest) = (text ++ ['\n'], rest) :=
        ih htext.2 (by simpa using hroom)
      rw [List.cons_append, List.cons_append]
      unfold fgets
      rw [if_neg (fun heq ↦ htext.1 heq.symm), hlater]

theorem fgets_end {room : Nat} (htext : '\n' ∉ text) (hroom : text.length ≤ room) :
    fgets room text = (text, []) := by
  induction text generalizing room with
  | nil => cases room <;> rfl
  | cons c text ih =>
    rw [List.mem_cons, not_or] at htext
    cases room with
    | zero => exact absurd hroom (Nat.not_succ_le_zero _)
    | succ room =>
      have hlater : fgets room text = (text, []) := ih htext.2 (by simpa using hroom)
      unfold fgets
      rw [if_neg (fun heq ↦ htext.1 heq.symm), hlater]

theorem bufferLines_of_fgets {calls : Nat} {content line : List Char} (hcontent : content ≠ [])
    (h : fgets (configurationLineMaxlen - 1) content = (line, rest)) :
    bufferLines (calls + 1) content = line :: bufferLines calls rest := by
  cases content with
  | nil => exact absurd rfl hcontent
  | cons c content =>
    conv_lhs => unfold bufferLines
    rw [h]

/-- `fgets` returns the lines as they are. -/
theorem bufferLines_fileText {calls : Nat} (hfits : Fits newline lines) (hcalls : lines.length ≤ calls) :
    bufferLines calls (fileText newline lines) = brokenLines newline lines := by
  unfold Fits at hfits
  unfold fileText
  induction lines generalizing calls with
  | nil => cases calls <;> rfl
  | cons l lines ih =>
    obtain ⟨calls, rfl⟩ : ∃ n, calls = n + 1 := ⟨calls - 1, by
      rw [List.length_cons] at hcalls
      omega⟩
    have hbreak : '\n' ∉ l.text := fun hin ↦ absurd (l.not_isEnd _ hin) (by decide)
    have hne : l.text ≠ [] := l.text_ne_nil
    cases lines with
    | nil =>
      have hfit := hfits (l.text ++ if newline then ['\n'] else []) (by simp [brokenLines])
      unfold configurationLineMaxlen at hfit
      show bufferLines _ ((l.text ++ if newline then ['\n'] else []) ++ []) = _
      rw [List.append_nil]
      cases newline with
      | false =>
        simp only [Bool.false_eq_true, if_false, List.append_nil] at hfit ⊢
        rw [bufferLines_of_fgets hne (fgets_end hbreak (by unfold configurationLineMaxlen; omega))]
        cases calls <;> simp [bufferLines, brokenLines]
      | true =>
        simp only [if_true, List.length_append, List.length_singleton] at hfit ⊢
        have hline : fgets (configurationLineMaxlen - 1) (l.text ++ ['\n']) = (l.text ++ ['\n'], []) :=
          fgets_newline hbreak (by unfold configurationLineMaxlen; omega)
        rw [bufferLines_of_fgets (by simp) hline]
        cases calls <;> simp [bufferLines, brokenLines]
    | cons l' lines =>
      have hfit := hfits (l.text ++ ['\n']) (by simp [brokenLines])
      unfold configurationLineMaxlen at hfit
      rw [List.length_append, List.length_singleton] at hfit
      have hlater : bufferLines calls (brokenLines newline (l' :: lines)).flatten =
          brokenLines newline (l' :: lines) := ih
        (fun line hline ↦ hfits line (by unfold brokenLines; exact List.mem_cons_of_mem _ hline))
        (by simpa using hcalls)
      unfold brokenLines
      rw [List.flatten_cons, List.append_assoc, List.singleton_append, bufferLines_of_fgets (by simp)
        (fgets_newline hbreak (by unfold configurationLineMaxlen; omega)), hlater]

theorem length_le_fileText (newline : Bool) (lines : List FileLine) :
    lines.length ≤ (fileText newline lines).length := by
  unfold fileText
  induction lines with
  | nil => exact Nat.zero_le _
  | cons l lines ih =>
    have hpos := List.length_pos_iff.mpr l.text_ne_nil
    cases lines with
    | nil =>
      simp only [brokenLines, List.flatten_cons, List.length_append, List.length_cons, List.length_nil]
      omega
    | cons l' lines =>
      unfold brokenLines
      simp only [List.flatten_cons, List.length_append, List.length_cons, List.length_nil] at ih ⊢
      omega

/-- Reading a file assigns what each of its lines is read as. -/
theorem read_fileText (hfits : Fits newline lines) :
    read (some (fileText newline lines)) =
      lines.foldlM (fun config l ↦ assign config l.parsed) Configuration.create := by
  have hlines : fileLines (fileText newline lines) = brokenLines newline lines :=
    bufferLines_fileText hfits (length_le_fileText newline lines)
  show (fileLines (fileText newline lines)).foldlM readLine .create = _
  rw [hlines]
  generalize Configuration.create = config
  clear hlines hfits
  induction lines generalizing config with
  | nil => rfl
  | cons l lines ih =>
    cases lines with
    | nil =>
      show [l.text ++ if newline then ['\n'] else []].foldlM readLine config = _
      rw [List.foldlM_cons, List.foldlM_cons, l.readLine_text config newline]
      rfl
    | cons l' lines =>
      have hline := l.readLine_text config true
      unfold brokenLines
      rw [List.foldlM_cons, List.foldlM_cons]
      rw [if_pos rfl] at hline
      rw [hline]
      congr 1
      funext config'
      exact ih config'

theorem QuotedLine.parsed_eq (l : QuotedLine) : (FileLine.quoted l).parsed =
    if Clean l.value ∨ CutShort l.value then .ok (some (l.entry, cut l.value))
    else .error "Garbage data after value" := rfl

theorem QuotedLine.valueFor_eq (l : QuotedLine) (entry : List Char) :
    (FileLine.quoted l).valueFor entry = if l.entry = entry then some l.value else none := rfl

theorem lastValue_cons (entry : List Char) (l : FileLine) (lines : List FileLine) :
    lastValue entry (l :: lines) = (lastValue entry lines).or (l.valueFor entry) := rfl

/-- The value of the line, if it has one, is not refused. -/
def FileLine.Accepted : FileLine → Prop
  | .quoted l => Clean l.value ∨ CutShort l.value
  | .comment _ => True

theorem assign_of_accepted {l : FileLine} (h : l.Accepted) (config : Configuration) :
    ∃ config', assign config l.parsed = .ok config' ∧
      ∀ entry, config'.get entry = ((l.valueFor entry).map cut).or (config.get entry) := by
  cases l with
  | comment l => exact ⟨config, rfl, fun _ ↦ rfl⟩
  | quoted l =>
    obtain ⟨config', hset, hget, hother⟩ := Configuration.set_of_known l.known config (cut l.value)
    refine ⟨config', ?_, ?_⟩
    · rw [l.parsed_eq, if_pos (show Clean l.value ∨ CutShort l.value from h), assign, hset]
    · intro entry
      rw [l.valueFor_eq]
      by_cases heq : l.entry = entry
      · rw [if_pos heq, ← heq, hget]
        rfl
      · rw [if_neg heq, hother entry (fun h ↦ heq h.symm)]
        rfl

theorem accepted_of_assign {l : FileLine} {config config' : Configuration}
    (h : assign config l.parsed = .ok config') : l.Accepted := by
  cases l with
  | comment l => trivial
  | quoted l =>
    rw [l.parsed_eq] at h
    by_cases haccepted : Clean l.value ∨ CutShort l.value
    · exact haccepted
    · rw [if_neg haccepted] at h
      cases h

/-- The last line of an entry decides about it. -/
theorem foldlM_assign_of_accepted (h : ∀ l ∈ lines, l.Accepted) (config : Configuration) :
    ∃ config', lines.foldlM (fun config l ↦ assign config l.parsed) config = .ok config' ∧
      ∀ entry, config'.get entry = ((lastValue entry lines).map cut).or (config.get entry) := by
  induction lines generalizing config with
  | nil => exact ⟨config, rfl, fun _ ↦ rfl⟩
  | cons l lines ih =>
    obtain ⟨config₁, hassign, hget₁⟩ := assign_of_accepted (h l List.mem_cons_self) config
    obtain ⟨config', hlater, hget⟩ := ih (fun l' hl' ↦ h l' (List.mem_cons_of_mem _ hl')) config₁
    refine ⟨config', ?_, ?_⟩
    · rw [List.foldlM_cons, hassign]
      exact hlater
    · intro entry
      rw [hget entry, hget₁ entry, lastValue_cons]
      cases lastValue entry lines <;> cases l.valueFor entry <;> rfl

theorem accepted_of_foldlM {config config' : Configuration}
    (h : lines.foldlM (fun config l ↦ assign config l.parsed) config = .ok config') :
    ∀ l ∈ lines, l.Accepted := by
  induction lines generalizing config with
  | nil => exact fun l hl ↦ absurd hl List.not_mem_nil
  | cons l lines ih =>
    rw [List.foldlM_cons] at h
    cases hassign : assign config l.parsed with
    | error e =>
      rw [hassign] at h
      cases h
    | ok config₁ =>
      rw [hassign] at h
      intro l' hl'
      rcases List.mem_cons.mp hl' with rfl | hin
      · exact accepted_of_assign hassign
      · exact ih h l' hin

theorem known_of_lastValue {entry value : List Char} (h : lastValue entry lines = some value) :
    Configuration.Known entry := by
  induction lines with
  | nil => cases h
  | cons l lines ih =>
    rw [lastValue_cons] at h
    cases hlater : lastValue entry lines with
    | some value' =>
      rw [hlater] at h ih
      exact ih h
    | none =>
      rw [hlater, Option.none_or] at h
      cases l with
      | comment l => cases h
      | quoted l =>
        rw [l.valueFor_eq] at h
        by_cases heq : l.entry = entry
        · exact heq ▸ l.known
        · rw [if_neg heq] at h
          cases h

/-- A file is read back exactly when no line is refused, and in the last line of each entry there is neither
a tab nor a `#` in the value. -/
theorem readsBack_iff (hfits : Fits newline lines) :
    ReadsBack newline lines ↔
      (∀ l, FileLine.quoted l ∈ lines → Clean l.value ∨ CutShort l.value) ∧
        ∀ entry value, lastValue entry lines = some value → Clean value := by
  have hquoted : (∀ l, FileLine.quoted l ∈ lines → Clean l.value ∨ CutShort l.value) ↔
      ∀ l ∈ lines, l.Accepted := by
    constructor
    · intro h l hl
      cases l with
      | comment l => trivial
      | quoted l => exact h l hl
    · exact fun h l hl ↦ h _ hl
  unfold ReadsBack
  rw [read_fileText hfits, hquoted]
  constructor
  · rintro ⟨config, hread, hget⟩
    have haccepted := accepted_of_foldlM hread
    obtain ⟨config', hread', hget'⟩ := foldlM_assign_of_accepted haccepted Configuration.create
    obtain rfl : config = config' := Except.ok.inj (hread.symm.trans hread')
    refine ⟨haccepted, ?_⟩
    intro entry value hlast
    have hsame := (hget entry (known_of_lastValue hlast)).symm.trans (hget' entry)
    rw [hlast] at hsame
    exact cut_eq_iff.mp (Option.some.inj hsame).symm
  · rintro ⟨haccepted, hclean⟩
    obtain ⟨config, hread, hget⟩ := foldlM_assign_of_accepted haccepted Configuration.create
    refine ⟨config, hread, ?_⟩
    intro entry _
    rw [hget entry]
    cases hlast : lastValue entry lines with
    | none => rfl
    | some value => rw [Option.map_some, cut_eq_iff.mpr (hclean entry value hlast)]

/-- `key = 'value'`. -/
def QuotedLine.single (entry value : List Char) (known : Configuration.Known entry)
    (plain : '\'' ∉ value ∧ '\n' ∉ value ∧ '\r' ∉ value ∧ '\x00' ∉ value) : QuotedLine where
  entry
  known
  before := [' ']
  after := [' ']
  quote := .single
  value
  behind := []
  comment := none
  blanks := by simp [isBlank]
  plain

theorem readsBack_password :
    ReadsBack true
      [.comment ⟨['\t'], ⟨" the database".toList, by decide⟩, by simp [isBlank]⟩,
       .quoted (.single "mysql.password".toList "a \"b\" = c".toList ⟨13, by decide, by decide⟩ (by decide))] := by
  apply (readsBack_iff (by unfold Fits; decide)).mpr
  constructor
  · intro l hl
    left
    rcases List.mem_cons.mp hl with hcomment | hquoted
    · cases hcomment
    · cases List.mem_singleton.mp hquoted
      decide
  · intro entry value hlast
    simp only [lastValue, FileLine.valueFor, Option.none_or, Option.or_none] at hlast
    split at hlast
    · cases hlast
      decide
    · cases hlast

/-- A password with a `#` is taken for one that a comment follows, without its quote. -/
theorem not_readsBack_password :
    read (some "mysql.password = 'pass#word'\n".toList) =
        .error (.raised ⟨"ConfigurationReader", "Garbage data after value"⟩) ∧
      ¬ReadsBack true
        [.quoted (.single "mysql.password".toList "pass#word".toList ⟨13, by decide, by decide⟩
          (by decide))] := by
  have hread : read (some "mysql.password = 'pass#word'\n".toList) =
      .error (.raised ⟨"ConfigurationReader", "Garbage data after value"⟩) := rfl
  refine ⟨hread, ?_⟩
  rintro ⟨config, hok, -⟩
  cases hread.symm.trans hok

end File

end EvQueue.ConfigurationReader
