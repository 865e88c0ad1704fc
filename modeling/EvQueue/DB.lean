import Mathlib.Algebra.Group.Int.Defs
import Mathlib.Algebra.Group.Nat.Defs
import Mathlib.Algebra.GroupWithZero.Nat
import EvQueue.Base.SparseBuffer

/-!
# DB — statements with arguments

`QueryPrintf` goes over its format twice: the first pass adds up how much room the arguments need at most,
the second writes the statement into a buffer of that size.  Sizes and indexes are `int`s, lengths of
strings are not.
-/

namespace EvQueue

/-- The characters of a string in memory, one a byte, in front of its terminator. -/
structure CString where
  chars : List Char
  terminated : '\x00' ∉ chars
deriving DecidableEq

/-- `s[i]`; the terminator follows the characters. -/
def CString.get (s : CString) (i : Nat) : Char := s.chars[i]?.getD '\x00'

namespace DB

/-- An argument behind the format. -/
inductive Pointer where
  | null
  | string (s : CString)
  | int (n : Int32)
deriving DecidableEq

/-- An `int` keeps the low 32 bits of what is assigned to it. -/
def narrow (n : Int) : Int := n.bmod (2 ^ 32)

/-- What `%d` makes of an `int`. -/
def decimal (n : Int) : List Char := (if n < 0 then ['-'] else []) ++ Nat.toDigits 10 n.natAbs

/-! ## The first pass -/

structure Sizing where
  i : Nat
  escapedLen : Int
  ap : List Pointer
  /-- The arguments taken so far, kept for the statements only. -/
  taken : List Pointer

/-- One round of the first loop; `none` when `va_arg` has no argument, or one of another type. -/
def sizeRound (query : CString) (s : Sizing) : Option Sizing :=
  if query.get s.i = '%' then
    if query.get (s.i + 1) = 's' then
      match s.ap with
      | .string arg :: ap =>
          some { i := s.i + 2
                 escapedLen := narrow (s.escapedLen + (2 + 2 * arg.chars.length))
                 ap
                 taken := s.taken ++ [.string arg] }
      | .null :: ap =>
          some { i := s.i + 2
                 escapedLen := narrow (s.escapedLen + 4)
                 ap
                 taken := s.taken ++ [.null] }
      | _ => none
    else if query.get (s.i + 1) = 'i' then
      match s.ap with
      | .int n :: ap =>
          some { i := s.i + 2
                 escapedLen := narrow (s.escapedLen + 16)
                 ap
                 taken := s.taken ++ [.int n] }
      | .null :: ap =>
          some { i := s.i + 2
                 escapedLen := narrow (s.escapedLen + 4)
                 ap
                 taken := s.taken ++ [.null] }
      | _ => none
    else some { s with i := s.i + 1, escapedLen := narrow (s.escapedLen + 1) }
  else some { s with i := s.i + 1, escapedLen := narrow (s.escapedLen + 1) }

/-- `for(int i=0;i<len;i++)`.  Every round moves `i` by one at least, and `len` is not greater than the length
of the format, so there are not more rounds than characters. -/
def sizeLoop (query : CString) (len : Int) : Nat → Sizing → Option Sizing
  | 0, s => some s
  | rounds + 1, s =>
      if s.i < len then (sizeRound query s).bind (sizeLoop query len rounds) else some s

/-! ## The second pass -/

structure Writing where
  i : Nat
  j : Int
  ap : List Pointer
  buffer : SparseBuffer Char
  /-- The arguments taken so far, kept for the statements only. -/
  taken : List Pointer

/-- A function of the C library writes a string and its terminator, and the length is added to `j`. -/
def Writing.print (s : Writing) (text : List Char) : Writing :=
  { s with
    j := narrow (s.j + text.length)
    buffer := s.buffer.store s.j (text ++ ['\x00']) }

/-- `escaped_query[j++] = c`. -/
def Writing.put (s : Writing) (c : Char) : Writing :=
  { s with
    j := narrow (s.j + 1)
    buffer := s.buffer.store s.j [c] }

/-- `va_arg`, and `i++` besides that of the loop. -/
def Writing.next (s : Writing) (arg : Pointer) (ap : List Pointer) : Writing :=
  { s with
    i := s.i + 2
    ap
    taken := s.taken ++ [arg] }

/-- One round of the second loop. -/
def writeRound (escape : CString → List Char) (query : CString) (s : Writing) : Option Writing :=
  if query.get s.i = '%' then
    if query.get (s.i + 1) = 's' then
      match s.ap with
      | .string arg :: ap =>
          some ((((s.next (.string arg) ap).put '\'').print (escape arg)).put '\'')
      | .null :: ap => some ((s.next .null ap).print "NULL".toList)
      | _ => none
    else if query.get (s.i + 1) = 'i' then
      match s.ap with
      | .int n :: ap => some ((s.next (.int n) ap).print (decimal n.toInt))
      | .null :: ap => some ((s.next .null ap).print "NULL".toList)
      | _ => none
    else some { s.put (query.get s.i) with i := s.i + 1 }
  else some { s.put (query.get s.i) with i := s.i + 1 }

def writeLoop (escape : CString → List Char) (query : CString) (len : Int) :
    Nat → Writing → Option Writing
  | 0, s => some s
  | rounds + 1, s =>
      if s.i < len then (writeRound escape query s).bind (writeLoop escape query len rounds) else some s

/-- How a statement is not made: an argument is missing or of another type, or the size of the buffer is
negative, which `new` throws `std::bad_array_new_length` for. -/
inductive PrintStop where
  | badArgument
  | badArrayNewLength
deriving DecidableEq

structure Printed where
  escapedLen : Int
  /-- The statement, as `Query` gets it. -/
  escapedQuery : SparseBuffer Char
  /-- The arguments that each of the passes has taken. -/
  sized : List Pointer
  written : List Pointer

/-- `len = strlen(query)`. -/
def formatLen (query : CString) : Int := narrow query.chars.length

/-- `QueryPrintf` down to its call of `Query`; `escape` is `mysql_real_escape_string` on the connection. -/
def queryPrintf (escape : CString → List Char) (query : CString) (args : List Pointer) :
    Except PrintStop Printed :=
  match sizeLoop query (formatLen query) query.chars.length ⟨0, 0, args, []⟩ with
  | none => .error .badArgument
  | some sized =>
      if narrow (sized.escapedLen + 1) < 0 then .error .badArrayNewLength
      else
        match writeLoop escape query (formatLen query) query.chars.length ⟨0, 0, args, .empty, []⟩ with
        | none => .error .badArgument
        | some written =>
            .ok
              { escapedLen := sized.escapedLen
                escapedQuery := written.buffer.store written.j ['\x00']
                sized := sized.taken
                written := written.taken }

/-! ## What the format asks for -/

inductive Directive where
  | string
  | int
  | byte (c : Char)
deriving DecidableEq

/-- `%s` and `%i` are directives, and everything else is copied. -/
def directives : List Char → List Directive
  | [] => []
  | [c] => [.byte c]
  | c :: d :: rest =>
      if c = '%' ∧ d = 's' then .string :: directives rest
      else if c = '%' ∧ d = 'i' then .int :: directives rest
      else .byte c :: directives (d :: rest)

/-- A directive with its argument. -/
inductive Field where
  | byte (c : Char)
  | null
  | string (s : CString)
  | int (n : Int32)
deriving DecidableEq

/-- The fields of a statement, if there is one pointer for each directive, and no other. -/
def fields : List Directive → List Pointer → Option (List Field)
  | [], [] => some []
  | .byte c :: ds, args => (fields ds args).map (.byte c :: ·)
  | .string :: ds, .string s :: args => (fields ds args).map (.string s :: ·)
  | .string :: ds, .null :: args => (fields ds args).map (.null :: ·)
  | .int :: ds, .int n :: args => (fields ds args).map (.int n :: ·)
  | .int :: ds, .null :: args => (fields ds args).map (.null :: ·)
  | _, _ => none

namespace Field

/-- What stands in the statement. -/
def text (escape : CString → List Char) : Field → List Char
  | byte c => [c]
  | null => "NULL".toList
  | string s => '\'' :: escape s ++ ['\'']
  | int n => decimal n.toInt

/-- The room that is counted for it. -/
def room : Field → Nat
  | byte _ => 1
  | null => 4
  | string s => 2 + 2 * s.chars.length
  | int _ => 16

def pointer : Field → List Pointer
  | byte _ => []
  | null => [.null]
  | string s => [.string s]
  | int n => [.int n]

def width : Field → Nat
  | byte _ => 1
  | _ => 2

end Field

def text (escape : CString → List Char) (fs : List Field) : List Char := fs.flatMap (Field.text escape)

def room (fs : List Field) : Nat := (fs.map Field.room).sum

/-- Both passes take the arguments in their order, nothing is written outside the buffer, and it holds the
statement with its terminator. -/
def Agrees (escape : CString → List Char) (query : CString) (args : List Pointer) (fs : List Field) :
    Prop :=
  ∃ p, queryPrintf escape query args = .ok p ∧ p.sized = args ∧ p.written = args ∧
    p.escapedQuery.Within (p.escapedLen + 1) ∧ p.escapedQuery.Holds (text escape fs ++ ['\x00'])

/-! ## One field -/

variable {escape : CString → List Char} {query : CString} {args ap : List Pointer} {f : Field}
  {fs : List Field} {i : Nat}

/-- What is left of the format from `i` on, with the arguments left, has these fields. -/
def Left (query : CString) (i : Nat) (ap : List Pointer) (fs : List Field) : Prop :=
  fields (directives (query.chars.drop i)) ap = some fs

/-- The field that starts at `i`. -/
inductive Reads (query : CString) (i : Nat) : List Pointer → Field → List Pointer → Prop
  | byte {ap : List Pointer}
      (h : query.get i ≠ '%' ∨ query.get (i + 1) ≠ 's' ∧ query.get (i + 1) ≠ 'i') :
      Reads query i ap (.byte (query.get i)) ap
  | string {ap : List Pointer} {s : CString} (h : query.get i = '%') (hs : query.get (i + 1) = 's') :
      Reads query i (.string s :: ap) (.string s) ap
  | int {ap : List Pointer} {n : Int32} (h : query.get i = '%') (hi : query.get (i + 1) = 'i') :
      Reads query i (.int n :: ap) (.int n) ap
  | null {ap : List Pointer} (h : query.get i = '%')
      (hdirective : query.get (i + 1) = 's' ∨ query.get (i + 1) = 'i') :
      Reads query i (.null :: ap) .null ap

theorem get_of_drop {c : Char} {rest : List Char} (h : query.chars.drop i = c :: rest) :
    query.get i = c ∧ query.chars.drop (i + 1) = rest := by
  have hget : query.chars[i]? = some c := by
    rw [← List.head?_drop, h]
    rfl
  constructor
  · unfold CString.get
    rw [hget]
    rfl
  · rw [← List.tail_drop, h]
    rfl

theorem get_of_drop_nil (h : query.chars.drop i = []) : query.get i = '\x00' := by
  unfold CString.get
  rw [List.getElem?_eq_none (List.drop_eq_nil_iff.mp h)]
  rfl

theorem fields_byte {c : Char} {ds : List Directive} (h : fields (.byte c :: ds) ap = some (f :: fs)) :
    f = .byte c ∧ fields ds ap = some fs := by
  simp only [fields, Option.map_eq_some_iff, List.cons.injEq] at h
  obtain ⟨fs', hfs, rfl, rfl⟩ := h
  exact ⟨rfl, hfs⟩

/-- A directive takes the next argument. -/
theorem fields_string {ds : List Directive} (h : fields (.string :: ds) ap = some (f :: fs)) :
    ∃ ap', fields ds ap' = some fs ∧
      ((f = .null ∧ ap = .null :: ap') ∨ ∃ s, f = .string s ∧ ap = .string s :: ap') := by
  cases ap with
  | nil => cases h
  | cons arg ap =>
    cases arg <;> simp only [fields, Option.map_eq_some_iff, List.cons.injEq, reduceCtorEq] at h
    case null =>
      obtain ⟨fs', hfs, rfl, rfl⟩ := h
      exact ⟨ap, hfs, .inl ⟨rfl, rfl⟩⟩
    case string s =>
      obtain ⟨fs', hfs, rfl, rfl⟩ := h
      exact ⟨ap, hfs, .inr ⟨s, rfl, rfl⟩⟩

theorem fields_int {ds : List Directive} (h : fields (.int :: ds) ap = some (f :: fs)) :
    ∃ ap', fields ds ap' = some fs ∧
      ((f = .null ∧ ap = .null :: ap') ∨ ∃ n, f = .int n ∧ ap = .int n :: ap') := by
  cases ap with
  | nil => cases h
  | cons arg ap =>
    cases arg <;> simp only [fields, Option.map_eq_some_iff, List.cons.injEq, reduceCtorEq] at h
    case null =>
      obtain ⟨fs', hfs, rfl, rfl⟩ := h
      exact ⟨ap, hfs, .inl ⟨rfl, rfl⟩⟩
    case int n =>
      obtain ⟨fs', hfs, rfl, rfl⟩ := h
      exact ⟨ap, hfs, .inr ⟨n, rfl, rfl⟩⟩

/-- The next field starts at `i`, and the others behind it. -/
theorem reads_of_left (h : Left query i ap (f :: fs)) :
    ∃ ap', Reads query i ap f ap' ∧ Left query (i + f.width) ap' fs ∧
      i + f.width ≤ query.chars.length := by
  unfold Left at h ⊢
  have hlength := List.length_drop (l := query.chars) (i := i)
  match hdrop : query.chars.drop i with
  | [] =>
    rw [hdrop] at h
    cases ap <;> cases h
  | [c] =>
    obtain ⟨hget, hrest⟩ := get_of_drop hdrop
    rw [hdrop] at h hlength
    obtain ⟨rfl, hfs⟩ := fields_byte h
    refine ⟨ap, ?_, ?_, ?_⟩
    · -- the terminator is behind the last character
      rw [← hget]
      refine .byte (.inr ?_)
      rw [get_of_drop_nil hrest]
      decide
    · rw [show i + (Field.byte c).width = i + 1 from rfl, hrest]
      exact hfs
    · rw [List.length_singleton] at hlength
      show i + 1 ≤ _
      omega
  | c :: d :: rest =>
    obtain ⟨hget, hrest⟩ := get_of_drop hdrop
    obtain ⟨hget', hrest'⟩ := get_of_drop hrest
    rw [hdrop] at h hlength
    simp only [List.length_cons] at hlength
    have hbehind {ap' : List Pointer} (hfs : fields (directives rest) ap' = some fs) :
        fields (directives (query.chars.drop (i + 2))) ap' = some fs ∧ i + 2 ≤ query.chars.length := by
      rw [hrest']
      exact ⟨hfs, by omega⟩
    unfold directives at h
    by_cases hs : c = '%' ∧ d = 's'
    · rw [if_pos hs] at h
      obtain ⟨ap', hfs, hf⟩ := fields_string h
      rcases hf with ⟨rfl, rfl⟩ | ⟨s, rfl, rfl⟩
      · exact ⟨ap', .null (hget.trans hs.1) (.inl (hget'.trans hs.2)), hbehind hfs⟩
      · exact ⟨ap', .string (hget.trans hs.1) (hget'.trans hs.2), hbehind hfs⟩
    · rw [if_neg hs] at h
      by_cases hi : c = '%' ∧ d = 'i'
      · rw [if_pos hi] at h
        obtain ⟨ap', hfs, hf⟩ := fields_int h
        rcases hf with ⟨rfl, rfl⟩ | ⟨n, rfl, rfl⟩
        · exact ⟨ap', .null (hget.trans hi.1) (.inr (hget'.trans hi.2)), hbehind hfs⟩
        · exact ⟨ap', .int (hget.trans hi.1) (hget'.trans hi.2), hbehind hfs⟩
      · rw [if_neg hi] at h
        obtain ⟨rfl, hfs⟩ := fields_byte h
        refine ⟨ap, ?_, ?_, ?_⟩
        · rw [← hget] at hs hi ⊢
          rw [← hget'] at hs hi
          refine .byte ?_
          tauto
        · rw [show i + (Field.byte c).width = i + 1 from rfl, hrest]
          exact hfs
        · show i + 1 ≤ _
          omega

theorem fields_cons_ne_nil (d : Directive) (ds : List Directive) (ap : List Pointer) :
    fields (d :: ds) ap ≠ some [] := by
  cases d with
  | byte c => simp [fields]
  | string => rcases ap with - | ⟨- | - | -, ap⟩ <;> simp [fields]
  | int => rcases ap with - | ⟨- | - | -, ap⟩ <;> simp [fields]

theorem left_nil (h : Left query i ap []) : query.chars.length ≤ i ∧ ap = [] := by
  unfold Left at h
  cases hdirectives : directives (query.chars.drop i) with
  | cons d ds =>
    rw [hdirectives] at h
    exact absurd h (fields_cons_ne_nil d ds ap)
  | nil =>
    have hdrop : query.chars.drop i = [] := by
      unfold directives at hdirectives
      split at hdirectives
      · assumption
      · cases hdirectives
      · split at hdirectives
        · cases hdirectives
        · split at hdirectives <;> cases hdirectives
    rw [hdirectives] at h
    cases ap with
    | nil => exact ⟨List.drop_eq_nil_iff.mp hdrop, rfl⟩
    | cons arg ap => cases h

/-! ## The first pass adds up the room -/

theorem narrow_narrow_add (a b : Int) : narrow (narrow a + b) = narrow (a + b) := Int.bmod_add_bmod

theorem narrow_of_lt {n : Int} (h0 : 0 ≤ n) (h : n < 2 ^ 31) : narrow n = n := by
  unfold narrow
  exact Int.bmod_eq_of_le (by omega) (by omega)

theorem narrow_lt (n : Int) : narrow n < 2 ^ 31 := by
  have hlt := Int.bmod_lt (x := n) (m := 2 ^ 32) (by decide)
  unfold narrow
  omega

theorem sizeRound_of_reads {s : Sizing} (h : Reads query s.i s.ap f ap) :
    sizeRound query s = some { i := s.i + f.width
                               escapedLen := narrow (s.escapedLen + f.room)
                               ap
                               taken := s.taken ++ f.pointer } := by
  obtain ⟨i, escapedLen, ap', taken⟩ := s
  unfold sizeRound
  cases h with
  | byte h =>
    by_cases hpercent : query.get i = '%'
    · have hneither := h.resolve_left (not_not.mpr hpercent)
      rw [if_pos hpercent, if_neg hneither.1, if_neg hneither.2]
      simp [Field.width, Field.room, Field.pointer]
    · rw [if_neg hpercent]
      simp [Field.width, Field.room, Field.pointer]
  | string h hs =>
    rw [if_pos h, if_pos hs]
    simp [Field.width, Field.room, Field.pointer]
  | int h hi =>
    rw [if_pos h, hi, if_neg (by decide), if_pos rfl]
    simp [Field.width, Field.room, Field.pointer]
  | null h hdirective =>
    rw [if_pos h]
    rcases hdirective with hs | hi
    · rw [if_pos hs]
      simp [Field.width, Field.room, Field.pointer]
    · rw [hi, if_neg (by decide), if_pos rfl]
      simp [Field.width, Field.room, Field.pointer]

theorem Reads.pointer {ap' : List Pointer} (h : Reads query i ap f ap') : ap = f.pointer ++ ap' := by
  cases h <;> rfl

theorem room_cons (f : Field) (fs : List Field) : room (f :: fs) = f.room + room fs := rfl

theorem text_cons (escape : CString → List Char) (f : Field) (fs : List Field) :
    text escape (f :: fs) = f.text escape ++ text escape fs := rfl

theorem Field.width_pos (f : Field) : 0 < f.width := by
  cases f <;> simp only [Field.width] <;> omega

theorem Field.width_le_room (f : Field) : f.width ≤ f.room := by
  cases f <;> simp only [Field.width, Field.room] <;> omega

/-- The format is not longer than the room that is counted for it. -/
theorem length_le_room (h : Left query i ap fs) : query.chars.length ≤ i + room fs := by
  induction fs generalizing i ap with
  | nil => exact (left_nil h).1
  | cons f fs ih =>
    obtain ⟨ap', -, hleft, -⟩ := reads_of_left h
    have hlater := ih hleft
    have hwidth := f.width_le_room
    rw [room_cons]
    omega

/-- The first pass takes every argument, and its sum is that of the room, as an `int`. -/
theorem sizeLoop_of_left {rounds : Nat} {s : Sizing} (h : Left query s.i s.ap fs)
    (hint : narrow s.escapedLen = s.escapedLen) (hrounds : query.chars.length ≤ s.i + rounds) :
    ∃ i, sizeLoop query query.chars.length rounds s =
      some ⟨i, narrow (s.escapedLen + room fs), [], s.taken ++ s.ap⟩ := by
  induction fs generalizing rounds s with
  | nil =>
    obtain ⟨hi, hap⟩ := left_nil h
    obtain ⟨i, escapedLen, ap, taken⟩ := s
    obtain rfl : ap = [] := hap
    refine ⟨i, ?_⟩
    have hsum : narrow (escapedLen + room []) = escapedLen := by
      rw [show ((room [] : Nat) : Int) = 0 from rfl, Int.add_zero]
      exact hint
    rw [hsum, List.append_nil]
    cases rounds with
    | zero => rfl
    | succ rounds =>
      unfold sizeLoop
      exact if_neg (by dsimp only at hi ⊢; omega)
  | cons f fs ih =>
    obtain ⟨ap', hreads, hleft, hle⟩ := reads_of_left h
    have hpos := f.width_pos
    obtain ⟨rounds, rfl⟩ : ∃ n, rounds = n + 1 := ⟨rounds - 1, by omega⟩
    unfold sizeLoop
    rw [if_pos (by omega), sizeRound_of_reads hreads, Option.bind_some]
    have hagain : narrow (narrow (s.escapedLen + f.room)) = narrow (s.escapedLen + f.room) :=
      Int.bmod_bmod
    obtain ⟨i, hi⟩ := @ih rounds ⟨s.i + f.width, narrow (s.escapedLen + f.room), ap', s.taken ++ f.pointer⟩
      hleft hagain (by dsimp only; omega)
    refine ⟨i, ?_⟩
    rw [hi]
    dsimp only
    rw [narrow_narrow_add, room_cons, hreads.pointer, List.append_assoc, Int.natCast_add, Int.add_assoc]

/-! ## The second pass stays within it -/

/-- The buffer holds what was written, `j` is behind it, and nothing is stored behind offset `n`. -/
structure Writing.Keeps (s : Writing) (out : List Char) (n : Int) : Prop where
  j : s.j = out.length
  holds : s.buffer.Holds out
  within : s.buffer.Within (n + 1)

section Keeps

variable {s : Writing} {out : List Char} {n : Int}

theorem Writing.Keeps.next (h : s.Keeps out n) (arg : Pointer) (ap : List Pointer) :
    (s.next arg ap).Keeps out n := ⟨h.j, h.holds, h.within⟩

theorem Writing.Keeps.put (h : s.Keeps out n) (c : Char) (hn : n < 2 ^ 31) (hroom : out.length + 1 ≤ n) :
    (s.put c).Keeps (out ++ [c]) n := by
  constructor
  case j =>
    show narrow (s.j + 1) = _
    rw [h.j, narrow_of_lt (by omega) (by omega), List.length_append]
    rfl
  case holds =>
    show (s.buffer.store s.j [c]).Holds _
    rw [h.j]
    exact h.holds.store [c]
  case within =>
    apply h.within.store
    · rw [h.j]
      omega
    · rw [h.j, List.length_singleton]
      omega

/-- The terminator of what is printed comes behind it, where there is still room for that of the
statement. -/
theorem Writing.Keeps.print (h : s.Keeps out n) (text : List Char) (hn : n < 2 ^ 31)
    (hroom : out.length + text.length ≤ n) : (s.print text).Keeps (out ++ text) n := by
  constructor
  case j =>
    show narrow (s.j + text.length) = _
    rw [h.j, narrow_of_lt (by omega) (by omega), List.length_append, Int.natCast_add]
  case holds =>
    show (s.buffer.store s.j (text ++ ['\x00'])).Holds _
    rw [h.j]
    have hstored := h.holds.store (text ++ ['\x00'])
    rw [← List.append_assoc] at hstored
    exact hstored.of_append
  case within =>
    apply h.within.store
    · rw [h.j]
      omega
    · rw [h.j, List.length_append, List.length_singleton]
      omega

end Keeps

theorem decimal_length_le (n : Int32) : (decimal n.toInt).length ≤ 11 := by
  have hlow := n.le_toInt
  have hhigh := n.toInt_lt
  have hdigits : (Nat.toDigits 10 n.toInt.natAbs).length ≤ 10 := by
    rw [Nat.length_toDigits_le_iff (by decide) (by decide)]
    omega
  unfold decimal
  rw [List.length_append]
  split
  · rw [List.length_singleton]
    omega
  · rw [List.length_nil]
    omega

/-- A text is not longer than its room. -/
theorem Field.text_length_le (hescape : ∀ s, (escape s).length ≤ 2 * s.chars.length) (f : Field) :
    (f.text escape).length ≤ f.room := by
  cases f with
  | byte c => simp [Field.room, Field.text]
  | null => simp [Field.room, Field.text]
  | string s =>
    have hs := hescape s
    simp only [Field.room, Field.text, List.length_append, List.length_cons, List.length_nil]
    omega
  | int n =>
    have hn := decimal_length_le n
    simp only [Field.room, Field.text]
    omega

theorem text_length_le (hescape : ∀ s, (escape s).length ≤ 2 * s.chars.length) (fs : List Field) :
    (text escape fs).length ≤ room fs := by
  induction fs with
  | nil => exact Nat.le_refl 0
  | cons f fs ih =>
    have hf := f.text_length_le hescape
    rw [room_cons, text_cons, List.length_append]
    omega

/-- One round writes the text of one field. -/
theorem writeRound_of_reads {s : Writing} {out : List Char} {n : Int} (h : Reads query s.i s.ap f ap)
    (hkeeps : s.Keeps out n) (hn : n < 2 ^ 31) (hfits : out.length + (f.text escape).length ≤ n) :
    ∃ s', writeRound escape query s = some s' ∧ s'.i = s.i + f.width ∧ s'.ap = ap ∧
      s'.taken = s.taken ++ f.pointer ∧ s'.Keeps (out ++ f.text escape) n := by
  obtain ⟨i, j, ap', buffer, taken⟩ := s
  unfold writeRound
  cases h with
  | byte h =>
    have hput := hkeeps.put (query.get i) hn hfits
    refine ⟨{ Writing.put ⟨i, j, ap', buffer, taken⟩ (query.get i) with i := i + 1 }, ?_, rfl, rfl,
      (List.append_nil taken).symm, hput.j, hput.holds, hput.within⟩
    by_cases hpercent : query.get i = '%'
    · have hneither := h.resolve_left (not_not.mpr hpercent)
      rw [if_pos hpercent, if_neg hneither.1, if_neg hneither.2]
    · rw [if_neg hpercent]
  | string h hs =>
    rename_i arg
    simp only [Field.text, List.length_append, List.length_cons, List.length_nil] at hfits
    refine ⟨_, by rw [if_pos h, if_pos hs], rfl, rfl, rfl, ?_⟩
    have hquote := (hkeeps.next (.string arg) ap).put '\'' hn (by omega)
    have hbody := hquote.print (escape arg) hn (by
      rw [List.length_append, List.length_singleton]
      omega)
    have hend := hbody.put '\'' hn (by
      rw [List.length_append, List.length_append, List.length_singleton]
      omega)
    rw [List.append_assoc, List.append_assoc] at hend
    exact hend
  | int h hi =>
    rename_i k
    refine ⟨_, by rw [if_pos h, hi, if_neg (by decide), if_pos rfl], rfl, rfl, rfl, ?_⟩
    exact (hkeeps.next (.int k) ap).print (decimal k.toInt) hn hfits
  | null h hdirective =>
    have hprint := (hkeeps.next .null ap).print "NULL".toList hn hfits
    refine ⟨_, ?_, rfl, rfl, rfl, hprint⟩
    rw [if_pos h]
    rcases hdirective with hs | hi
    · rw [if_pos hs]
    · rw [hi, if_neg (by decide), if_pos rfl]

/-- The second pass takes the same arguments, and writes the texts of the fields one after the other. -/
theorem writeLoop_of_left {rounds : Nat} {s : Writing} {out : List Char} {n : Int}
    (h : Left query s.i s.ap fs) (hkeeps : s.Keeps out n) (hn : n < 2 ^ 31)
    (hfits : out.length + (text escape fs).length ≤ n) (hrounds : query.chars.length ≤ s.i + rounds) :
    ∃ s', writeLoop escape query query.chars.length rounds s = some s' ∧ s'.taken = s.taken ++ s.ap ∧
      s'.Keeps (out ++ text escape fs) n := by
  induction fs generalizing rounds s out with
  | nil =>
    obtain ⟨hi, hap⟩ := left_nil h
    have hdone : writeLoop escape query query.chars.length rounds s = some s := by
      cases rounds with
      | zero => rfl
      | succ rounds =>
        unfold writeLoop
        exact if_neg (by omega)
    refine ⟨s, hdone, ?_, ?_⟩
    · rw [hap, List.append_nil]
    · rw [show text escape [] = [] from rfl, List.append_nil]
      exact hkeeps
  | cons f fs ih =>
    obtain ⟨ap', hreads, hleft, hle⟩ := reads_of_left h
    have hpos := f.width_pos
    obtain ⟨rounds, rfl⟩ : ∃ n, rounds = n + 1 := ⟨rounds - 1, by omega⟩
    rw [text_cons, List.length_append] at hfits
    have hfirst : (out.length : Int) + (f.text escape).length ≤ n := by omega
    obtain ⟨s', hround, hi, hap, htaken, hkeeps'⟩ := writeRound_of_reads hreads hkeeps hn hfirst
    have hleft' : Left query s'.i s'.ap fs := by
      rw [hi, hap]
      exact hleft
    have hfits' : (out ++ f.text escape).length + (text escape fs).length ≤ n := by
      rw [List.length_append]
      omega
    obtain ⟨s'', hloop, htaken', hkeeps''⟩ :
        ∃ s'', writeLoop escape query query.chars.length rounds s' = some s'' ∧
          s''.taken = s'.taken ++ s'.ap ∧ s''.Keeps (out ++ f.text escape ++ text escape fs) n :=
      ih hleft' hkeeps' hfits' (by omega)
    refine ⟨s'', ?_, ?_, ?_⟩
    · unfold writeLoop
      rw [if_pos (by omega), hround, Option.bind_some]
      exact hloop
    · rw [htaken', htaken, hap, List.append_assoc, ← hreads.pointer]
    · rw [text_cons, ← List.append_assoc]
      exact hkeeps''

/-! ## The statement -/

theorem left_zero (h : fields (directives query.chars) args = some fs) : Left query 0 args fs := h

/-- What the first pass of the whole format leaves. -/
theorem sizeLoop_start (h : fields (directives query.chars) args = some fs)
    (hlength : query.chars.length < 2 ^ 31) :
    ∃ i, sizeLoop query (formatLen query) query.chars.length ⟨0, 0, args, []⟩ =
      some ⟨i, narrow (room fs), [], args⟩ := by
  rw [formatLen, narrow_of_lt (by omega) (by omega)]
  obtain ⟨i, hi⟩ : ∃ i, sizeLoop query query.chars.length query.chars.length ⟨0, 0, args, []⟩ =
      some ⟨i, narrow (0 + room fs), [], [] ++ args⟩ := sizeLoop_of_left (left_zero h) rfl (by omega)
  rw [Int.zero_add] at hi
  exact ⟨i, hi⟩

/-- The buffer has the counted size, if that is not negative. -/
theorem queryPrintf_of_fields (h : fields (directives query.chars) args = some fs)
    (hlength : query.chars.length < 2 ^ 31) :
    queryPrintf escape query args =
      if narrow (narrow (room fs) + 1) < 0 then .error .badArrayNewLength
      else
        match writeLoop escape query query.chars.length query.chars.length ⟨0, 0, args, .empty, []⟩ with
        | none => .error .badArgument
        | some s => .ok ⟨narrow (room fs), s.buffer.store s.j ['\x00'], args, s.taken⟩ := by
  have hlen : formatLen query = query.chars.length := narrow_of_lt (by omega) (by omega)
  obtain ⟨i, hsized⟩ := sizeLoop_start h hlength
  unfold queryPrintf
  rw [hsized, hlen]

/-- The sum of the first pass is the room modulo 2^32, with the sign of its highest bit. -/
theorem narrow_room (n : Nat) : narrow n = if n % 2 ^ 32 < 2 ^ 31 then ((n % 2 ^ 32 : Nat) : Int)
    else (n % 2 ^ 32 : Nat) - 2 ^ 32 := by
  unfold narrow
  rw [Int.bmod_def]
  split <;> split <;> omega

/-- The statement and its terminator fit into the buffer that the first pass has counted, and both counters
can be `int`s. -/
def Fits (escape : CString → List Char) (query : CString) (fs : List Field) : Prop :=
  query.chars.length < 2 ^ 31 ∧ (text escape fs).length ≤ room fs % 2 ^ 32 ∧ room fs % 2 ^ 32 + 1 < 2 ^ 31

theorem agrees_of_fits (h : fields (directives query.chars) args = some fs)
    (hfits : Fits escape query fs) : Agrees escape query args fs := by
  obtain ⟨hlength, htext, hroom⟩ := hfits
  have hcounted : narrow (room fs) = (room fs % 2 ^ 32 : Nat) := by
    rw [narrow_room, if_pos (by omega)]
  generalize room fs % 2 ^ 32 = n at htext hroom hcounted
  have hstart : (Writing.mk 0 0 args .empty []).Keeps [] n :=
    ⟨rfl, SparseBuffer.holds_nil _, SparseBuffer.within_empty _⟩
  obtain ⟨s, hwritten, htaken, hkeeps⟩ :
      ∃ s, writeLoop escape query query.chars.length query.chars.length ⟨0, 0, args, .empty, []⟩ = some s ∧
        s.taken = [] ++ args ∧ s.Keeps ([] ++ text escape fs) n :=
    writeLoop_of_left (left_zero h) hstart (by omega) (by simpa using htext) (by omega)
  rw [List.nil_append] at hkeeps
  refine ⟨⟨n, s.buffer.store s.j ['\x00'], args, args⟩, ?_, rfl, rfl, ?_, ?_⟩
  · rw [queryPrintf_of_fields h hlength, hcounted, narrow_of_lt (by omega) (by omega),
      if_neg (by omega), hwritten]
    simp only [htaken, List.nil_append]
  · apply hkeeps.within.store
    · rw [hkeeps.j]
      omega
    · rw [hkeeps.j, List.length_singleton]
      omega
  · rw [hkeeps.j]
    exact hkeeps.holds.store ['\x00']

/-- As the first pass counts enough, it is enough that the room of all fields and a terminator is an `int`. -/
theorem agrees_of_room (hescape : ∀ s, (escape s).length ≤ 2 * s.chars.length)
    (h : fields (directives query.chars) args = some fs) (hroom : room fs + 1 < 2 ^ 31) :
    Agrees escape query args fs := by
  have hlength := length_le_room (left_zero h)
  have htext := text_length_le hescape fs
  have hcounted : room fs % 2 ^ 32 = room fs := Nat.mod_eq_of_lt (by omega)
  apply agrees_of_fits h
  unfold Fits
  rw [hcounted]
  exact ⟨by omega, htext, hroom⟩

/-- Without arguments what is left of the format is copied. -/
theorem text_of_left (h : Left query i [] fs) (hi : i ≤ query.chars.length) :
    i + (text escape fs).length = query.chars.length := by
  induction fs generalizing i with
  | nil =>
    have hle := (left_nil h).1
    rw [show text escape [] = [] from rfl, List.length_nil]
    omega
  | cons f fs ih =>
    obtain ⟨ap', hreads, hleft, hle⟩ := reads_of_left h
    cases hreads with
    | byte _ =>
      have hlater := ih hleft hle
      rw [text_cons, List.length_append, ← hlater]
      simp only [Field.text, Field.width, List.length_singleton]
      omega

/-- Where the first pass stops, a part of the fields is left, and the arguments of these. -/
theorem sizeLoop_left (escape : CString → List Char) {len : Int} {rounds : Nat} {s s' : Sizing}
    (h : Left query s.i s.ap fs) (hlen : len ≤ query.chars.length) (hint : s.escapedLen < 2 ^ 31)
    (hloop : sizeLoop query len rounds s = some s') :
    ∃ fs', Left query s'.i s'.ap fs' ∧ s'.taken ++ s'.ap = s.taken ++ s.ap ∧ s'.escapedLen < 2 ^ 31 ∧
      (text escape fs').length ≤ (text escape fs).length ∧ s'.i ≤ max (s.i : Int) (len + 1) ∧
      s'.i ≤ max s.i query.chars.length := by
  induction rounds generalizing s fs with
  | zero =>
    cases hloop
    exact ⟨fs, h, rfl, hint, Nat.le_refl _, by omega, by omega⟩
  | succ rounds ih =>
    unfold sizeLoop at hloop
    by_cases hi : s.i < len
    · rw [if_pos hi] at hloop
      cases fs with
      | nil =>
        have hle := (left_nil h).1
        omega
      | cons f fs =>
        obtain ⟨ap', hreads, hleft, hle⟩ := reads_of_left h
        rw [sizeRound_of_reads hreads, Option.bind_some] at hloop
        obtain ⟨fs', hleft', htaken, hint', htext, hbound, hbound'⟩ := ih hleft (narrow_lt _) hloop
        have hwidth : f.width ≤ 2 := by cases f <;> simp [Field.width]
        refine ⟨fs', hleft', ?_, hint', ?_, ?_, ?_⟩
        · rw [htaken, List.append_assoc, ← hreads.pointer]
        · rw [text_cons, List.length_append]
          omega
        · dsimp only at hbound
          omega
        · dsimp only at hbound'
          omega
    · rw [if_neg hi] at hloop
      cases hloop
      exact ⟨fs, h, rfl, hint, Nat.le_refl _, by omega, by omega⟩

/-- Whatever the passes make, the buffer was allocated with the size that the first pass has counted. -/
theorem sized_of_ok {p : Printed} (hp : queryPrintf escape query args = .ok p) :
    ∃ sized, sizeLoop query (formatLen query) query.chars.length ⟨0, 0, args, []⟩ = some sized ∧
      p.escapedLen = sized.escapedLen ∧ p.sized = sized.taken ∧ 0 ≤ narrow (sized.escapedLen + 1) := by
  unfold queryPrintf at hp
  split at hp
  · cases hp
  · rename_i sized hsized
    by_cases hsize : narrow (sized.escapedLen + 1) < 0
    · rw [if_pos hsize] at hp
      cases hp
    · rw [if_neg hsize] at hp
      split at hp
      · cases hp
      · cases hp
        exact ⟨sized, hsized, rfl, rfl, by omega⟩

/-- What the buffer holds is the statement and its terminator, so that the statement is not longer than the
first pass has counted. -/
theorem text_le_escapedLen {p : Printed} (hwithin : p.escapedQuery.Within (p.escapedLen + 1))
    (hholds : p.escapedQuery.Holds (text escape fs ++ ['\x00'])) :
    (text escape fs).length ≤ p.escapedLen := by
  have hstart : 0 ≤ p.escapedLen + 1 := by
    have hfirst := hwithin 0
    rw [show ((0 : Int)) = (0 : Nat) from rfl, hholds 0 (by simp)] at hfirst
    have hzero := hfirst (by simp)
    omega
  have hfits := hholds.length_le hwithin hstart
  rw [List.length_append, List.length_singleton] at hfits
  omega

/-- A format that `int len` cannot count is not gone through to its end, and the rest of it alone is longer
than a buffer can be. -/
theorem length_of_agrees (h : fields (directives query.chars) args = some fs)
    (hagrees : Agrees escape query args fs) : query.chars.length < 2 ^ 31 := by
  obtain ⟨p, hp, hargs, -, hwithin, hholds⟩ := hagrees
  obtain ⟨sized, hsized, hescapedLen, htaken, -⟩ := sized_of_ok hp
  have htext := text_le_escapedLen hwithin hholds
  by_contra hlong
  have hlen : formatLen query + 2 ^ 32 ≤ query.chars.length := by
    unfold formatLen
    rw [narrow_room]
    split <;> omega
  obtain ⟨fs', hleft, hall, hint, hle, hbound, hbound'⟩ :=
    sizeLoop_left escape (left_zero h) (by omega) (show (0 : Int) < 2 ^ 31 by decide) hsized
  -- the arguments are all taken
  have hap : sized.ap = [] := by
    rw [← htaken, hargs, List.nil_append] at hall
    simpa using hall
  rw [hap] at hleft
  dsimp only at hbound hbound'
  have hrest : sized.i + (text escape fs').length = query.chars.length := text_of_left hleft (by omega)
  omega

theorem fits_of_agrees (h : fields (directives query.chars) args = some fs)
    (hagrees : Agrees escape query args fs) : Fits escape query fs := by
  have hlength := length_of_agrees h hagrees
  obtain ⟨p, hp, -, -, hwithin, hholds⟩ := hagrees
  obtain ⟨sized, hsized, hescapedLen, -, hsize⟩ := sized_of_ok hp
  obtain ⟨i, hstart⟩ := sizeLoop_start h hlength
  have htext := text_le_escapedLen hwithin hholds
  cases hsized.symm.trans hstart
  dsimp only at hescapedLen hsize
  rw [hescapedLen, narrow_room] at htext
  rw [narrow_narrow_add] at hsize
  have hcast : ((room fs : Nat) : Int) + 1 = (room fs + 1 : Nat) := rfl
  rw [hcast, narrow_room] at hsize
  unfold Fits
  split at htext <;> split at hsize <;> omega

/-- The passes agree exactly when the format can be counted by an `int`, and what the first pass counts, less
what an `int` loses of it, is enough for the statement. -/
theorem queryPrintf_agrees (h : fields (directives query.chars) args = some fs) :
    Agrees escape query args fs ↔ Fits escape query fs :=
  ⟨fits_of_agrees h, agrees_of_fits h⟩

/-! ## With backslashes -/

/-- `mysql_real_escape_string` puts a backslash before these characters. -/
def escapeChar (c : Char) : List Char :=
  if c = '\x00' then ['\\', '0']
  else if c = '\n' then ['\\', 'n']
  else if c = '\r' then ['\\', 'r']
  else if c = '\x1a' then ['\\', 'Z']
  else if c = '\\' ∨ c = '\'' ∨ c = '"' then ['\\', c]
  else [c]

def escapeString (s : CString) : List Char := s.chars.flatMap escapeChar

theorem escapeChar_length (c : Char) : 1 ≤ (escapeChar c).length ∧ (escapeChar c).length ≤ 2 := by
  unfold escapeChar
  repeat' split
  all_goals simp

theorem escapeString_length (s : CString) :
    s.chars.length ≤ (escapeString s).length ∧ (escapeString s).length ≤ 2 * s.chars.length := by
  unfold escapeString
  induction s.chars with
  | nil => simp
  | cons c cs ih =>
    have hc := escapeChar_length c
    rw [List.flatMap_cons, List.length_append, List.length_cons]
    omega

/-- An insert with a name to be escaped, and a `%` that is no directive. -/
theorem queryPrintf_agrees_insert :
    Agrees escapeString ⟨"VALUES(%i,%s,%s) -- 100%".toList, by decide⟩
      [.int (-7), .string ⟨"O'Neil".toList, by decide⟩, .null]
      ("VALUES(".toList.map .byte ++ [.int (-7), .byte ',', .string ⟨"O'Neil".toList, by decide⟩,
        .byte ',', .null] ++ ") -- 100%".toList.map .byte) :=
  (queryPrintf_agrees (by decide)).mpr (by unfold Fits; decide)

theorem exists_replicate (n : Nat) : ∃ s : CString, s.chars = List.replicate n 'a' :=
  ⟨⟨List.replicate n 'a', fun h ↦ absurd (List.eq_of_mem_replicate h) (by decide)⟩, rfl⟩

/-- A string of 2^31 characters is counted as 2. -/
theorem queryPrintf_overrun :
    ∃ s : CString, s.chars = List.replicate (2 ^ 31) 'a' ∧
      fields (directives "%s".toList) [.string s] = some [.string s] ∧
      ¬Agrees escapeString ⟨"%s".toList, by decide⟩ [.string s] [.string s] := by
  obtain ⟨s, hs⟩ := exists_replicate (2 ^ 31)
  have hlength : s.chars.length = 2 ^ 31 := by rw [hs, List.length_replicate]
  refine ⟨s, hs, rfl, ?_⟩
  intro hagrees
  have htext := (fits_of_agrees rfl hagrees).2.1
  have hescaped := (escapeString_length s).1
  rw [room_cons, text_cons, List.length_append, show (Field.string s).room = 2 + 2 * s.chars.length from rfl,
    show room [] = 0 from rfl, hlength] at htext
  simp only [Field.text, List.length_append, List.length_cons, List.length_nil] at htext
  omega

end DB

end EvQueue
