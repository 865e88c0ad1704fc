import Mathlib.Tactic.Common
import EvQueue.Base.Runs

/-!
# ShellWords — how a POSIX shell reads its input as simple commands

A machine that takes the input byte by byte.  It knows the quotes, the escapes, comments, line
continuations and the operators between commands.  It gets stuck on what is not a list of simple commands
made of fixed words: an expansion, a redirection, an assignment, a reserved word in command position, an
operator without a command before it, and, at the end, a quote that is still open.
-/

namespace EvQueue.ShellWords

open Runs

abbrev Bytes := List UInt8

def byte (c : Char) : UInt8 := UInt8.ofNat c.toNat

def bytes (s : String) : Bytes := s.toList.map byte

abbrev apostrophe : UInt8 := 39
abbrev backslash : UInt8 := 92
abbrev quotation : UInt8 := 34
abbrev newline : UInt8 := 10

def isBlank (b : UInt8) : Bool := b == byte ' ' || b == 9

/-- The operators that end a command, and the newline. -/
def isSeparator (b : UInt8) : Bool := b == byte ';' || b == byte '&' || b == byte '|' || b == newline

/-- Bytes that begin an expansion, a redirection or a subshell when they are not quoted. -/
def isActive (b : UInt8) : Bool :=
  b == byte '$' || b == 96 || b == byte '(' || b == byte ')' || b == byte '<' || b == byte '>' ||
    b == byte '*' || b == byte '?' || b == byte '['

/-- Bytes that stand for themselves wherever they are. -/
def isPlain (b : UInt8) : Bool :=
  !(isBlank b || isSeparator b || isActive b || b == apostrophe || b == quotation || b == backslash ||
    b == byte '~' || b == byte '#' || b == byte '=')

/-- The words that are reserved where a command begins. -/
def reserved : List Bytes :=
  ["!", "\x7b", "\x7d", "case", "do", "done", "elif", "else", "esac", "fi", "for", "if", "then", "until",
    "while"].map bytes

inductive Mode where
  | unquoted
  /-- Behind a backslash. -/
  | escaped
  | single
  | double
  | doubleEscaped
  | comment
deriving DecidableEq, Repr

structure Shell where
  mode : Mode
  /-- The commands that have ended. -/
  commands : List (List Bytes)
  /-- The words of the command that is being read. -/
  words : List Bytes
  /-- The word that is being read, and whether a part of it was quoted. -/
  word : Option (Bytes × Bool)
  /-- The operator that the byte before was. -/
  operator : Option UInt8
  /-- Whether a command has to follow, behind `|`, `&&` or `||`. -/
  expecting : Bool
deriving DecidableEq, Repr

namespace Shell

def start : Shell :=
  { mode := .unquoted, commands := [], words := [], word := none, operator := none, expecting := false }

def push (s : Shell) (b : UInt8) (quoted : Bool) : Shell :=
  let (w, q) := s.word.getD ([], false)
  { s with word := some (w ++ [b], q || quoted) }

/-- A quote begins: the word may stay empty. -/
def openQuote (s : Shell) (mode : Mode) : Shell :=
  { s with mode, word := some ((s.word.getD ([], false)).1, true) }

def endWord (s : Shell) : Option Shell :=
  match s.word with
  | none => some s
  | some (w, quoted) =>
      if s.words = [] && !quoted && w ∈ reserved then none
      else some { s with words := s.words ++ [w], word := none }

/-- The end of a command, at the operator or newline `b`. -/
def endCommand (s : Shell) (b : UInt8) : Option Shell :=
  s.endWord.bind fun s' ↦
    if s'.words = [] then
      if b = newline then some s'
      -- the second byte of `&&` or `||`
      else if s.operator = some b ∧ b ≠ byte ';' then some { s' with operator := none, expecting := true }
      else none
    else
      some { s' with
        commands := s'.commands ++ [s'.words]
        words := []
        operator := if b = newline then none else some b
        expecting := b = byte '|' }

def step (s : Shell) (b : UInt8) : Option Shell :=
  match s.mode with
  | .unquoted =>
      if isSeparator b then s.endCommand b
      else
        let s := { s with operator := none }
        if isBlank b then s.endWord
        else if b = apostrophe then some (s.openQuote .single)
        else if b = quotation then some (s.openQuote .double)
        else if b = backslash then some { s with mode := .escaped }
        else if isActive b then none
        else if b = byte '~' ∧ s.word = none then none
        else if b = byte '#' ∧ s.word = none then some { s with mode := .comment }
        else if b = byte '=' ∧ s.words = [] then none
        else some (s.push b false)
  | .escaped =>
      if b = newline then some { s with mode := .unquoted }
      else some { s.push b true with mode := .unquoted }
  | .single => if b = apostrophe then some { s with mode := .unquoted } else some (s.push b true)
  | .double =>
      if b = quotation then some { s with mode := .unquoted }
      else if b = byte '$' ∨ b = 96 then none
      else if b = backslash then some { s with mode := .doubleEscaped }
      else some (s.push b true)
  | .doubleEscaped =>
      let s := { s with mode := .double }
      if b = newline then some s
      else if b = byte '$' ∨ b = 96 ∨ b = quotation ∨ b = backslash then some (s.push b true)
      else some ((s.push backslash true).push b true)
  | .comment => if b = newline then { s with mode := .unquoted }.endCommand b else some s

/-- The end of the input. -/
def finish (s : Shell) : Option (List (List Bytes)) :=
  if s.mode = .unquoted ∨ s.mode = .comment then
    s.endWord.bind fun s ↦
      if s.words = [] then (if s.expecting then none else some s.commands)
      else some (s.commands ++ [s.words])
  else none

end Shell

/-- The simple commands of the input, each as the list of its words. -/
def commands (input : Bytes) : Option (List (List Bytes)) := (run Shell.step .start input).bind Shell.finish

/-! ## Plain words and quoted words -/

namespace Shell

/-- The first command is being read. -/
def reading (words : List Bytes) (word : Option (Bytes × Bool)) : Shell :=
  { start with words, word }

/-- The same between apostrophes. -/
def quoting (words : List Bytes) (w : Bytes) : Shell :=
  { start with mode := .single, words, word := some (w, true) }

end Shell

open Shell

variable {s s' : Shell} {b : UInt8} {w v : Bytes} {ws : List Bytes} {q : Bool}

theorem plain_step (hplain : isPlain b = true) (ws : List Bytes) (word : Option (Bytes × Bool)) :
    (reading ws word).step b = some ((reading ws word).push b false) := by
  simp only [isPlain, Bool.not_eq_true', Bool.or_eq_false_iff, beq_eq_false_iff_ne] at hplain
  rcases hplain with ⟨⟨⟨⟨⟨⟨⟨⟨hblank, hseparator⟩, hactive⟩, hsingle⟩, hdouble⟩, hback⟩, htilde⟩, hhash⟩, heq⟩
  unfold Shell.step reading
  simp only [start, hseparator, hblank, hactive, hsingle, hdouble, hback, htilde, hhash, heq,
    Bool.false_eq_true, if_false, false_and]

/-- Plain bytes go on with a word. -/
theorem run_plain (hplain : ∀ b ∈ w, isPlain b = true) (ws : List Bytes) (v : Bytes) :
    run Shell.step (reading ws (some (v, q))) w = some (reading ws (some (v ++ w, q))) := by
  induction w generalizing v with
  | nil => rw [run_nil, List.append_nil]
  | cons b w ih =>
    have hpush : (reading ws (some (v, q))).push b false = reading ws (some (v ++ [b], q)) := by
      show reading ws (some (v ++ [b], q || false)) = _
      rw [Bool.or_false]
    rw [run_cons, plain_step (hplain b List.mem_cons_self), Option.bind_some, hpush,
      ih fun c hc ↦ hplain c (List.mem_cons_of_mem _ hc)]
    simp

/-- Plain bytes are a word. -/
theorem run_plain_word (hplain : ∀ b ∈ w, isPlain b = true) (hne : w ≠ []) (ws : List Bytes) :
    run Shell.step (reading ws none) w = some (reading ws (some (w, false))) := by
  cases w with
  | nil => exact absurd rfl hne
  | cons b w =>
    rw [run_cons, plain_step (hplain b List.mem_cons_self), Option.bind_some]
    show run Shell.step (reading ws (some ([b], false))) w = _
    rw [run_plain (fun c hc ↦ hplain c (List.mem_cons_of_mem _ hc)), List.singleton_append]

/-- Between apostrophes every byte but the apostrophe stands for itself. -/
theorem run_quoting (hfree : apostrophe ∉ w) (ws : List Bytes) (v : Bytes) :
    run Shell.step (quoting ws v) w = some (quoting ws (v ++ w)) := by
  induction w generalizing v with
  | nil => rw [run_nil, List.append_nil]
  | cons b w ih =>
    rw [List.mem_cons, not_or] at hfree
    have hstep : (quoting ws v).step b = some (quoting ws (v ++ [b])) := by
      unfold Shell.step quoting
      simp only [if_neg (Ne.symm hfree.1)]
      rfl
    rw [run_cons, hstep, Option.bind_some, ih hfree.2]
    simp

/-- A blank ends a word. -/
theorem blank_step (hfirst : ws ≠ [] ∨ q = true ∨ w ∉ reserved) :
    (reading ws (some (w, q))).step (byte ' ') = some (reading (ws ++ [w]) none) := by
  show (reading ws (some (w, q))).endWord = _
  unfold endWord reading
  dsimp only
  rw [if_neg]
  simp only [Bool.and_eq_true, decide_eq_true_eq, Bool.not_eq_true', not_and]
  intro hand hin
  rcases hfirst with hne | hquoted | hnot
  · exact hne hand.1
  · rw [hquoted] at hand
    exact absurd hand.2 (by decide)
  · exact hnot hin

theorem apostrophe_step (ws : List Bytes) :
    (reading ws none).step apostrophe = some (quoting ws []) := rfl

theorem apostrophe_step_quoting (ws : List Bytes) (w : Bytes) :
    (quoting ws w).step apostrophe = some (reading ws (some (w, true))) := rfl

/-! ## Words only grow -/

/-- The words of the first command, with the one that is being read. -/
def Shell.first (s : Shell) : List Bytes :=
  match s.commands with
  | command :: _ => command
  | [] => s.words ++ (s.word.map Prod.fst).toList

/-- Each word of `ws` is the beginning of the word at its place in `ws'`. -/
def Begin (ws ws' : List Bytes) : Prop :=
  ∀ (k : Nat) (w : Bytes), ws[k]? = some w → ∃ v, ws'[k]? = some (w ++ v)

variable {ws' ws'' : List Bytes}

theorem Begin.refl (ws : List Bytes) : Begin ws ws := by
  intro k w h
  exact ⟨[], by rw [List.append_nil]; exact h⟩

theorem Begin.trans (h : Begin ws ws') (h' : Begin ws' ws'') : Begin ws ws'' := by
  intro k w hw
  rcases h k w hw with ⟨v, hv⟩
  rcases h' k _ hv with ⟨v', hv'⟩
  exact ⟨v ++ v', by rw [hv', List.append_assoc]⟩

theorem begin_append (ws xs : List Bytes) : Begin ws (ws ++ xs) := by
  intro k w hw
  refine ⟨[], ?_⟩
  rw [List.append_nil, List.getElem?_append_left (List.getElem?_eq_some_iff.mp hw).1]
  exact hw

/-- The last word goes on. -/
theorem begin_last (ws : List Bytes) (w v : Bytes) : Begin (ws ++ [w]) (ws ++ [w ++ v]) := by
  intro k x hx
  rw [List.getElem?_append] at hx ⊢
  by_cases hk : k < ws.length
  · rw [if_pos hk] at hx ⊢
    exact ⟨[], by rw [List.append_nil]; exact hx⟩
  · rw [if_neg hk] at hx ⊢
    cases hj : k - ws.length with
    | zero =>
      rw [hj] at hx
      have hw : w = x := by simpa using hx
      exact ⟨v, by rw [hw]; rfl⟩
    | succ j =>
      rw [hj] at hx
      simp at hx

/-- Only the word that is being read changes. -/
theorem begin_word (hcommands : s'.commands = s.commands) (hwords : s'.words = s.words)
    (hword : s'.word = some ((s.word.getD ([], false)).1 ++ v, q)) : Begin s.first s'.first := by
  unfold Shell.first
  rw [hcommands, hwords, hword]
  cases s.commands with
  | cons command rest => exact .refl _
  | nil =>
    cases s.word with
    | none =>
      dsimp only [Option.map_none, Option.toList_none]
      rw [List.append_nil]
      exact begin_append _ _
    | some w => exact begin_last _ _ _

theorem push_begin (s : Shell) (b : UInt8) (quoted : Bool) : Begin s.first (s.push b quoted).first :=
  begin_word rfl rfl rfl

theorem openQuote_begin (s : Shell) (mode : Mode) : Begin s.first (s.openQuote mode).first := by
  have hword : (s.openQuote mode).word = some ((s.word.getD ([], false)).1 ++ [], true) := by
    rw [List.append_nil]
    rfl
  exact begin_word rfl rfl hword

theorem endWord_first (h : s.endWord = some s') : s'.first = s.first ∧ s'.commands = s.commands ∧
    s'.word = none := by
  unfold endWord at h
  cases hword : s.word with
  | none =>
    simp only [hword, Option.some.injEq] at h
    rw [← h]
    exact ⟨rfl, rfl, hword⟩
  | some w =>
    simp only [hword] at h
    split at h
    · cases h
    · rw [Option.some.injEq] at h
      rw [← h]
      refine ⟨?_, rfl, rfl⟩
      unfold Shell.first
      dsimp only
      rw [hword]
      simp

theorem endCommand_begin (h : s.endCommand b = some s') : Begin s.first s'.first := by
  unfold endCommand at h
  rcases Option.bind_eq_some_iff.mp h with ⟨t, hword, h⟩
  rcases endWord_first hword with ⟨hfirst, hcommands, hnone⟩
  rw [← hfirst]
  split at h
  · split at h
    · rw [Option.some.injEq] at h
      rw [h]
      exact .refl _
    · split at h
      · rw [Option.some.injEq] at h
        rw [← h]
        exact .refl _
      · cases h
  · rw [Option.some.injEq] at h
    rw [← h]
    unfold Shell.first
    rw [hnone]
    cases t.commands with
    | cons command rest => exact .refl _
    | nil =>
      dsimp only [Option.map_none, Option.toList_none, List.nil_append]
      rw [List.append_nil]
      exact .refl _

/-- No byte changes a word that was read, and the one that is being read only goes on. -/
theorem step_begin (h : s.step b = some s') : Begin s.first s'.first := by
  unfold Shell.step at h
  cases hmode : s.mode with
  | unquoted =>
    simp only [hmode] at h
    split at h
    · exact endCommand_begin h
    -- the operator before is forgotten, which no word depends on
    have hsame : s.first = { s with operator := none }.first := rfl
    rw [hsame]
    split at h
    · rw [(endWord_first h).1]
      exact .refl _
    split at h
    · rw [← Option.some.inj h]
      exact openQuote_begin _ _
    split at h
    · rw [← Option.some.inj h]
      exact openQuote_begin _ _
    split at h
    · rw [← Option.some.inj h]
      exact .refl _
    split at h
    · cases h
    split at h
    · cases h
    split at h
    · rw [← Option.some.inj h]
      exact .refl _
    split at h
    · cases h
    · rw [← Option.some.inj h]
      exact push_begin _ _ _
  | escaped =>
    simp only [hmode] at h
    split at h
    · rw [← Option.some.inj h]
      exact .refl _
    · rw [← Option.some.inj h]
      exact push_begin s b true
  | single =>
    simp only [hmode] at h
    split at h
    · rw [← Option.some.inj h]
      exact .refl _
    · rw [← Option.some.inj h]
      exact push_begin _ _ _
  | double =>
    simp only [hmode] at h
    split at h
    · rw [← Option.some.inj h]
      exact .refl _
    split at h
    · cases h
    split at h
    · rw [← Option.some.inj h]
      exact .refl _
    · rw [← Option.some.inj h]
      exact push_begin _ _ _
  | doubleEscaped =>
    simp only [hmode] at h
    have hsame : s.first = { s with mode := .double }.first := rfl
    rw [hsame]
    split at h
    · rw [← Option.some.inj h]
      exact .refl _
    split at h
    · rw [← Option.some.inj h]
      exact push_begin _ _ _
    · rw [← Option.some.inj h]
      exact (push_begin _ _ _).trans (push_begin _ _ _)
  | comment =>
    simp only [hmode] at h
    have hsame : s.first = { s with mode := .unquoted }.first := rfl
    split at h
    · rw [hsame]
      exact endCommand_begin h
    · rw [← Option.some.inj h]
      exact .refl _

theorem run_begin {input : Bytes} (h : run Shell.step s input = some s') : Begin s.first s'.first := by
  induction input generalizing s with
  | nil =>
    rw [run_nil, Option.some.injEq] at h
    rw [h]
    exact .refl _
  | cons b input ih =>
    obtain ⟨t, hstep, hrest⟩ := run_cons_eq_some h
    exact (step_begin hstep).trans (ih hrest)

theorem finish_begin {cmds : List (List Bytes)} (h : s.finish = some cmds) :
    Begin s.first (cmds.headD []) := by
  unfold finish at h
  split at h
  · rcases Option.bind_eq_some_iff.mp h with ⟨t, hword, h⟩
    rcases endWord_first hword with ⟨hfirst, hcommands, hnone⟩
    rw [← hfirst]
    unfold Shell.first
    rw [hnone]
    split at h
    · rename_i hwords
      split at h
      · cases h
      · rw [← Option.some.inj h, hwords]
        cases t.commands with
        | nil => exact .refl _
        | cons command rest => exact .refl _
    · rw [← Option.some.inj h]
      cases t.commands with
      | nil =>
        dsimp only [Option.map_none, Option.toList_none, List.nil_append, List.headD_cons]
        rw [List.append_nil]
        exact .refl _
      | cons command rest => exact .refl _
  · cases h

/-- What was read of the first command is the beginning of it, whatever follows. -/
theorem commands_begin {front back : Bytes} {cmds : List (List Bytes)}
    (hfront : run Shell.step .start front = some s) (h : commands (front ++ back) = some cmds) :
    Begin s.first (cmds.headD []) := by
  unfold commands at h
  rcases Option.bind_eq_some_iff.mp h with ⟨t, hrun, hfinish⟩
  rw [run_append, hfront, Option.bind_some] at hrun
  exact (run_begin hrun).trans (finish_begin hfinish)

end EvQueue.ShellWords
