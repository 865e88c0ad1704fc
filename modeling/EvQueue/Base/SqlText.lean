import Mathlib.Tactic.Common
import EvQueue.Base.Runs

/-!
# SqlText — the literals of an SQL statement, and arguments in their place

A machine that takes a statement character by character and tells the literals between apostrophes from the
code around them.  It gets stuck on comments, on the other quotation marks, and on a literal that a name in front
of it would change.  A format is read by the same machine, with arguments where they will be printed; the rules
below say that what is printed for an argument is read as this argument.  Of a database server nothing is assumed
but that it reads literals by the rules of `Server.Documented`; what the machine reads, it reads too.
-/

namespace EvQueue.SqlText

open Runs

inductive Symbol (κ : Type) where
  | char (c : Char)
  | argument (k : κ)
deriving DecidableEq

inductive Piece (κ : Type) where
  | code (x : Symbol κ)
  | literal (text : List (Symbol κ))
deriving DecidableEq

inductive Mode (κ : Type) where
  | code (previous : Char)
  | literal (text : List (Symbol κ))
  /-- Behind a backslash. -/
  | escaped (text : List (Symbol κ))
  /-- Behind the apostrophe that ends a literal, unless another one follows. -/
  | closed (text : List (Symbol κ))
  /-- Behind an argument. -/
  | placed
deriving DecidableEq

structure Lexer (κ : Type) where
  mode : Mode κ
  done : List (Piece κ)
deriving DecidableEq

/-- Characters that begin what the machine does not read. -/
def isForeign (c : Char) : Bool := c == '"' || c == Char.ofNat 96 || c == '#' || c == '\\'

def opensComment (previous c : Char) : Bool :=
  previous == '-' && c == '-' || previous == '/' && c == '*'

/-- A name, which would go on with a number and change a literal. -/
def isName (c : Char) : Bool := c.isAlphanum || c == '_' || c == '$' || 128 ≤ c.toNat

/-- What a backslash and a character stand for. -/
def unescape (c : Char) : List Char :=
  if c = '0' then ['\x00']
  else if c = 'b' then ['\x08']
  else if c = 'n' then ['\n']
  else if c = 'r' then ['\r']
  else if c = 't' then ['\t']
  else if c = 'Z' then ['\x1a']
  else if c = '%' ∨ c = '_' then ['\\', c]
  else [c]

namespace Lexer

variable {κ κ' : Type}

def start : Lexer κ := ⟨.code ' ', []⟩

def codeStep (done : List (Piece κ)) (previous c : Char) : Option (Lexer κ) :=
  if c = '\'' then if isName previous then none else some ⟨.literal [], done⟩
  else if isForeign c || opensComment previous c then none
  else some ⟨.code c, done ++ [.code (.char c)]⟩

def step (l : Lexer κ) (c : Char) : Option (Lexer κ) :=
  match l.mode with
  | .code previous => codeStep l.done previous c
  | .literal text =>
      if c = '\'' then some ⟨.closed text, l.done⟩
      else if c = '\\' then some ⟨.escaped text, l.done⟩
      else some ⟨.literal (text ++ [.char c]), l.done⟩
  | .escaped text => some ⟨.literal (text ++ (unescape c).map .char), l.done⟩
  | .closed text =>
      if c = '\'' then some ⟨.literal (text ++ [.char '\'']), l.done⟩
      else codeStep (l.done ++ [.literal text]) '\'' c
  | .placed => if c = '\'' ∨ isName c then none else codeStep l.done ' ' c

/-- An argument; one that is `quotable` may also stand within a literal. -/
def place (l : Lexer κ) (k : κ) (quotable : Bool) : Option (Lexer κ) :=
  match l.mode with
  | .code previous =>
      if isName previous || previous == '-' then none
      else some ⟨.placed, l.done ++ [.code (.argument k)]⟩
  | .literal text => if quotable then some ⟨.literal (text ++ [.argument k]), l.done⟩ else none
  | _ => none

/-- The end of the statement. -/
def finish (l : Lexer κ) : Option (List (Piece κ)) :=
  match l.mode with
  | .code _ | .placed => some l.done
  | .closed text => some (l.done ++ [.literal text])
  | _ => none

end Lexer

open Lexer

/-- The pieces of a statement. -/
def pieces (statement : List Char) : Option (List (Piece Empty)) :=
  (run Lexer.step Lexer.start statement).bind Lexer.finish

/-! ## A server -/

/-- What takes a statement apart. -/
structure Server where
  State : Type
  start : State
  step : State → Char → Option State
  finish : State → Option (List (Piece Empty))

def Server.pieces (server : Server) (statement : List Char) : Option (List (Piece Empty)) :=
  (run server.step server.start statement).bind server.finish

/-- The rules for literals, where backslashes escape and quotation marks are no apostrophes: which state the
server comes to in code, within a literal, behind a backslash in it, and behind its apostrophe.  Nothing is said
of comments, names in front of a literal, and other quotation marks. -/
structure Server.Documented (server : Server) (state : Mode Empty → List (Piece Empty) → server.State) :
    Prop where
  start : server.start = state (.code ' ') []
  code (previous c : Char) (done : List (Piece Empty)) (hquote : c ≠ '\'')
    (hplain : (isForeign c || opensComment previous c) = false) :
    server.step (state (.code previous) done) c = some (state (.code c) (done ++ [.code (.char c)]))
  opened (previous : Char) (done : List (Piece Empty)) (hname : isName previous = false) :
    server.step (state (.code previous) done) '\'' = some (state (.literal []) done)
  character (text : List (Symbol Empty)) (done : List (Piece Empty)) (c : Char) (hquote : c ≠ '\'')
    (hback : c ≠ '\\') :
    server.step (state (.literal text) done) c = some (state (.literal (text ++ [.char c])) done)
  backslash (text : List (Symbol Empty)) (done : List (Piece Empty)) :
    server.step (state (.literal text) done) '\\' = some (state (.escaped text) done)
  escaped (text : List (Symbol Empty)) (done : List (Piece Empty)) (c : Char) :
    server.step (state (.escaped text) done) c =
      some (state (.literal (text ++ (unescape c).map .char)) done)
  closed (text : List (Symbol Empty)) (done : List (Piece Empty)) :
    server.step (state (.literal text) done) '\'' = some (state (.closed text) done)
  doubled (text : List (Symbol Empty)) (done : List (Piece Empty)) :
    server.step (state (.closed text) done) '\'' = some (state (.literal (text ++ [.char '\''])) done)
  behind (text : List (Symbol Empty)) (done : List (Piece Empty)) (c : Char) (hquote : c ≠ '\'') :
    server.step (state (.closed text) done) c =
      server.step (state (.code '\'') (done ++ [.literal text])) c
  finishCode (previous : Char) (done : List (Piece Empty)) :
    server.finish (state (.code previous) done) = some done
  finishClosed (text : List (Symbol Empty)) (done : List (Piece Empty)) :
    server.finish (state (.closed text) done) = some (done ++ [.literal text])

namespace Server.Documented

variable {server : Server} {state : Mode Empty → List (Piece Empty) → server.State}
variable {l l₁ : Lexer Empty} {done : List (Piece Empty)} {previous c : Char} {statement : List Char}

theorem codeStep (h : server.Documented state) (hstep : Lexer.codeStep done previous c = some l₁) :
    server.step (state (.code previous) done) c = some (state l₁.mode l₁.done) ∧ l₁.mode ≠ .placed := by
  unfold Lexer.codeStep at hstep
  by_cases hquote : c = '\''
  · rw [if_pos hquote] at hstep
    split at hstep
    · cases hstep
    · rename_i hname
      rw [Bool.not_eq_true] at hname
      cases hstep
      rw [hquote]
      exact ⟨h.opened previous done hname, nofun⟩
  · rw [if_neg hquote] at hstep
    split at hstep
    · cases hstep
    · rename_i hplain
      rw [Bool.not_eq_true] at hplain
      cases hstep
      exact ⟨h.code previous c done hquote hplain, nofun⟩

/-- Where the machine takes a step, the server takes the same one. -/
theorem step (h : server.Documented state) (hplaced : l.mode ≠ .placed) (hstep : l.step c = some l₁) :
    server.step (state l.mode l.done) c = some (state l₁.mode l₁.done) ∧ l₁.mode ≠ .placed := by
  rcases l with ⟨mode, done⟩
  unfold Lexer.step at hstep
  cases mode with
  | code previous => exact h.codeStep hstep
  | literal text =>
    dsimp only at hstep ⊢
    by_cases hquote : c = '\''
    · rw [if_pos hquote] at hstep
      cases hstep
      rw [hquote]
      exact ⟨h.closed text done, nofun⟩
    · rw [if_neg hquote] at hstep
      by_cases hback : c = '\\'
      · rw [if_pos hback] at hstep
        cases hstep
        rw [hback]
        exact ⟨h.backslash text done, nofun⟩
      · rw [if_neg hback] at hstep
        cases hstep
        exact ⟨h.character text done c hquote hback, nofun⟩
  | escaped text =>
    cases hstep
    exact ⟨h.escaped text done c, nofun⟩
  | closed text =>
    dsimp only at hstep ⊢
    by_cases hquote : c = '\''
    · rw [if_pos hquote] at hstep
      cases hstep
      rw [hquote]
      exact ⟨h.doubled text done, nofun⟩
    · rw [if_neg hquote] at hstep
      rw [h.behind text done c hquote]
      exact h.codeStep hstep
  | placed => exact absurd rfl hplaced

theorem run (h : server.Documented state) (hplaced : l.mode ≠ .placed)
    (hrun : Runs.run Lexer.step l statement = some l₁) :
    Runs.run server.step (state l.mode l.done) statement = some (state l₁.mode l₁.done) ∧
      l₁.mode ≠ .placed := by
  induction statement generalizing l with
  | nil =>
    cases hrun
    exact ⟨rfl, hplaced⟩
  | cons c statement ih =>
    rw [run_cons] at hrun ⊢
    rcases Option.bind_eq_some_iff.mp hrun with ⟨l₂, hstep, hrun⟩
    rcases h.step hplaced hstep with ⟨hserver, hplaced'⟩
    rw [hserver, Option.bind_some]
    exact ih hplaced' hrun

/-- **What the machine reads, the server reads.** -/
theorem pieces_eq (h : server.Documented state) {ps : List (Piece Empty)}
    (hpieces : SqlText.pieces statement = some ps) : server.pieces statement = some ps := by
  unfold SqlText.pieces at hpieces
  rcases Option.bind_eq_some_iff.mp hpieces with ⟨l, hrun, hfinish⟩
  rcases h.run (l := Lexer.start) nofun hrun with ⟨hserver, hplaced⟩
  have hstart : server.start = state (Lexer.start (κ := Empty)).mode (Lexer.start (κ := Empty)).done := h.start
  unfold Server.pieces
  rw [hstart, hserver, Option.bind_some]
  rcases l with ⟨mode, done⟩
  cases mode with
  | code previous =>
    cases hfinish
    exact h.finishCode previous _
  | literal text => cases hfinish
  | escaped text => cases hfinish
  | closed text =>
    cases hfinish
    exact h.finishClosed text done
  | placed => exact absurd rfl hplaced

end Server.Documented

/-- The machine as a server. -/
def Lexer.server : Server where
  State := Lexer Empty
  start := Lexer.start
  step := Lexer.step
  finish := Lexer.finish

theorem Lexer.server_documented : Lexer.server.Documented Lexer.mk where
  start := rfl
  code previous c done hquote hplain := by
    show Lexer.codeStep done previous c = _
    unfold Lexer.codeStep
    rw [if_neg hquote, hplain, if_neg Bool.false_ne_true]
    rfl
  opened previous done hname := by
    show Lexer.codeStep done previous '\'' = _
    unfold Lexer.codeStep
    rw [if_pos rfl, hname, if_neg Bool.false_ne_true]
    rfl
  character text done c hquote hback := by
    show Lexer.step ⟨.literal text, done⟩ c = _
    unfold Lexer.step
    dsimp only
    rw [if_neg hquote, if_neg hback]
    rfl
  backslash _ _ := rfl
  escaped _ _ _ := rfl
  closed _ _ := rfl
  doubled _ _ := rfl
  behind text done c hquote := by
    show Lexer.step ⟨.closed text, done⟩ c = _
    unfold Lexer.step
    dsimp only
    rw [if_neg hquote]
    rfl
  finishCode _ _ := rfl
  finishClosed _ _ := rfl

/-! ## Arguments in their place -/

/-- What is printed for an argument: a literal with this text, or a word as it is. -/
inductive Value where
  | text (s : List Char)
  | word (w : List Char)

variable {κ κ' : Type} {value : κ → Value} {l l₁ : Lexer κ} {l' : Lexer κ'} {c : Char} {k : κ}

def Symbol.fill (value : κ → Value) : Symbol κ → List (Symbol κ')
  | .char c => [.char c]
  | .argument k =>
      match value k with
      | .text s => s.map .char
      | .word w => w.map .char

def Piece.fill (value : κ → Value) : Piece κ → List (Piece κ')
  | .code (.char c) => [.code (.char c)]
  | .code (.argument k) =>
      match value k with
      | .text s => [.literal (s.map .char)]
      | .word w => w.map fun c ↦ .code (.char c)
  | .literal text => [.literal (text.flatMap (Symbol.fill value))]

/-- The statement is read as the format is, with the arguments filled in. -/
inductive Fills (value : κ → Value) : Lexer κ → Lexer κ' → Prop
  | code (previous : Char) (done : List (Piece κ)) :
      Fills value ⟨.code previous, done⟩ ⟨.code previous, done.flatMap (Piece.fill value)⟩
  | literal (text : List (Symbol κ)) (done : List (Piece κ)) :
      Fills value ⟨.literal text, done⟩
        ⟨.literal (text.flatMap (Symbol.fill value)), done.flatMap (Piece.fill value)⟩
  | escaped (text : List (Symbol κ)) (done : List (Piece κ)) :
      Fills value ⟨.escaped text, done⟩
        ⟨.escaped (text.flatMap (Symbol.fill value)), done.flatMap (Piece.fill value)⟩
  | closed (text : List (Symbol κ)) (done : List (Piece κ)) :
      Fills value ⟨.closed text, done⟩
        ⟨.closed (text.flatMap (Symbol.fill value)), done.flatMap (Piece.fill value)⟩
  | word (previous : Char) (done : List (Piece κ)) (h : previous ≠ '-' ∧ previous ≠ '/') :
      Fills value ⟨.placed, done⟩ ⟨.code previous, done.flatMap (Piece.fill value)⟩
  | text (text : List (Symbol κ')) (done : List (Piece κ)) (done' : List (Piece κ'))
      (h : done.flatMap (Piece.fill value) = done' ++ [.literal text]) :
      Fills value ⟨.placed, done⟩ ⟨.closed text, done'⟩

theorem fills_start : Fills value (start : Lexer κ) (start : Lexer κ') := .code ' ' []

/-- What was read is filled in, and both go on with code. -/
theorem Fills.codeStep {done : List (Piece κ)} {done' : List (Piece κ')} {previous previous' : Char}
    (hdone : done' = done.flatMap (Piece.fill value)) (hname : c = '\'' → previous' = previous)
    (hcomment : opensComment previous' c = true → opensComment previous c = true)
    (h : codeStep done previous c = some l₁) :
    ∃ l₁', codeStep done' previous' c = some l₁' ∧ Fills value l₁ l₁' := by
  unfold Lexer.codeStep at h ⊢
  by_cases hquote : c = '\''
  · rw [if_pos hquote] at h ⊢
    rw [hname hquote]
    split at h
    · cases h
    · rename_i hfree
      rw [if_neg hfree, ← Option.some.inj h, hdone]
      exact ⟨_, rfl, .literal [] done⟩
  · rw [if_neg hquote] at h ⊢
    split at h
    · cases h
    · rename_i hplain
      have hplain' : ¬ (isForeign c || opensComment previous' c) = true := by
        rw [Bool.or_eq_true, not_or] at hplain ⊢
        exact ⟨hplain.1, fun hopens ↦ hplain.2 (hcomment hopens)⟩
      rw [if_neg hplain', ← Option.some.inj h, hdone]
      refine ⟨_, rfl, ?_⟩
      have hcode : (done ++ [Piece.code (.char c)]).flatMap (Piece.fill value) =
          done.flatMap (Piece.fill value) ++ [Piece.code (.char c) (κ := κ')] := by
        rw [List.flatMap_append]
        rfl
      rw [← hcode]
      exact .code c _

theorem opensComment_of_ne {previous : Char} (h : previous ≠ '-' ∧ previous ≠ '/') (c : Char) :
    opensComment previous c = false := by
  unfold opensComment
  rw [beq_eq_false_iff_ne.mpr h.1, beq_eq_false_iff_ne.mpr h.2]
  rfl

theorem fill_chars (w : List Char) :
    (w.map Symbol.char).flatMap (Symbol.fill value) = w.map (Symbol.char (κ := κ')) := by
  induction w with
  | nil => rfl
  | cons c w ih =>
    rw [List.map_cons, List.flatMap_cons, ih]
    rfl

theorem fill_snoc_char (text : List (Symbol κ)) (c : Char) :
    (text ++ [Symbol.char c]).flatMap (Symbol.fill value) =
      text.flatMap (Symbol.fill value) ++ [Symbol.char c (κ := κ')] := by
  rw [List.flatMap_append]
  rfl

theorem fill_snoc_literal (done : List (Piece κ)) (text : List (Symbol κ)) :
    (done ++ [Piece.literal text]).flatMap (Piece.fill value) =
      done.flatMap (Piece.fill value) ++ [Piece.literal (κ := κ') (text.flatMap (Symbol.fill value))] := by
  rw [List.flatMap_append]
  rfl

/-- A character of the format. -/
theorem Fills.step (hfills : Fills value l l') (h : l.step c = some l₁) :
    ∃ l₁', l'.step c = some l₁' ∧ Fills value l₁ l₁' := by
  cases hfills with
  | code previous done => exact Fills.codeStep rfl (fun _ ↦ rfl) id h
  | literal text done =>
    unfold Lexer.step at h ⊢
    dsimp only at h ⊢
    by_cases hquote : c = '\''
    · rw [if_pos hquote] at h ⊢
      rw [← Option.some.inj h]
      exact ⟨_, rfl, .closed text done⟩
    · rw [if_neg hquote] at h ⊢
      by_cases hback : c = '\\'
      · rw [if_pos hback] at h ⊢
        rw [← Option.some.inj h]
        exact ⟨_, rfl, .escaped text done⟩
      · rw [if_neg hback] at h ⊢
        rw [← Option.some.inj h, ← fill_snoc_char]
        exact ⟨_, rfl, .literal _ done⟩
  | escaped text done =>
    -- an escaped character is text, whatever it is
    have hnext : l₁ = ⟨.literal (text ++ (unescape c).map .char), done⟩ := (Option.some.inj h).symm
    have htext : (text ++ (unescape c).map Symbol.char).flatMap (Symbol.fill value) =
        text.flatMap (Symbol.fill value) ++ (unescape c).map (Symbol.char (κ := κ')) := by
      rw [List.flatMap_append, fill_chars]
    refine ⟨_, rfl, ?_⟩
    rw [hnext, ← htext]
    exact .literal _ done
  | closed text done =>
    unfold Lexer.step at h ⊢
    dsimp only at h ⊢
    by_cases hquote : c = '\''
    · rw [if_pos hquote] at h ⊢
      rw [← Option.some.inj h, ← fill_snoc_char]
      exact ⟨_, rfl, .literal _ done⟩
    · rw [if_neg hquote] at h ⊢
      exact Fills.codeStep (fill_snoc_literal done text).symm (fun _ ↦ rfl) id h
  | word previous done hprevious =>
    unfold Lexer.step at h ⊢
    dsimp only at h ⊢
    split at h
    · cases h
    · rename_i hfree
      refine Fills.codeStep rfl (fun heq ↦ absurd (.inl heq) hfree) (fun hopens ↦ ?_) h
      rw [opensComment_of_ne hprevious] at hopens
      cases hopens
  | text text done done' hdone =>
    unfold Lexer.step at h ⊢
    dsimp only at h ⊢
    split at h
    · cases h
    · rename_i hfree
      rw [if_neg fun hquote ↦ hfree (.inl hquote)]
      refine Fills.codeStep hdone.symm (fun heq ↦ absurd (.inl heq) hfree) (fun hopens ↦ ?_) h
      rw [opensComment_of_ne (by decide)] at hopens
      cases hopens

/-- Characters that are words wherever they stand. -/
def isPlain (c : Char) : Bool :=
  !(c == '\'' || isForeign c || c == '-' || c == '/' || c == '*')

theorem run_plain {w : List Char} (hplain : ∀ c ∈ w, isPlain c = true) (hne : w ≠ []) (previous : Char)
    (done : List (Piece κ')) : ∃ last, last ≠ '-' ∧ last ≠ '/' ∧
      run Lexer.step ⟨.code previous, done⟩ w =
        some ⟨.code last, done ++ w.map fun c ↦ Piece.code (.char c)⟩ := by
  induction w generalizing previous done with
  | nil => exact absurd rfl hne
  | cons c w ih =>
    have hc := hplain c List.mem_cons_self
    unfold isPlain at hc
    simp only [Bool.not_eq_true', Bool.or_eq_false_iff, beq_eq_false_iff_ne] at hc
    rcases hc with ⟨⟨⟨⟨hquote, hforeign⟩, hdash⟩, hslash⟩, hstar⟩
    have hopens : opensComment previous c = false := by
      unfold opensComment
      rw [beq_eq_false_iff_ne.mpr hdash, beq_eq_false_iff_ne.mpr hstar, Bool.and_false, Bool.and_false]
      rfl
    have hstep : Lexer.step ⟨.code previous, done⟩ c = some ⟨.code c, done ++ [Piece.code (.char c)]⟩ := by
      show Lexer.codeStep done previous c = _
      unfold Lexer.codeStep
      rw [if_neg hquote, hforeign, hopens, if_neg (by decide)]
    rw [run_cons, hstep, Option.bind_some]
    by_cases hnil : w = []
    · rw [hnil]
      exact ⟨c, hdash, hslash, rfl⟩
    · rcases ih (fun d hd ↦ hplain d (List.mem_cons_of_mem c hd)) hnil c (done ++ [Piece.code (.char c)]) with
        ⟨last, hlast, hlast', hrun⟩
      refine ⟨last, hlast, hlast', ?_⟩
      rw [hrun, List.append_assoc]
      rfl

/-- Within a literal they stand for themselves, and so does a sign. -/
theorem run_literal {w : List Char} (hfree : ∀ c ∈ w, c ≠ '\'' ∧ c ≠ '\\') (text : List (Symbol κ'))
    (done : List (Piece κ')) :
    run Lexer.step ⟨.literal text, done⟩ w = some ⟨.literal (text ++ w.map .char), done⟩ := by
  induction w generalizing text with
  | nil => rw [run_nil, List.map_nil, List.append_nil]
  | cons c w ih =>
    have hc := hfree c List.mem_cons_self
    have hstep : Lexer.step ⟨.literal text, done⟩ c = some ⟨.literal (text ++ [.char c]), done⟩ := by
      unfold Lexer.step
      dsimp only
      rw [if_neg hc.1, if_neg hc.2]
    rw [run_cons, hstep, Option.bind_some, ih fun d hd ↦ hfree d (List.mem_cons_of_mem c hd),
      List.append_assoc]
    rfl

/-- A number or another word that is no part of a name: plain characters, with a sign perhaps. -/
def IsWord (w : List Char) : Prop :=
  ∃ sign plain, (sign = [] ∨ sign = ['-']) ∧ plain ≠ [] ∧ (∀ c ∈ plain, isPlain c = true) ∧ w = sign ++ plain

/-- A word in the place of an argument. -/
theorem Fills.place_word {w : List Char} {quotable : Bool} (hfills : Fills value l l')
    (h : l.place k quotable = some l₁) (hvalue : value k = .word w) (hword : IsWord w) :
    ∃ l₁', run Lexer.step l' w = some l₁' ∧ Fills value l₁ l₁' := by
  rcases hword with ⟨sign, plain, hsign, hne, hplain, rfl⟩
  cases hfills with
  | code previous done =>
    unfold Lexer.place at h
    dsimp only at h
    split at h
    · cases h
    rename_i hfree
    rw [Bool.or_eq_true, not_or, beq_iff_eq] at hfree
    have hdone : (done ++ [Piece.code (.argument k)]).flatMap (Piece.fill value) =
        done.flatMap (Piece.fill value) ++ (sign ++ plain).map fun c ↦ Piece.code (κ := κ') (.char c) := by
      rw [List.flatMap_append]
      simp [Piece.fill, hvalue]
    -- a sign opens no comment, since the character in front of it is no dash
    have hsigned : ∃ before, run Lexer.step ⟨.code previous, done.flatMap (Piece.fill value)⟩ sign =
        some (⟨.code before, done.flatMap (Piece.fill value) ++ sign.map fun c ↦ Piece.code (.char c)⟩ :
          Lexer κ') := by
      rcases hsign with rfl | rfl
      · exact ⟨previous, by rw [List.map_nil, List.append_nil]; rfl⟩
      · refine ⟨'-', ?_⟩
        have hopens : opensComment previous '-' = false := by
          unfold opensComment
          rw [beq_eq_false_iff_ne.mpr hfree.2, Bool.false_and, Bool.false_or]
          exact Bool.and_eq_false_imp.mpr fun _ ↦ rfl
        rw [run_cons]
        show (Lexer.codeStep _ previous '-').bind _ = _
        unfold Lexer.codeStep
        rw [if_neg (by decide), hopens, if_neg (by decide)]
        rfl
    rcases hsigned with ⟨before, hbefore⟩
    rcases run_plain hplain hne before
      (done.flatMap (Piece.fill value) ++ sign.map fun c ↦ Piece.code (κ := κ') (.char c)) with
      ⟨last, hdash, hslash, hrun⟩
    refine ⟨_, by rw [run_append, hbefore, Option.bind_some, hrun], ?_⟩
    rw [List.append_assoc, ← List.map_append, ← hdone, ← Option.some.inj h]
    exact .word last _ ⟨hdash, hslash⟩
  | literal text done =>
    unfold Lexer.place at h
    dsimp only at h
    split at h
    · -- a word holds neither a quote nor a backslash, so it stays inside the literal
      have hfree : ∀ c ∈ sign ++ plain, c ≠ '\'' ∧ c ≠ '\\' := by
        intro c hc
        rcases List.mem_append.mp hc with hc | hc
        · rcases hsign with rfl | rfl
          · cases hc
          · rw [List.mem_singleton.mp hc]
            decide
        · have hplain' := hplain c hc
          unfold isPlain isForeign at hplain'
          simp only [Bool.not_eq_true', Bool.or_eq_false_iff, beq_eq_false_iff_ne] at hplain'
          exact ⟨hplain'.1.1.1.1, hplain'.1.1.1.2.2⟩
      have htext : (text ++ [Symbol.argument k]).flatMap (Symbol.fill value) =
          text.flatMap (Symbol.fill value) ++ (sign ++ plain).map (Symbol.char (κ := κ')) := by
        rw [List.flatMap_append]
        simp [Symbol.fill, hvalue]
      refine ⟨_, run_literal hfree _ _, ?_⟩
      rw [← htext, ← Option.some.inj h]
      exact .literal _ done
    · cases h
  | escaped text done => cases h
  | closed text done => cases h
  | word previous done hprevious => cases h
  | text text done done' hdone => cases h

/-- Between apostrophes `quoted` is read as `s`. -/
def Quotes (quoted s : List Char) : Prop :=
  ∀ (κ : Type) (text : List (Symbol κ)) (done : List (Piece κ)),
    run Lexer.step ⟨.literal text, done⟩ quoted = some ⟨.literal (text ++ s.map .char), done⟩

/-- A literal in the place of an argument. -/
theorem Fills.place_text {quoted s : List Char} (hfills : Fills value l l')
    (h : l.place k false = some l₁) (hvalue : value k = .text s) (hquotes : Quotes quoted s) :
    ∃ l₁', run Lexer.step l' ('\'' :: quoted ++ ['\'']) = some l₁' ∧ Fills value l₁ l₁' := by
  cases hfills with
  | code previous done =>
    unfold Lexer.place at h
    dsimp only at h
    split at h
    · cases h
    rename_i hfree
    rw [Bool.or_eq_true, not_or] at hfree
    have hopen : Lexer.step (κ := κ') ⟨.code previous, done.flatMap (Piece.fill value)⟩ '\'' =
        some ⟨.literal [], done.flatMap (Piece.fill value)⟩ := by
      show Lexer.codeStep _ previous '\'' = _
      unfold Lexer.codeStep
      rw [if_pos rfl, if_neg hfree.1]
    refine ⟨⟨.closed (s.map .char), done.flatMap (Piece.fill value)⟩, ?_, ?_⟩
    · rw [List.cons_append, run_cons, hopen, Option.bind_some, run_append, hquotes, Option.bind_some]
      rfl
    · rw [← Option.some.inj h]
      refine .text _ _ _ ?_
      rw [List.flatMap_append]
      simp [Piece.fill, hvalue]
  | literal text done => cases h
  | escaped text done => cases h
  | closed text done => cases h
  | word previous done hprevious => cases h
  | text text done done' hdone => cases h

/-- The end of the statement. -/
theorem Fills.finish {ps : List (Piece κ)} (hfills : Fills value l l') (h : l.finish = some ps) :
    l'.finish = some (ps.flatMap (Piece.fill value)) := by
  cases hfills with
  | code previous done =>
    rw [← Option.some.inj h]
    rfl
  | literal text done => cases h
  | escaped text done => cases h
  | closed text done =>
    rw [← Option.some.inj h, fill_snoc_literal]
    rfl
  | word previous done hprevious =>
    rw [← Option.some.inj h]
    rfl
  | text text done done' hdone =>
    rw [← Option.some.inj h, hdone]
    rfl

end EvQueue.SqlText
