import EvQueue.Base.SqlText
import EvQueue.DB

/-!
# DBStatements — what the database makes of a statement

The formats of the engine are read once as they stand in the source, with a hole for each argument.  A statement
that `QueryPrintf` makes from one of them is read as that format with its holes filled: a string is one literal
with this text, whatever it contains.
-/

namespace EvQueue.DB

open Runs SqlText

/-! ## Formats -/

/-- The formats that `QueryPrintf` is called with. -/
def formats : List String := [
  -- GarbageCollector::purge
  "DELETE FROM t_workflow_instance WHERE workflow_instance_status='TERMINATED' " ++
    "AND workflow_instance_end <= %s LIMIT %i",
  "DELETE wip FROM t_workflow_instance_parameters wip LEFT JOIN t_workflow_instance wi " ++
    "ON wip.workflow_instance_id=wi.workflow_instance_id WHERE wi.workflow_instance_id IS NULL",
  "DELETE FROM t_log WHERE log_timestamp <= %s LIMIT %i",
  -- Logger::Log
  "INSERT INTO t_log(log_level,log_message,log_timestamp) VALUES(%i,%s,NOW())",
  -- Queue
  "SELECT queue_id,queue_concurrency FROM t_queue WHERE queue_name=%s",
  -- RetrySchedule
  "SELECT schedule_xml FROM t_schedule WHERE schedule_name=%s",
  -- Task
  "SELECT task_binary,task_wd,task_user,task_host,task_parameters_mode,task_output_method " ++
    "FROM t_task WHERE task_name=%s",
  -- Workflow
  "SELECT workflow_id,workflow_name,workflow_xml FROM t_workflow WHERE workflow_name=%s",
  -- WorkflowInstance
  "INSERT INTO t_workflow_instance(workflow_id,workflow_schedule_id,workflow_instance_host," ++
    "workflow_instance_status,workflow_instance_start) VALUES(%i,%i,%s,'EXECUTING',NOW())",
  "INSERT INTO t_workflow_instance_parameters VALUES(%i,%s,%s)",
  "SELECT workflow_instance_savepoint, workflow_schedule_id, workflow_id " ++
    "FROM t_workflow_instance WHERE workflow_instance_id='%i'",
  "UPDATE t_workflow_instance SET workflow_instance_status='TERMINATED' WHERE workflow_instance_id=%i",
  "UPDATE t_workflow_instance SET workflow_instance_savepoint=%s WHERE workflow_instance_id=%i",
  "UPDATE t_workflow_instance SET workflow_instance_savepoint=%s,workflow_instance_status='TERMINATED'," ++
    "workflow_instance_errors=%i,workflow_instance_end=NOW() WHERE workflow_instance_id=%i",
  "\t\t\t\t\tINSERT INTO t_workflow_instance(workflow_instance_id,workflow_id,workflow_schedule_id," ++
    "workflow_instance_host,workflow_instance_start,workflow_instance_end,workflow_instance_status," ++
    "workflow_instance_errors,workflow_instance_savepoint)\t\t\t\t\tVALUES(%i,%i,%i,%s,%s,%s,%s,%i,%s)",
  -- WorkflowSchedule
  "SELECT w.workflow_name, ws.workflow_schedule, ws.workflow_schedule_onfailure,workflow_schedule_host," ++
    "workflow_schedule_user FROM t_workflow_schedule ws, t_workflow w " ++
    "WHERE ws.workflow_id=w.workflow_id AND ws.workflow_schedule_id=%i",
  "SELECT workflow_schedule_parameter,workflow_schedule_parameter_value " ++
    "FROM t_workflow_schedule_parameters WHERE workflow_schedule_id=%i",
  "UPDATE t_workflow_schedule SET workflow_schedule_active=1 WHERE workflow_schedule_id=%i",
  "UPDATE t_workflow_schedule SET workflow_schedule_active=0 WHERE workflow_schedule_id=%i",
  -- handle_connection
  "SELECT workflow_instance_savepoint FROM t_workflow_instance WHERE workflow_instance_id=%i"]

/-- A format with its arguments numbered from `k` on. -/
def readFormat : Nat → Lexer Nat → List Directive → Option (Lexer Nat)
  | _, l, [] => some l
  | k, l, .byte c :: ds => (l.step c).bind fun l' ↦ readFormat k l' ds
  | k, l, .string :: ds => (l.place k false).bind fun l' ↦ readFormat (k + 1) l' ds
  | k, l, .int :: ds => (l.place k true).bind fun l' ↦ readFormat (k + 1) l' ds

/-- The pieces of a format. -/
def formatPieces (query : List Char) : Option (List (Piece Nat)) :=
  (readFormat 0 .start (directives query)).bind Lexer.finish

theorem formats_read : ∀ query ∈ formats, (formatPieces query.toList).isSome = true := by
  simp only [formats, List.forall_mem_cons, String.toList_append]
  -- a literal is its list of characters; without this the kernel decodes each one from its bytes
  repeat rw [String.toList_ofList]
  decide +kernel

/-- What stands for the argument `k`. -/
def value (args : List Pointer) (k : Nat) : Value :=
  match args[k]? with
  | some (.string s) => .text s.chars
  | some (.int n) => .word (decimal n.toInt)
  | _ => .word "NULL".toList

/-! ## What is printed for an argument -/

/-- The machine undoes what `mysql_real_escape_string` does with one character. -/
theorem run_escapeChar (κ : Type) (text : List (Symbol κ)) (done : List (Piece κ)) (c : Char) :
    run Lexer.step ⟨.literal text, done⟩ (escapeChar c) = some ⟨.literal (text ++ [.char c]), done⟩ := by
  unfold escapeChar
  by_cases hnul : c = '\x00'
  · rw [if_pos hnul, hnul]
    rfl
  rw [if_neg hnul]
  by_cases hline : c = '\n'
  · rw [if_pos hline, hline]
    rfl
  rw [if_neg hline]
  by_cases hreturn : c = '\r'
  · rw [if_pos hreturn, hreturn]
    rfl
  rw [if_neg hreturn]
  by_cases hsub : c = '\x1a'
  · rw [if_pos hsub, hsub]
    rfl
  rw [if_neg hsub]
  by_cases hquoted : c = '\\' ∨ c = '\'' ∨ c = '"'
  · rw [if_pos hquoted]
    rcases hquoted with rfl | rfl | rfl <;> rfl
  rw [if_neg hquoted]
  rw [not_or, not_or] at hquoted
  exact run_literal (fun d hd ↦ by
    rw [List.mem_singleton.mp hd]
    exact ⟨hquoted.2.1, hquoted.1⟩) text done

theorem quotes_escapeString (s : CString) : Quotes (escapeString s) s.chars := by
  intro κ text done
  unfold escapeString
  induction s.chars generalizing text with
  | nil => rw [List.flatMap_nil, run_nil, List.map_nil, List.append_nil]
  | cons c cs ih =>
    rw [List.flatMap_cons, run_append, run_escapeChar, Option.bind_some, ih, List.append_assoc]
    rfl

theorem isPlain_of_isDigit {c : Char} (h : c.isDigit = true) : isPlain c = true := by
  have hne {d : Char} (hd : d.isDigit = false) : c ≠ d := by
    rintro rfl
    rw [h] at hd
    cases hd
  unfold isPlain isForeign
  simp only [Bool.not_eq_true', Bool.or_eq_false_iff, beq_eq_false_iff_ne]
  exact ⟨⟨⟨⟨hne rfl, ⟨⟨hne rfl, hne (by decide)⟩, hne rfl⟩, hne rfl⟩, hne rfl⟩, hne rfl⟩, hne rfl⟩

theorem isWord_decimal (n : Int) : IsWord (decimal n) := by
  refine ⟨if n < 0 then ['-'] else [], Nat.toDigits 10 n.natAbs, ?_, Nat.toDigits_ne_nil, ?_, rfl⟩
  · split
    · exact .inr rfl
    · exact .inl rfl
  · intro c hc
    exact isPlain_of_isDigit (Nat.isDigit_of_mem_toDigits (by decide) (by decide) hc)

theorem isWord_null : IsWord "NULL".toList := by
  refine ⟨[], "NULL".toList, .inl rfl, by decide, ?_, rfl⟩
  exact List.all_eq_true.mp (by decide)

/-! ## Reading a statement -/

variable {escape : CString → List Char} {query : CString} {args ap taken : List Pointer} {fs : List Field}
  {ds : List Directive} {l l₁ : Lexer Nat} {l' : Lexer Empty}

theorem value_append (taken ap : List Pointer) (arg : Pointer) :
    value (taken ++ arg :: ap) taken.length = value [arg] 0 := by
  unfold value
  rw [List.getElem?_append_right (Nat.le_refl _), Nat.sub_self]
  rfl

/-- **Statements** are read as their formats are.  Each field fills its directive, and the rest is copied. -/
theorem reads_text (hfields : fields ds ap = some fs) (hfills : Fills (value (taken ++ ap)) l l')
    (hread : readFormat taken.length l ds = some l₁) :
    ∃ l₁', run Lexer.step l' (text escapeString fs) = some l₁' ∧ Fills (value (taken ++ ap)) l₁ l₁' := by
  induction ds generalizing ap taken l l' fs with
  | nil =>
    cases ap with
    | nil =>
      cases hfields
      cases hread
      exact ⟨l', rfl, hfills⟩
    | cons arg ap => cases hfields
  | cons d ds ih =>
    cases fs with
    | nil => exact absurd hfields (fields_cons_ne_nil d ds ap)
    | cons f fs =>
    rw [text_cons]
    -- an argument that was printed is one of those taken
    have hnext {arg : Pointer} {ap' : List Pointer} {l₂ : Lexer Nat} {l₂' : Lexer Empty}
        (hap : ap = arg :: ap') (hrest : fields ds ap' = some fs)
        (hread' : readFormat (taken.length + 1) l₂ ds = some l₁)
        (hrun : run Lexer.step l' (f.text escapeString) = some l₂')
        (hfills' : Fills (value (taken ++ ap)) l₂ l₂') :
        ∃ l₁', run Lexer.step l' (f.text escapeString ++ text escapeString fs) = some l₁' ∧
          Fills (value (taken ++ ap)) l₁ l₁' := by
      have hsplit : taken ++ ap = (taken ++ [arg]) ++ ap' := by rw [hap, List.append_assoc]; rfl
      rw [hsplit] at hfills' ⊢
      rw [run_append, hrun, Option.bind_some]
      exact ih hrest hfills' (by rw [List.length_append]; exact hread')
    cases d with
    | byte c =>
      rcases fields_byte hfields with ⟨rfl, hrest⟩
      rcases Option.bind_eq_some_iff.mp hread with ⟨l₂, hstep, hread'⟩
      rcases hfills.step hstep with ⟨l₂', hstep', hfills'⟩
      rcases ih hrest hfills' hread' with ⟨l₁', hrun, hlast⟩
      refine ⟨l₁', ?_, hlast⟩
      show run Lexer.step l' (c :: text escapeString fs) = _
      rw [run_cons, hstep', Option.bind_some, hrun]
    | string =>
      rcases fields_string hfields with ⟨ap', hrest, ⟨rfl, rfl⟩ | ⟨s, rfl, rfl⟩⟩
      · rcases Option.bind_eq_some_iff.mp hread with ⟨l₂, hplace, hread'⟩
        rcases hfills.place_word hplace (value_append taken ap' _) isWord_null with ⟨l₂', hrun, hfills'⟩
        exact hnext rfl hrest hread' hrun hfills'
      · rcases Option.bind_eq_some_iff.mp hread with ⟨l₂, hplace, hread'⟩
        rcases hfills.place_text hplace (value_append taken ap' _) (quotes_escapeString s) with
          ⟨l₂', hrun, hfills'⟩
        exact hnext rfl hrest hread' hrun hfills'
    | int =>
      rcases fields_int hfields with ⟨ap', hrest, ⟨rfl, rfl⟩ | ⟨n, rfl, rfl⟩⟩
      · rcases Option.bind_eq_some_iff.mp hread with ⟨l₂, hplace, hread'⟩
        rcases hfills.place_word hplace (value_append taken ap' _) isWord_null with ⟨l₂', hrun, hfills'⟩
        exact hnext rfl hrest hread' hrun hfills'
      · rcases Option.bind_eq_some_iff.mp hread with ⟨l₂, hplace, hread'⟩
        rcases hfills.place_word hplace (value_append taken ap' _) (isWord_decimal _) with
          ⟨l₂', hrun, hfills'⟩
        exact hnext rfl hrest hread' hrun hfills'

/-! ## Its end -/

theorem byte_mem_directives {c : Char} {chars : List Char} (h : .byte c ∈ directives chars) : c ∈ chars := by
  fun_induction directives chars with
  | case1 => cases h
  | case2 d => simpa using h
  | case3 d e rest _ ih | case4 d e rest _ _ ih =>
    rw [List.mem_cons] at h
    exact List.mem_cons_of_mem d (List.mem_cons_of_mem e (ih (h.resolve_left Directive.noConfusion)))
  | case5 d e rest _ _ ih =>
    rcases List.mem_cons.mp h with heq | hrest
    · rw [Directive.byte.inj heq]
      exact List.mem_cons_self
    · exact List.mem_cons_of_mem d (ih hrest)

theorem nul_notMem_escapeChar (c : Char) : '\x00' ∉ escapeChar c := by
  by_cases hnul : c = '\x00'
  · rw [hnul]
    decide
  · unfold escapeChar
    rw [if_neg hnul]
    repeat' split
    all_goals simp [Ne.symm hnul]

theorem nul_notMem_escapeString (s : CString) : '\x00' ∉ escapeString s := by
  intro hmem
  rcases List.mem_flatMap.mp hmem with ⟨c, -, hc⟩
  exact nul_notMem_escapeChar c hc

theorem nul_notMem_decimal (n : Int) : '\x00' ∉ decimal n := by
  intro hmem
  rcases List.mem_append.mp hmem with hsign | hdigit
  · split at hsign
    · revert hsign
      decide
    · cases hsign
  · have hdigit' := Nat.isDigit_of_mem_toDigits (by decide) (by decide) hdigit
    revert hdigit'
    decide

/-- Only the terminator ends a statement. -/
theorem nul_notMem_text (hfields : fields ds ap = some fs) (hbytes : .byte '\x00' ∉ ds) :
    '\x00' ∉ text escapeString fs := by
  induction ds generalizing ap fs with
  | nil =>
    cases ap with
    | nil =>
      cases hfields
      exact List.not_mem_nil
    | cons arg ap => cases hfields
  | cons d ds ih =>
    cases fs with
    | nil => exact absurd hfields (fields_cons_ne_nil d ds ap)
    | cons f fs =>
    rw [List.mem_cons, not_or] at hbytes
    rw [text_cons, List.mem_append, not_or]
    have hnull : '\x00' ∉ Field.null.text escapeString := by decide
    cases d with
    | byte c =>
      rcases fields_byte hfields with ⟨rfl, hrest⟩
      refine ⟨fun hmem ↦ hbytes.1 ?_, ih hrest hbytes.2⟩
      rw [List.mem_singleton.mp hmem]
    | string =>
      rcases fields_string hfields with ⟨ap', hrest, ⟨rfl, -⟩ | ⟨s, rfl, -⟩⟩
      · exact ⟨hnull, ih hrest hbytes.2⟩
      · refine ⟨?_, ih hrest hbytes.2⟩
        have hs := nul_notMem_escapeString s
        simp [Field.text, hs]
    | int =>
      rcases fields_int hfields with ⟨ap', hrest, ⟨rfl, -⟩ | ⟨n, rfl, -⟩⟩
      · exact ⟨hnull, ih hrest hbytes.2⟩
      · exact ⟨nul_notMem_decimal _, ih hrest hbytes.2⟩

/-! ## What the database reads -/

/-- **No argument changes a statement.**  Whatever the strings contain, a server that reads literals as documented
reads up to the terminator, and what it reads are the pieces of the format: each string is one literal with exactly
this text, each number and each `NULL` is one word, and what stands in the source stands in the statement. -/
theorem pieces_of_queryPrintf (server : Server) (state : Mode Empty → List (Piece Empty) → server.State)
    (hserver : server.Documented state) (hescape : ∀ s, escape s = escapeString s)
    (hquery : query.chars ∈ formats.map String.toList)
    (hfields : fields (directives query.chars) args = some fs) (hroom : room fs + 1 < 2 ^ 31) :
    ∃ ps p statement, formatPieces query.chars = some ps ∧ queryPrintf escape query args = .ok p ∧
      p.escapedQuery.Holds (statement ++ ['\x00']) ∧ '\x00' ∉ statement ∧
      server.pieces statement = some (ps.flatMap (Piece.fill (value args))) := by
  obtain rfl : escape = escapeString := funext hescape
  have hformat : (formatPieces query.chars).isSome = true := by
    rcases List.mem_map.mp hquery with ⟨format, hmem, heq⟩
    rw [← heq]
    exact formats_read format hmem
  rcases Option.isSome_iff_exists.mp hformat with ⟨ps, hps⟩
  rcases Option.bind_eq_some_iff.mp hps with ⟨l, hread, hfinish⟩
  rcases agrees_of_room (fun s ↦ (escapeString_length s).2) hfields hroom with ⟨p, hp, -, -, -, hholds⟩
  have hstart : Fills (value ([] ++ args)) (Lexer.start (κ := Nat)) (Lexer.start (κ := Empty)) := fills_start
  rcases reads_text hfields hstart hread with ⟨l', hrun, hfills⟩
  refine ⟨ps, p, text escapeString fs, hps, hp, hholds, ?_, ?_⟩
  · exact nul_notMem_text hfields fun hmem ↦ query.terminated (byte_mem_directives hmem)
  · apply hserver.pieces_eq
    unfold pieces
    rw [hrun, Option.bind_some]
    exact hfills.finish hfinish

def queueQuery : CString :=
  ⟨"SELECT queue_id,queue_concurrency FROM t_queue WHERE queue_name=%s".toList, by decide⟩

/-- A name that would end its literal and begin another statement. -/
def dropTable : CString := ⟨"'; DROP TABLE t_queue; -- \\".toList, by decide⟩

theorem pieces_dropTable :
    ∃ ps p statement, formatPieces queueQuery.chars = some ps ∧
      queryPrintf escapeString queueQuery [.string dropTable] = .ok p ∧
      p.escapedQuery.Holds (statement ++ ['\x00']) ∧ '\x00' ∉ statement ∧
      Lexer.server.pieces statement = some (ps.flatMap (Piece.fill (value [.string dropTable]))) := by
  have hquery : queueQuery.chars ∈ formats.map String.toList :=
    List.mem_map_of_mem (List.mem_of_getElem? (show formats[4]? = some _ from rfl))
  have hfields : fields (directives queueQuery.chars) [.string dropTable] =
      some ("SELECT queue_id,queue_concurrency FROM t_queue WHERE queue_name=".toList.map .byte ++
        [.string dropTable]) := by
    unfold queueQuery
    dsimp only
    rw [String.toList_ofList, String.toList_ofList]
    decide +kernel
  exact pieces_of_queryPrintf Lexer.server Lexer.mk Lexer.server_documented (fun _ ↦ rfl) hquery hfields
    (by decide +kernel)

end EvQueue.DB
