import EvQueue.Base.Dialogue
import EvQueue.WorkflowHistory
import EvQueue.WorkflowParameters

/-!
# WorkflowInstanceLaunch — what a launch that fails leaves behind

The constructor of a new instance checks its arguments, inserts a row for the instance, one for each
parameter, and records a savepoint; only then it registers the instance and counts it.  No transaction
holds the statements together, and the handler at the end releases the parser and the serializer only.
-/

namespace EvQueue

open Dialogue

variable {Node : Type}

/-- `Workflow`, with its XML read. -/
structure Workflow (Node : Type) where
  template : Template
  /-- The attribute `status` of the document element; empty when there is none. -/
  status : String
  /-- The document of the instance, once the parameters are set and the schedules imported. -/
  document : Template → Document Node

/-- The document element of a `RetrySchedule`: its attribute `name`, where it is a `schedule`. -/
structure RetrySchedule where
  schedule : Option (Option String)

/-- What the constructor reads of the configuration and of the other objects. -/
structure LaunchEnvironment (Node : Type) where
  xq : XQilla
  /-- `Workflows`. -/
  workflows : List UInt8 → Option (Workflow Node)
  /-- `RetrySchedules`. -/
  retrySchedules : String → Option RetrySchedule
  /-- `workflowinstance.savepoint.level`. -/
  configuredLevel : Int
  saveparameters : Bool
  savepointRetry : Bool
  savepointRetryTimes : Nat
  /-- `Logger::log_db`. -/
  logDb : Bool

/-- What it changes. -/
structure LaunchState (Node : Type) where
  table : HistoryTable Node
  /-- `t_workflow_instance_parameters`. -/
  parameterRows : List (Nat × List UInt8 × List UInt8)
  /-- `SequenceGenerator::seq`. -/
  seq : Nat
  /-- The ids in `WorkflowInstances`. -/
  instances : List Nat
  workflowInstanceLaunched : Nat
  workflowInstanceExecuting : Nat

/-- A request that MySQL refuses is answered with the text of `mysql_error`, and changes nothing. -/
abbrev Launch (Node α : Type) := Program String Exception (LaunchState Node) α

namespace Launch

def mysqlError (error : String) : Exception := ⟨"DB", error⟩

/-- `DB db`. -/
def connect : Launch Node Unit := request mysqlError fun s ↦ ((), s)

/-- `db.QueryPrintf(...)`, which makes the change `f`. -/
def statement {α : Type} (f : LaunchState Node → α × LaunchState Node) : Launch Node α :=
  request mysqlError f

/-- A connection of its own, and one statement. -/
def query (f : LaunchState Node → LaunchState Node) : Launch Node Unit :=
  bind connect fun _ ↦ statement fun s ↦ ((), f s)

end Launch

open Launch

def workflowNameMaxlen : Nat := 64

/-- `sprintf(buf,"schedules/schedule[@name = '%s']",schedule_name_c)`. -/
def scheduleQuery (name : String) : String := "schedules/schedule[@name = '" ++ name ++ "']"

namespace LaunchEnvironment

variable (env : LaunchEnvironment Node)

/-- `init`. -/
def savepointLevel : Nat :=
  if env.configuredLevel < 0 ∨ env.configuredLevel > 3 then 0 else env.configuredLevel.toNat

/-! ## The checks -/

/-- `while(tasks->snapshotItem(tasks_index++))`. -/
def importSchedules : List String → Template → Except Exception Template
  | [], t => .ok t
  | name :: rest, t =>
      match env.xq.evaluateSchedule t (scheduleQuery name) with
      | some _ => importSchedules rest t
      | none =>
          -- Schedule is not local, check global
          match env.retrySchedules name with
          | none => .error ⟨"RetrySchedules", "Unable to find schedule"⟩
          | some retrySchedule =>
              importSchedules rest { t with schedules := t.schedules ++ retrySchedule.schedule.toList }

/-- Up to the first statement: the workflow, and its document with the parameters and the schedules. -/
def check (name : List UInt8) (p : WorkflowParameters) : Except Exception (Workflow Node × Template) :=
  if name.length > workflowNameMaxlen then .error ⟨"WorkflowInstance", "Workflow name is too long"⟩
  else
    match env.workflows name with
    | none => .error ⟨"Workflows", "Unable to find workflow"⟩
    | some workflow => do
        let t ← workflow.template.setInputParameters env.xq p
        let t ← env.importSchedules t.retrySchedules t
        return (workflow, t)

/-! ## The statements -/

/-- `INSERT INTO t_workflow_instance` with the status `EXECUTING`, and `InsertID`. -/
def insertInstance : Launch Node Nat :=
  statement fun s ↦ (s.table.insertNew.2, { s with table := s.table.insertNew.1 })

/-- `INSERT INTO t_workflow_instance_parameters`, once for each parameter. -/
def insertParameters (id : Nat) (p : WorkflowParameters) : Launch Node Unit :=
  requests mysqlError (p.parameters.map fun q s ↦ { s with parameterRows := s.parameterRows ++ [(id, q)] })

/-- `if(saveparameters)`. -/
def saveParameters (id : Nat) (p : WorkflowParameters) : Launch Node Unit :=
  if env.saveparameters then insertParameters id p else done ()

/-- `SequenceGenerator::GetInc`. -/
def getInc : Launch Node Nat := act fun s ↦ (s.seq, { s with seq := s.seq + 1 })

/-- `Logger::Log`; nothing reads `t_log`. -/
def log : Launch Node Unit := if env.logDb then query fun s ↦ s else done ()

/-- `savepoint_retry && (savepoint_retry_times==0 || tries<=savepoint_retry_times)`. -/
def again (tries : Nat) : Bool :=
  env.savepointRetry && (env.savepointRetryTimes == 0 || tries ≤ env.savepointRetryTimes)

/-- `Retrying in %d seconds`. -/
def announce (tried : Nat) : Launch Node Unit := if tried > 0 then env.log else done ()

/-- `try` and `catch`: whether the loop is left with `break`. -/
def trySave (save : LaunchState Node → LaunchState Node) : Launch Node Bool :=
  attempt (bind (query save) fun _ ↦ done true) fun _ ↦ bind env.log fun _ ↦ done false

/-- The loop of `record_savepoint`.  Every round takes an answer, so that there are never more rounds than
answers. -/
def tries (save : LaunchState Node → LaunchState Node) : Nat → Nat → Launch Node Unit
  | 0, _ => wait
  | rounds + 1, tried =>
      bind (env.announce tried) fun _ ↦
        bind (env.trySave save) fun saved ↦
          -- `break`
          if saved then done ()
          else if env.again (tried + 1) then tries save rounds (tried + 1)
          else done ()

/-- `record_savepoint()`, not forced. -/
def recordSavepoint (workflow : Workflow Node) (t : Template) (id : Nat) : Launch Node Unit :=
  let terminated := workflow.status = "TERMINATED"
  -- terminated workflows are not stored on level 0, and only they are on levels 1 and 2
  if terminated ∧ env.savepointLevel = 0 then done ()
  else if ¬terminated ∧ env.savepointLevel ≤ 2 then done ()
  else fun answers s ↦
    env.tries (fun s ↦ { s with
      table := s.table.recordSavepoint env.savepointLevel false id (.create (workflow.document t)) terminated })
      answers.length 0 answers s

/-- `WorkflowInstances::Add`, and the statistic. -/
def register (id : Nat) : Launch Node Nat := act fun s ↦
  (id, { s with
    instances := if id ∈ s.instances then s.instances else id :: s.instances
    workflowInstanceLaunched := s.workflowInstanceLaunched + 1
    workflowInstanceExecuting := s.workflowInstanceExecuting + 1 })

/-- `this->workflow_instance_id`: that of the row, or one of the sequence. -/
def workflowInstanceId (p : WorkflowParameters) : Launch Node Nat :=
  if env.savepointLevel ≥ 2 then
    bind insertInstance fun id ↦ bind (env.saveParameters id p) fun _ ↦ done id
  else getInc

/-- Behind the checks, up to the handler. -/
def save (p : WorkflowParameters) (workflow : Workflow Node) (t : Template) : Launch Node Nat :=
  bind (env.workflowInstanceId p) fun id ↦ bind (env.recordSavepoint workflow t id) fun _ ↦ done id

/-- The constructor of a new instance. -/
def launch (name : List UInt8) (p : WorkflowParameters) : Launch Node Nat :=
  bind connect fun _ ↦
    bind (ofExcept (env.check name p)) fun checked ↦
      -- what `save` raises the handler throws again; it knows nothing of the row
      bind (env.save p checked.1 checked.2) register

end LaunchEnvironment

/-! ## The answers to a launch -/

/-- The connection or the statement of a `query` is refused. -/
def Refused (answers rest : List (Option String)) : Prop :=
  ∃ error, answers = some error :: rest ∨ answers = none :: some error :: rest

variable {answers rest : List (Option String)} {s s' : LaunchState Node} {e : Exception}
variable {save : LaunchState Node → LaunchState Node}

theorem query_raised_iff :
    (∃ e, query save answers s = .raised e rest s') ↔ Refused answers rest ∧ s' = s := by
  unfold query connect statement
  simp only [bind_raised_iff, request_raised_iff, request_done_iff]
  constructor
  · rintro ⟨e, ⟨⟨error, rfl, -⟩, rfl⟩ | ⟨a, between, t, ⟨rfl, ht⟩, ⟨error, rfl, -⟩, rfl⟩⟩
    · exact ⟨⟨error, .inl rfl⟩, rfl⟩
    · cases ht
      exact ⟨⟨error, .inr rfl⟩, rfl⟩
  · rintro ⟨⟨error, rfl | rfl⟩, rfl⟩
    · exact ⟨_, .inl ⟨⟨error, rfl, rfl⟩, rfl⟩⟩
    · exact ⟨_, .inr ⟨(), _, _, ⟨rfl, rfl⟩, ⟨error, rfl, rfl⟩, rfl⟩⟩

theorem query_done_iff :
    query save answers s = .done () rest s' ↔ answers = none :: none :: rest ∧ s' = save s := by
  unfold query connect statement
  simp only [bind_done_iff, request_done_iff]
  constructor
  · rintro ⟨a, between, t, ⟨rfl, ht⟩, rfl, hs⟩
    cases ht
    cases hs
    exact ⟨rfl, rfl⟩
  · rintro ⟨rfl, rfl⟩
    exact ⟨(), _, _, ⟨rfl, rfl⟩, rfl, rfl⟩

theorem Refused.length_lt (h : Refused answers rest) : rest.length < answers.length := by
  obtain ⟨error, rfl | rfl⟩ := h <;> simp only [List.length_cons] <;> omega

namespace LaunchEnvironment

variable (env : LaunchEnvironment Node)

/-- `Logger::Log` raises. -/
def LogRefused (answers rest : List (Option String)) : Prop := env.logDb = true ∧ Refused answers rest

/-- `Logger::Log` returns. -/
def Logged (answers rest : List (Option String)) : Prop :=
  answers = (if env.logDb then [none, none] else []) ++ rest

/-- Behind the message that a further try begins with. -/
def Announced (tried : Nat) (answers rest : List (Option String)) : Prop :=
  if tried > 0 then env.Logged answers rest else rest = answers

/-- The loop raises, in the round after `tried` tries: a try has failed, and so does the message about it or
the one about the next try. -/
inductive LogRaises : Nat → List (Option String) → Prop
  | announcing {tried : Nat} {answers rest : List (Option String)} (htried : tried > 0)
      (hlog : env.LogRefused answers rest) : LogRaises tried answers
  | warning {tried : Nat} {answers between next rest : List (Option String)}
      (hannounced : env.Announced tried answers between) (htry : Refused between next)
      (hlog : env.LogRefused next rest) : LogRaises tried answers
  | again {tried : Nat} {answers between next rest : List (Option String)}
      (hannounced : env.Announced tried answers between) (htry : Refused between next)
      (hlog : env.Logged next rest) (hagain : env.again (tried + 1) = true)
      (hrest : LogRaises (tried + 1) rest) : LogRaises tried answers

variable {env} {tried rounds : Nat}

theorem log_raised_iff :
    (∃ e, env.log answers s = .raised e rest s') ↔ env.LogRefused answers rest ∧ s' = s := by
  unfold log LogRefused
  cases env.logDb with
  | true => simpa using query_raised_iff
  | false => simp [done]

theorem log_done_iff :
    env.log answers s = .done () rest s' ↔ env.Logged answers rest ∧ s' = s := by
  unfold log Logged
  cases env.logDb with
  | true => simpa using query_done_iff
  | false =>
    simp only [Bool.false_eq_true, if_false, done, Outcome.done.injEq, true_and, List.nil_append]
    exact and_congr Iff.rfl eq_comm

theorem announce_raised_iff :
    (∃ e, env.announce tried answers s = .raised e rest s') ↔
      tried > 0 ∧ env.LogRefused answers rest ∧ s' = s := by
  unfold announce
  by_cases htried : tried > 0
  · rw [if_pos htried]
    simpa [htried] using log_raised_iff
  · rw [if_neg htried]
    simp [done, htried]

theorem announce_done_iff :
    env.announce tried answers s = .done () rest s' ↔
      env.Announced tried answers rest ∧ s' = s := by
  unfold announce Announced
  by_cases htried : tried > 0
  · rw [if_pos htried, if_pos htried]
    exact log_done_iff
  · rw [if_neg htried, if_neg htried]
    simp [done, eq_comm]

theorem trySave_raised_iff :
    (∃ e, env.trySave save answers s = .raised e rest s') ↔
      ∃ between, Refused answers between ∧ env.LogRefused between rest ∧ s' = s := by
  unfold trySave
  simp only [attempt_raised_iff, bind_raised_iff, done, reduceCtorEq, and_false, exists_false, or_false]
  constructor
  · rintro ⟨e, e', between, t, htry, hlog⟩
    obtain ⟨hrefused, rfl⟩ := query_raised_iff.mp ⟨e', htry⟩
    exact ⟨between, hrefused, log_raised_iff.mp ⟨e, hlog⟩⟩
  · rintro ⟨between, hrefused, hlog⟩
    obtain ⟨e', htry⟩ := query_raised_iff.mpr ⟨hrefused, rfl⟩
    obtain ⟨e, hraised⟩ := log_raised_iff.mpr hlog
    exact ⟨e, e', between, s, htry, hraised⟩

theorem trySave_failed_iff :
    env.trySave save answers s = .done false rest s' ↔
      ∃ between, Refused answers between ∧ env.Logged between rest ∧ s' = s := by
  unfold trySave
  simp only [attempt_done_iff, bind_done_iff, bind_raised_iff, done, Outcome.done.injEq, reduceCtorEq,
    Bool.true_eq_false, false_and, and_false, exists_false, false_or, or_false, true_and]
  constructor
  · rintro ⟨e, between, t, htry, a, between', t', hlog, rfl, rfl⟩
    obtain ⟨hrefused, rfl⟩ := query_raised_iff.mp ⟨e, htry⟩
    exact ⟨between, hrefused, log_done_iff.mp hlog⟩
  · rintro ⟨between, hrefused, hlog⟩
    obtain ⟨e, htry⟩ := query_raised_iff.mpr ⟨hrefused, rfl⟩
    exact ⟨e, between, s, htry, (), rest, s', log_done_iff.mpr hlog, rfl, rfl⟩

theorem Logged.length_le (h : env.Logged answers rest) : rest.length ≤ answers.length := by
  rw [h, List.length_append]
  omega

theorem Announced.length_le (h : env.Announced tried answers rest) : rest.length ≤ answers.length := by
  unfold Announced at h
  split at h
  · exact Logged.length_le h
  · exact Nat.le_of_eq (congrArg List.length h)

theorem LogRaises.length_pos (h : env.LogRaises tried answers) : 0 < answers.length := by
  cases h with
  | announcing htried hlog =>
    have hlt := hlog.2.length_lt
    omega
  | warning hannounced htry hlog =>
    have hlt := htry.length_lt
    have hle := hannounced.length_le
    omega
  | again hannounced htry hlog hagain hrest =>
    have hlt := htry.length_lt
    have hle := hannounced.length_le
    omega

/-- One round raises in a message, or leaves the raising to the rounds behind it. -/
theorem tries_succ_raised_iff :
    (∃ e rest, env.tries save (rounds + 1) tried answers s = .raised e rest s') ↔
      (tried > 0 ∧ ∃ rest, env.LogRefused answers rest ∧ s' = s) ∨
        ∃ between next, env.Announced tried answers between ∧ Refused between next ∧
          ((∃ rest, env.LogRefused next rest ∧ s' = s) ∨
            ∃ later, env.Logged next later ∧ env.again (tried + 1) = true ∧
              ∃ e rest, env.tries save rounds (tried + 1) later s = .raised e rest s') := by
  conv_lhs => unfold tries
  simp only [bind_raised_iff]
  constructor
  · rintro ⟨e, rest, hannounce | ⟨a, between, t, hannounce, hsave | ⟨saved, later, t', hsave, hrest⟩⟩⟩
    · obtain ⟨htried, hlog, hs⟩ := announce_raised_iff.mp ⟨e, hannounce⟩
      exact .inl ⟨htried, rest, hlog, hs⟩
    · obtain ⟨hannounced, rfl⟩ := announce_done_iff.mp hannounce
      obtain ⟨next, htry, hlog, hs⟩ := trySave_raised_iff.mp ⟨e, hsave⟩
      exact .inr ⟨between, next, hannounced, htry, .inl ⟨rest, hlog, hs⟩⟩
    · obtain ⟨hannounced, rfl⟩ := announce_done_iff.mp hannounce
      cases saved with
      | true => cases hrest
      | false =>
        rw [if_neg Bool.false_ne_true] at hrest
        obtain ⟨next, htry, hlog, rfl⟩ := trySave_failed_iff.mp hsave
        by_cases hagain : env.again (tried + 1) = true
        · rw [if_pos hagain] at hrest
          exact .inr ⟨between, next, hannounced, htry, .inr ⟨later, hlog, hagain, e, rest, hrest⟩⟩
        · rw [if_neg hagain] at hrest
          cases hrest
  · rintro (⟨htried, rest, hlog, rfl⟩ | ⟨between, next, hannounced, htry, hbehind⟩)
    · obtain ⟨e, hannounce⟩ := announce_raised_iff.mpr ⟨htried, hlog, rfl⟩
      exact ⟨e, rest, .inl hannounce⟩
    · have hannounce : env.announce tried answers s = .done () between s :=
        announce_done_iff.mpr ⟨hannounced, rfl⟩
      rcases hbehind with ⟨rest, hlog, rfl⟩ | ⟨later, hlog, hagain, e, rest, hraised⟩
      · obtain ⟨e, hsave⟩ := trySave_raised_iff.mpr ⟨next, htry, hlog, rfl⟩
        exact ⟨e, rest, .inr ⟨(), between, s', hannounce, .inl hsave⟩⟩
      · have hsave : env.trySave save between s = .done false later s :=
          trySave_failed_iff.mpr ⟨next, htry, hlog, rfl⟩
        refine ⟨e, rest, .inr ⟨(), between, s, hannounce, .inr ⟨false, later, s, hsave, ?_⟩⟩⟩
        rw [if_neg Bool.false_ne_true, if_pos hagain]
        exact hraised

/-- The loop raises just in the cases listed, and has then saved nothing. -/
theorem tries_raised_iff (hrounds : answers.length ≤ rounds) :
    (∃ e rest, env.tries save rounds tried answers s = .raised e rest s') ↔
      env.LogRaises tried answers ∧ s' = s := by
  induction rounds generalizing tried answers with
  | zero =>
    constructor
    · rintro ⟨e, rest, hraised⟩
      cases hraised
    · rintro ⟨hraises, -⟩
      have hpos := hraises.length_pos
      omega
  | succ rounds ih =>
    -- a round takes the answer that its failed try was given
    have hshorter : ∀ {between next later : List (Option String)}, env.Announced tried answers between →
        Refused between next → env.Logged next later → later.length ≤ rounds := by
      intro between next later hannounced htry hlog
      have hlt := htry.length_lt
      have hle := hannounced.length_le
      have hle' := hlog.length_le
      omega
    rw [tries_succ_raised_iff]
    constructor
    · rintro (⟨htried, rest, hlog, hs⟩ | ⟨between, next, hannounced, htry, ⟨rest, hlog, hs⟩ | hbehind⟩)
      · exact ⟨.announcing htried hlog, hs⟩
      · exact ⟨.warning hannounced htry hlog, hs⟩
      · obtain ⟨later, hlog, hagain, hraised⟩ := hbehind
        obtain ⟨hraises, hs⟩ := (ih (hshorter hannounced htry hlog)).mp hraised
        exact ⟨.again hannounced htry hlog hagain hraises, hs⟩
    · rintro ⟨hraises, hs⟩
      cases hraises with
      | announcing htried hlog => exact .inl ⟨htried, _, hlog, hs⟩
      | warning hannounced htry hlog => exact .inr ⟨_, _, hannounced, htry, .inl ⟨_, hlog, hs⟩⟩
      | again hannounced htry hlog hagain hrest =>
        have hraised := (ih (hshorter hannounced htry hlog)).mpr ⟨hrest, hs⟩
        exact .inr ⟨_, _, hannounced, htry, .inr ⟨_, hlog, hagain, hraised⟩⟩

/-! ## What is left behind -/

variable {name : List UInt8} {p : WorkflowParameters} {workflow : Workflow Node} {t : Template} {id : Nat}

/-- `record_savepoint` gets as far as its loop. -/
def Records (env : LaunchEnvironment Node) (workflow : Workflow Node) : Prop :=
  if workflow.status = "TERMINATED" then env.savepointLevel ≠ 0 else env.savepointLevel > 2

theorem recordSavepoint_raised_iff :
    (∃ e rest, env.recordSavepoint workflow t id answers s = .raised e rest s') ↔
      env.Records workflow ∧ env.LogRaises 0 answers ∧ s' = s := by
  unfold recordSavepoint Records
  by_cases hterminated : workflow.status = "TERMINATED"
  · by_cases hlevel : env.savepointLevel = 0
    · rw [if_pos ⟨hterminated, hlevel⟩, if_pos hterminated]
      simp [done, hlevel]
    · rw [if_neg (fun h ↦ hlevel h.2), if_neg (fun h ↦ h.1 hterminated), if_pos hterminated,
        tries_raised_iff (Nat.le_refl _)]
      exact ⟨fun h ↦ ⟨hlevel, h⟩, fun h ↦ h.2⟩
  · by_cases hlevel : env.savepointLevel ≤ 2
    · rw [if_neg (fun h ↦ hterminated h.1), if_pos ⟨hterminated, hlevel⟩, if_neg hterminated]
      constructor
      · rintro ⟨e, rest, hdone⟩
        cases hdone
      · rintro ⟨hgreater, -⟩
        omega
    · rw [if_neg (fun h ↦ hterminated h.1), if_neg (fun h ↦ hlevel h.2), if_neg hterminated,
        tries_raised_iff (Nat.le_refl _)]
      exact ⟨fun h ↦ ⟨by omega, h⟩, fun h ↦ h.2⟩

/-- How many parameters are inserted. -/
def parameterCount (env : LaunchEnvironment Node) (p : WorkflowParameters) : Nat :=
  if env.saveparameters then p.parameters.length else 0

theorem saveParameters_done_iff : (∃ s', env.saveParameters id p answers s = .done () rest s') ↔
    answers = List.replicate (env.parameterCount p) none ++ rest := by
  unfold saveParameters parameterCount insertParameters
  cases env.saveparameters with
  | true => simp [requests_done_iff]
  | false => simp [done]

theorem saveParameters_raised_iff : (∃ e rest s', env.saveParameters id p answers s = .raised e rest s') ↔
    ∃ n < env.parameterCount p, ∃ error rest, answers = List.replicate n none ++ some error :: rest := by
  unfold saveParameters parameterCount insertParameters
  cases env.saveparameters with
  | true =>
    simp only [if_true, requests_raised_iff, List.length_map]
    constructor
    · rintro ⟨e, rest, s', n, hn, error, hanswers, -, -⟩
      exact ⟨n, hn, error, rest, hanswers⟩
    · rintro ⟨n, hn, error, rest, hanswers⟩
      exact ⟨_, rest, _, n, hn, error, hanswers, rfl, rfl⟩
  | false => simp [done]

/-- What the rows of the parameters are not part of. -/
def withoutParameters (s : LaunchState Node) : LaunchState Node := { s with parameterRows := [] }

/-- The parameters are in a table of their own. -/
theorem saveParameters_frame
    (h : env.saveParameters id p answers s = .done () rest s' ∨
      ∃ e, env.saveParameters id p answers s = .raised e rest s') :
    withoutParameters s' = withoutParameters s := by
  unfold saveParameters insertParameters at h
  have hkeeps : ∀ f ∈ (p.parameters.map fun q (s : LaunchState Node) ↦
      { s with parameterRows := s.parameterRows ++ [(id, q)] }), ∀ s,
      withoutParameters (f s) = withoutParameters s := by
    intro f hf s
    obtain ⟨q, -, rfl⟩ := List.mem_map.mp hf
    rfl
  split at h
  · rcases h with hdone | ⟨e, hraised⟩
    · obtain ⟨-, rfl⟩ := requests_done_iff.mp hdone
      have hframe := foldl_take_keeps hkeeps p.parameters.length s
      rwa [List.take_of_length_le (Nat.le_of_eq (List.length_map _))] at hframe
    · obtain ⟨n, -, error, -, -, rfl⟩ := requests_raised_iff.mp hraised
      exact foldl_take_keeps hkeeps n s
  · rcases h with hdone | ⟨e, hraised⟩
    · cases hdone
      rfl
    · cases hraised

theorem table_saveParameters
    (h : env.saveParameters id p answers s = .done () rest s' ∨
      ∃ e, env.saveParameters id p answers s = .raised e rest s') : s'.table = s.table := by
  have htable := congrArg LaunchState.table (saveParameters_frame h)
  exact htable

/-- The rows of executing instances, the registered instances and the number of executing ones. -/
def SameTraces (s s' : LaunchState Node) : Prop :=
  s'.table.executingIds = s.table.executingIds ∧ s'.instances = s.instances ∧
    s'.workflowInstanceExecuting = s.workflowInstanceExecuting

theorem SameTraces.refl (s : LaunchState Node) : SameTraces s s := ⟨rfl, rfl, rfl⟩

/-- The row that was inserted is executing. -/
theorem executingIds_insertNew (table : HistoryTable Node) :
    table.insertNew.1.executingIds = table.executingIds ++ [table.autoIncrement] := by
  unfold HistoryTable.insertNew HistoryTable.executingIds
  rw [List.filter_append, List.map_append]
  rfl

/-- Behind the row of the instance, a parameter is refused, or all are carried out and the savepoint raises. -/
def FailsBehindInsert (env : LaunchEnvironment Node) (p : WorkflowParameters) (workflow : Workflow Node)
    (answers : List (Option String)) : Prop :=
  (∃ n < env.parameterCount p, ∃ error rest, answers = List.replicate n none ++ some error :: rest) ∨
    (env.Records workflow ∧
      ∃ rest, answers = List.replicate (env.parameterCount p) none ++ rest ∧ env.LogRaises 0 rest)

/-- From level 2 on the row stays where the call fails behind it. -/
theorem save_raised_two (hlevel : env.savepointLevel ≥ 2)
    (hraised : env.save p workflow t answers s = .raised e rest s') :
    s' = s ∨ (s'.table = s.table.insertNew.1 ∧
      ∃ between, answers = none :: between ∧ env.FailsBehindInsert p workflow between) := by
  unfold save workflowInstanceId insertInstance statement at hraised
  rw [if_pos hlevel] at hraised
  -- the row, the parameters or the savepoint
  rcases bind_raised_iff.mp hraised with hinsert | ⟨id, between, s₁, hinsert, hrecord⟩
  · rcases bind_raised_iff.mp hinsert with hrefused | ⟨id, between, s₁, hrow, hparameters⟩
    · exact .inl (request_raised_iff.mp hrefused).2
    · obtain ⟨rfl, hs⟩ := request_done_iff.mp hrow
      cases hs
      rcases bind_raised_iff.mp hparameters with hparameters | ⟨a, next, s₂, -, hdone⟩
      · have hfails := saveParameters_raised_iff.mp ⟨e, rest, s', hparameters⟩
        exact .inr ⟨table_saveParameters (.inr ⟨e, hparameters⟩), between, rfl, .inl hfails⟩
      · cases hdone
  · obtain ⟨id, between, s₁, hrow, hparameters⟩ := bind_done_iff.mp hinsert
    obtain ⟨rfl, hs⟩ := request_done_iff.mp hrow
    cases hs
    obtain ⟨a, next, s₂, hparameters, hdone⟩ := bind_done_iff.mp hparameters
    cases hdone
    rcases bind_raised_iff.mp hrecord with hrecord | ⟨a, next, s₂, -, hdone⟩
    · obtain ⟨hrecords, hlog, rfl⟩ := recordSavepoint_raised_iff.mp ⟨e, rest, hrecord⟩
      have hanswers := saveParameters_done_iff.mp ⟨_, hparameters⟩
      exact .inr ⟨table_saveParameters (.inl hparameters), between, rfl, .inr ⟨hrecords, _, hanswers, hlog⟩⟩
    · cases hdone

/-- Each of these courses does raise, with the row inserted. -/
theorem save_raises (hlevel : env.savepointLevel ≥ 2) (hfails : env.FailsBehindInsert p workflow answers) :
    ∃ e rest s', env.save p workflow t (none :: answers) s = .raised e rest s' ∧
      s'.table = s.table.insertNew.1 := by
  have hrow : (insertInstance : Launch Node Nat) (none :: answers) s =
      .done s.table.insertNew.2 answers { s with table := s.table.insertNew.1 } := rfl
  rcases hfails with hparameters | ⟨hrecords, rest, hanswers, hlog⟩
  · obtain ⟨e, rest, s', hraised⟩ := saveParameters_raised_iff.mpr hparameters
    have hid : env.workflowInstanceId p (none :: answers) s = .raised e rest s' := by
      unfold workflowInstanceId
      rw [if_pos hlevel, bind_of_done hrow]
      exact bind_raised_iff.mpr (.inl hraised)
    exact ⟨e, rest, s', bind_raised_iff.mpr (.inl hid), table_saveParameters (.inr ⟨e, hraised⟩)⟩
  · obtain ⟨s₂, hparameters⟩ := saveParameters_done_iff.mpr hanswers
    obtain ⟨e, rest', hraised⟩ := recordSavepoint_raised_iff.mpr ⟨hrecords, hlog, rfl⟩
    have hid : env.workflowInstanceId p (none :: answers) s = .done s.table.insertNew.2 rest s₂ := by
      unfold workflowInstanceId
      rw [if_pos hlevel, bind_of_done hrow, bind_of_done hparameters]
      rfl
    refine ⟨e, rest', s₂, ?_, table_saveParameters (.inl hparameters)⟩
    unfold save
    rw [bind_of_done hid]
    exact bind_raised_iff.mpr (.inl hraised)

/-- Below level 2 nothing but the sequence has been used. -/
theorem save_raised_one (hlevel : ¬env.savepointLevel ≥ 2)
    (hraised : env.save p workflow t answers s = .raised e rest s') : SameTraces s s' := by
  unfold save workflowInstanceId getInc at hraised
  rw [if_neg hlevel] at hraised
  rcases bind_raised_iff.mp hraised with hinc | ⟨id, between, s₁, hinc, hrecord⟩
  · cases hinc
  · cases hinc
    rcases bind_raised_iff.mp hrecord with hrecord | ⟨a, next, s₂, -, hdone⟩
    · obtain ⟨-, -, rfl⟩ := recordSavepoint_raised_iff.mp ⟨e, rest, hrecord⟩
      exact ⟨rfl, rfl, rfl⟩
    · cases hdone

/-- The course of events in which the call raises behind the row of its instance. -/
def Abandons (env : LaunchEnvironment Node) (name : List UInt8) (p : WorkflowParameters)
    (answers : List (Option String)) : Prop :=
  env.savepointLevel ≥ 2 ∧ ∃ workflow t rest, env.check name p = .ok (workflow, t) ∧
    answers = none :: none :: rest ∧ env.FailsBehindInsert p workflow rest

/-- A launch that raises has left no row of an executing instance, registered nothing and counted nothing. -/
def LeavesNothing (env : LaunchEnvironment Node) (name : List UInt8) (p : WorkflowParameters)
    (answers : List (Option String)) (s : LaunchState Node) : Prop :=
  ∀ e rest s', env.launch name p answers s = .raised e rest s' → SameTraces s s'

/-- A launch leaves nothing behind unless it raises behind the row of its instance. -/
theorem leavesNothing_iff (env : LaunchEnvironment Node) (name : List UInt8) (p : WorkflowParameters)
    (answers : List (Option String)) (s : LaunchState Node) :
    env.LeavesNothing name p answers s ↔ ¬env.Abandons name p answers := by
  constructor
  · rintro hnothing ⟨hlevel, workflow, t, rest, hcheck, rfl, hfails⟩
    obtain ⟨e, rest', s', hraised, htable⟩ := save_raises (t := t) (s := s) hlevel hfails
    have hconnect : (connect : Launch Node Unit) (none :: none :: rest) s = .done () (none :: rest) s := rfl
    have hlaunch : env.launch name p (none :: none :: rest) s = .raised e rest' s' := by
      unfold launch
      rw [bind_of_done hconnect, bind_of_done (ofExcept_done_iff.mpr ⟨hcheck, rfl, rfl⟩)]
      exact bind_raised_iff.mpr (.inl hraised)
    -- there is one executing row more
    have hids := (hnothing e rest' s' hlaunch).1
    rw [htable, executingIds_insertNew] at hids
    exact absurd (congrArg List.length hids) (by simp)
  · intro hnot e rest s' hlaunch
    unfold launch at hlaunch
    rcases bind_raised_iff.mp hlaunch with hconnect | ⟨a, between, s₁, hconnect, hchecked⟩
    · obtain ⟨-, rfl⟩ := request_raised_iff.mp hconnect
      exact SameTraces.refl _
    · obtain ⟨rfl, hs⟩ := request_done_iff.mp hconnect
      cases hs
      rcases bind_raised_iff.mp hchecked with hcheck | ⟨⟨workflow, t⟩, between', s₂, hcheck, hsaved⟩
      · obtain ⟨-, -, rfl⟩ := ofExcept_raised_iff.mp hcheck
        exact SameTraces.refl _
      · obtain ⟨hok, rfl, rfl⟩ := ofExcept_done_iff.mp hcheck
        rcases bind_raised_iff.mp hsaved with hsave | ⟨id, between, s₃, -, hregister⟩
        · by_cases hlevel : env.savepointLevel ≥ 2
          · rcases save_raised_two hlevel hsave with rfl | ⟨-, next, rfl, hfails⟩
            · exact SameTraces.refl _
            · exact absurd ⟨hlevel, workflow, t, next, hok, rfl, hfails⟩ hnot
          · exact save_raised_one hlevel hsave
        · cases hregister

end LaunchEnvironment

/-! ## A parameter that is refused -/

/-- One workflow with one parameter, and rows from the launch on. -/
def environment_host : LaunchEnvironment Unit where
  xq := .plain
  workflows name :=
    if name = ascii "backup" then some ⟨⟨[⟨some "host", ""⟩], [], []⟩, "", fun _ ↦ ⟨[], [], fun _ ↦ none, 0⟩⟩
    else none
  retrySchedules _ := none
  configuredLevel := 2
  saveparameters := true
  savepointRetry := false
  savepointRetryTimes := 0
  logDb := false

def parameters_host : WorkflowParameters where
  parameters := [(ascii "host", ascii "a")]
  unique := by decide

def state_empty : LaunchState Unit := ⟨⟨[], 1⟩, [], 1, [], 0, 0⟩

/-- The connection is made and the row inserted; the row of the parameter is refused. -/
theorem not_leavesNothing_backup :
    ¬environment_host.LeavesNothing (ascii "backup") parameters_host
      [none, none, some "Lost connection to MySQL server during query"] state_empty := by
  intro hnothing
  have hids := (hnothing ⟨"DB", "Lost connection to MySQL server during query"⟩ []
    { state_empty with table := ⟨[⟨1, .executing, 0, none⟩], 2⟩ } rfl).1
  exact absurd hids (by decide)

/-! ## A launch that succeeds -/

namespace LaunchEnvironment

variable {env : LaunchEnvironment Node} {name : List UInt8} {p : WorkflowParameters}
variable {workflow : Workflow Node} {t : Template} {id : Nat}

/-- What `record_savepoint` does where nothing is refused. -/
theorem recordSavepoint_done (hall : ∀ a ∈ answers, a = none)
    (hdone : env.recordSavepoint workflow t id answers s = .done () rest s') :
    s' = { s with
      table := s.table.recordSavepoint env.savepointLevel false id (.create (workflow.document t))
        (workflow.status = "TERMINATED") } := by
  unfold recordSavepoint at hdone
  split at hdone
  · rename_i hzero
    cases hdone
    unfold HistoryTable.recordSavepoint
    simp [hzero]
  · split at hdone
    · rename_i hnot
      cases hdone
      unfold HistoryTable.recordSavepoint
      simp [hnot]
    · match answers with
      | [] => cases hdone
      | some error :: answers => exact nomatch hall _ (.head _)
      | [none] => cases hdone
      | none :: some error :: answers => exact nomatch hall _ (.tail _ (.head _))
      | none :: none :: answers =>
        cases hdone
        rfl

/-- Where nothing is refused the launch does to the table and to the sequence what `History.construct` does. -/
theorem launch_construct (hcheck : env.check name p = .ok (workflow, t)) (hall : ∀ a ∈ answers, a = none)
    (hdone : env.launch name p answers s = .done id rest s') (h : History Node) (htable : h.table = s.table)
    (hseq : h.seq = s.seq) :
    s'.table = (h.construct env.savepointLevel (workflow.document t) workflow.status).table ∧
      s'.seq = (h.construct env.savepointLevel (workflow.document t) workflow.status).seq ∧
      (h.construct env.savepointLevel (workflow.document t) workflow.status).given = h.given ++ [id] := by
  unfold launch at hdone
  rw [hcheck] at hdone
  obtain ⟨a, between, s₁, hconnect, hchecked⟩ := bind_done_iff.mp hdone
  obtain ⟨rfl, hs⟩ := request_done_iff.mp hconnect
  cases hs
  obtain ⟨checked, between, s₁, hok, hsaved⟩ := bind_done_iff.mp hchecked
  cases hok
  obtain ⟨id', between, s₁, hsave, hregister⟩ := bind_done_iff.mp hsaved
  cases hregister
  unfold save workflowInstanceId at hsave
  obtain ⟨id', between', s₂, hid, hrecord⟩ := bind_done_iff.mp hsave
  obtain ⟨a, between'', s₃, hrecord, hsame⟩ := bind_done_iff.mp hrecord
  cases hsame
  by_cases hlevel : env.savepointLevel ≥ 2
  · rw [if_pos hlevel] at hid
    obtain ⟨id', between₁, s₄, hrow, hparameters⟩ := bind_done_iff.mp hid
    obtain ⟨rfl, hs⟩ := request_done_iff.mp hrow
    cases hs
    obtain ⟨a, between₂, s₅, hparameters, hsame⟩ := bind_done_iff.mp hparameters
    cases hsame
    have hanswers := saveParameters_done_iff.mp ⟨_, hparameters⟩
    have hleft : ∀ a ∈ between', a = none := fun a ha ↦
      hall a (.tail _ (.tail _ (hanswers ▸ List.mem_append_right _ ha)))
    have hframe := saveParameters_frame (.inl hparameters)
    have htable₂ := congrArg LaunchState.table hframe
    have hseq₂ := congrArg LaunchState.seq hframe
    dsimp only [withoutParameters] at htable₂ hseq₂
    rw [recordSavepoint_done hleft hrecord]
    unfold History.construct
    rw [if_pos hlevel, htable, hseq, htable₂, hseq₂]
    exact ⟨rfl, rfl, rfl⟩
  · rw [if_neg hlevel] at hid
    cases hid
    rw [recordSavepoint_done (fun a ha ↦ hall a (.tail _ ha)) hrecord]
    unfold History.construct
    rw [if_neg (show ¬2 ≤ env.savepointLevel from hlevel), htable, hseq]
    exact ⟨rfl, rfl, rfl⟩

end LaunchEnvironment

end EvQueue
