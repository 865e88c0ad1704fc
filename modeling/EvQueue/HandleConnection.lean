import EvQueue.SocketQuerySAX2Handler

/-!
# HandleConnection — a request is read, served and answered

The function reads one request, passes it to the branch for its type and closes the socket, which every
path is to do by throwing a null `void *`.  Nothing else that is thrown outside the loop of the parser is
caught by the function, and nothing that is thrown in one of its own handlers: `Logger::Log` raises an
`Exception` where it writes to the database and cannot.
-/

namespace EvQueue

/-- What the parser calls the handler for. -/
inductive SaxEvent where
  | startElement (localname : String) (attrs : Attributes)
  | endElement

/-- What the parser finds, up to the point where it raises: the root element, if it gets there, and what
is behind it.  A document that ends before its root element is a fatal error for the parser. -/
structure Request where
  root : Option (String × Attributes)
  content : List SaxEvent

/-- What reading a request comes to. -/
inductive Parsed where
  | rejected
  | undefined
  | complete (h : SocketQuerySAX2Handler)

def readContent (xml : XMLString) : List SaxEvent → SocketQuerySAX2Handler → Parsed
  | [], _ => .rejected
  | .startElement localname attrs :: events, h =>
      match h.startElement xml localname attrs with
      | none => .undefined
      -- an `Exception`, or for `catch (...)` a `NumberFormatException`
      | some (.error _) => .rejected
      | some (.ok h) => readContent xml events h
  | .endElement :: events, h =>
      let h := h.endElement
      if h.ready then .complete h else readContent xml events h

/-- The loop of `parseNext`. -/
def readRequest (xml : XMLString) (memory : Memory) (request : Request) : Parsed :=
  match request.root with
  | none => .rejected
  | some (localname, attrs) =>
      readContent xml (.startElement localname attrs :: request.content) (.create memory)

/-! ## The branches -/

/-- What the calls made for a request do. -/
structure Calls where
  /-- `Logger::Log` in the handler that rejects a request. -/
  logRejected : Except Exception Unit
  /-- The constructor of `WorkflowInstance` for a name, parameters, a host and a user. -/
  newInstance : List UInt8 → List (List UInt8 × List UInt8) → Option (List UInt8) →
    Option (List UInt8) → Except Raised UInt32
  /-- `Logger::Log` in the handler of what the constructor raises. -/
  logNotInstanciated : Except Exception Unit
  /-- What `Start` reports; it logs, and an expression of the workflow may raise in it. -/
  start : Except Raised Bool
  logInstanciated : Except Exception Unit
  /-- The destructor of the instance, which logs. -/
  delete : Except Exception Unit
  /-- The constructor of `DB`. -/
  connect : Except Exception Unit
  /-- `WorkflowInstances::SendStatus`, when the instance is executing. -/
  sendStatus : Int → Option String
  /-- The query for a savepoint: the row, and what it holds. -/
  savepoint : Int → Except Exception (Option (Option String))
  /-- `WorkflowInstances::Cancel` and, when it knows the instance, the two calls behind it.  They log, and
  restart tasks. -/
  cancel : Int → Except Raised Bool
  wait : Int → Bool
  killTask : Int → Int → Bool
  queueStatistics : String
  globalStatistics : String
  workflowsStatus : String
  schedulerStatus : String

/-- How the function is left. -/
inductive Exit where
  | returned
  /-- Something was thrown that it does not catch. -/
  | escaped
  /-- Never: the thread waits for an instance that it is to delete itself. -/
  | waiting
  | undefined
deriving DecidableEq, Repr

/-- What a branch does: whether it reads a member that was not assigned, and what it sends. -/
structure Branch where
  unassigned : Bool
  sent : List String
  exit : Exit
deriving DecidableEq, Repr

def unknownWorkflowInstance : String := "<return status='KO' error='UNKNOWN-WORKFLOW-INSTANCE' />"

def statusOk : String := "<return status='OK' />"

/-- The answer of a branch for an instance that was found or was not. -/
def answer (unassigned found : Bool) : Branch :=
  { unassigned, sent := [if found then statusOk else unknownWorkflowInstance], exit := .returned }

/-- How the function is left behind its last call but `close`. -/
def escapes (last : Except Exception Unit) : Exit :=
  match last with
  | .error _ => .escaped
  | .ok () => .returned

/-- `QUERY_WORKFLOW_LAUNCH`. -/
def launchBranch (calls : Calls) (h : SocketQuerySAX2Handler) : Branch :=
  match h.workflowName with
  | none => { unassigned := true, sent := [], exit := .undefined }
  | some name =>
      match calls.newInstance name h.params h.workflowHost h.workflowUser with
      | .error .other => { unassigned := false, sent := [], exit := .escaped }
      | .error (.exception e) =>
          { unassigned := false
            sent := ["<return status='KO' error=\"", e.error, "\" />"]
            exit := escapes calls.logNotInstanciated }
      | .ok id =>
          match calls.start, calls.logInstanciated with
          | .error _, _ => { unassigned := false, sent := [], exit := .escaped }
          | .ok _, .error _ => { unassigned := false, sent := [], exit := .escaped }
          | .ok workflowTerminated, .ok () =>
              if h.queryOptions.value = some .modeSynchronous ∧ workflowTerminated then
                { unassigned := !h.queryOptions.assigned, sent := [], exit := .waiting }
              else
                { unassigned := !h.queryOptions.assigned
                  sent :=
                    ["<return status='OK' workflow-instance-id='" ++ toString id.toInt32.toInt ++ "' />"]
                  exit := if workflowTerminated then escapes calls.delete else .returned }

/-- `QUERY_WORKFLOW_INFO`. -/
def infoBranch (calls : Calls) (h : SocketQuerySAX2Handler) : Branch :=
  let unassigned := !h.workflowId.assigned
  match calls.connect with
  | .error _ => { unassigned, sent := [], exit := .escaped }
  | .ok () =>
      match calls.sendStatus h.workflowId.value with
      | some status => { unassigned, sent := [status], exit := .returned }
      | none =>
          match calls.savepoint h.workflowId.value with
          | .error _ => { unassigned, sent := [], exit := .escaped }
          | .ok none => { unassigned, sent := [unknownWorkflowInstance], exit := .returned }
          -- the length of a null field is taken
          | .ok (some none) => { unassigned, sent := [], exit := .undefined }
          | .ok (some (some savepoint)) => { unassigned, sent := [savepoint], exit := .returned }

/-- `QUERY_WORKFLOW_CANCEL`. -/
def cancelBranch (calls : Calls) (h : SocketQuerySAX2Handler) : Branch :=
  let unassigned := !h.workflowId.assigned
  match calls.cancel h.workflowId.value with
  | .error _ => { unassigned, sent := [], exit := .escaped }
  | .ok found => answer unassigned found

def branch (calls : Calls) (h : SocketQuerySAX2Handler) : QueryType → Branch
  | .ping => { unassigned := false, sent := ["<pong />"], exit := .returned }
  | .workflowLaunch => launchBranch calls h
  | .workflowInfo => infoBranch calls h
  | .workflowCancel => cancelBranch calls h
  | .workflowWait => answer (!h.workflowId.assigned) (calls.wait h.workflowId.value)
  | .workflowKillTask =>
      answer (!h.workflowId.assigned || !h.taskPid.assigned)
        (calls.killTask h.workflowId.value h.taskPid.value)
  | .queueStats => { unassigned := false, sent := [calls.queueStatistics], exit := .returned }
  | .globalStats => { unassigned := false, sent := [calls.globalStatistics], exit := .returned }
  | .resetGlobalStats => { unassigned := false, sent := [statusOk], exit := .returned }
  | .workflowsStatus => { unassigned := false, sent := [calls.workflowsStatus], exit := .returned }
  | .schedulerStatus => { unassigned := false, sent := [calls.schedulerStatus], exit := .returned }

/-! ## The connection -/

structure Connection where
  /-- The branch that was taken. -/
  dispatched : Option QueryType
  /-- Whether `query_type`, or a member that the branch read, was not assigned. -/
  unassigned : Bool
  sent : List String
  closed : Bool
  exit : Exit
deriving DecidableEq, Repr

/-- The chain of comparisons; behind it the function ends without `close`. -/
def dispatch (calls : Calls) (h : SocketQuerySAX2Handler) : Connection :=
  match h.queryType.value with
  | none =>
      { dispatched := none
        unassigned := !h.queryType.assigned
        sent := []
        closed := false
        exit := .returned }
  | some type =>
      let b := branch calls h type
      { dispatched := some type
        unassigned := !h.queryType.assigned || b.unassigned
        sent := b.sent
        closed := b.exit == .returned
        exit := b.exit }

def handleConnection (xml : XMLString) (memory : Memory) (calls : Calls) (request : Request) :
    Connection :=
  match readRequest xml memory request with
  | .rejected =>
      { dispatched := none
        unassigned := false
        sent := []
        closed := escapes calls.logRejected == .returned
        exit := escapes calls.logRejected }
  | .undefined =>
      { dispatched := none, unassigned := false, sent := [], closed := false, exit := .undefined }
  | .complete h => dispatch calls h

/-- The request is rejected, or is served by one branch that reads what the request assigned; and the
function closes the socket and returns. -/
structure Connection.Defined (c : Connection) : Prop where
  closed : c.closed = true
  returned : c.exit = .returned
  assigned : c.dispatched.isSome = true → c.unassigned = false

instance (c : Connection) : Decidable c.Defined :=
  decidable_of_iff
    (c.closed = true ∧ c.exit = .returned ∧ (c.dispatched.isSome = true → c.unassigned = false))
    ⟨fun h ↦ ⟨h.1, h.2.1, h.2.2⟩, fun h ↦ ⟨h.closed, h.returned, h.assigned⟩⟩

/-! ## What a request is to be -/

def KnownMode (attrs : Attributes) : Prop :=
  ∀ mode, attrs.getValue "mode" = some mode → mode = "asynchronous" ∨ mode = "synchronous"

def KnownAction (attrs : Attributes) : Prop :=
  ∀ action, attrs.getValue "action" = some action →
    action = "info" ∨ action = "cancel" ∨ action = "wait" ∨ action = "killtask"

def IsInfo (attrs : Attributes) : Prop :=
  ∀ action, attrs.getValue "action" = some action → action = "info"

theorem IsInfo.known {attrs : Attributes} (h : IsInfo attrs) : KnownAction attrs :=
  fun action haction ↦ .inl (h action haction)

def IsCancel (attrs : Attributes) : Prop := attrs.getValue "action" = some "cancel"

/-- The constructor raises an `Exception`, which is logged; or it returns, and so do `Start`, the log and the
deletion of an instance that has ended, the mode is one that the handler knows, and a synchronous request has
still to wait for another thread. -/
def LaunchServed (calls : Calls) (attrs : Attributes) (instance' : Except Raised UInt32) : Prop :=
  match instance' with
  | .error .other => False
  | .error (.exception _) => calls.logNotInstanciated = .ok ()
  | .ok _ => ∃ workflowTerminated, calls.start = .ok workflowTerminated ∧
      calls.logInstanciated = .ok () ∧ KnownMode attrs ∧
      (workflowTerminated = true → attrs.getValue "mode" ≠ some "synchronous" ∧ calls.delete = .ok ())

/-- No call of the database raises, and no savepoint is null. -/
def InfoServed (calls : Calls) (id : Int) : Prop :=
  calls.connect = .ok () ∧
    (calls.sendStatus id = none → ∃ row, calls.savepoint id = .ok row ∧ row ≠ some none)

/-- What a root element with these parameters below it has to meet. -/
def Served (xml : XMLString) (calls : Calls) (localname : String) (attrs : Attributes)
    (params : List (List UInt8 × List UInt8)) : Prop :=
  xml.transcode localname = ascii "workflow" →
    match attrs.getValue "name", attrs.getValue "id" with
    | some name, _ =>
        LaunchServed calls attrs
          (calls.newInstance (xml.transcode name) params
            ((attrs.getValue "host").map xml.transcode) ((attrs.getValue "user").map xml.transcode))
    | none, some id =>
        KnownAction attrs ∧ ∀ i, xml.parseInt id = some i →
          (IsInfo attrs → InfoServed calls i) ∧
          (IsCancel attrs → ∃ found, calls.cancel i = .ok found)
    | none, none => True

/-! ## The members behind the root element -/

/-- What the elements below the root do not change. -/
structure SameQuery (h h' : SocketQuerySAX2Handler) : Prop where
  queryType : h'.queryType = h.queryType
  queryOptions : h'.queryOptions = h.queryOptions
  workflowId : h'.workflowId = h.workflowId
  taskPid : h'.taskPid = h.taskPid
  workflowName : h'.workflowName = h.workflowName
  workflowHost : h'.workflowHost = h.workflowHost
  workflowUser : h'.workflowUser = h.workflowUser

variable {xml : XMLString} {memory : Memory} {calls : Calls} {request : Request} {localname : String}
  {attrs : Attributes} {events : List SaxEvent} {h h' : SocketQuerySAX2Handler}

theorem SameQuery.refl (h : SocketQuerySAX2Handler) : SameQuery h h := ⟨rfl, rfl, rfl, rfl, rfl, rfl, rfl⟩

theorem SameQuery.trans {h'' : SocketQuerySAX2Handler} (h₁ : SameQuery h h') (h₂ : SameQuery h' h'') :
    SameQuery h h'' where
  queryType := h₂.queryType.trans h₁.queryType
  queryOptions := h₂.queryOptions.trans h₁.queryOptions
  workflowId := h₂.workflowId.trans h₁.workflowId
  taskPid := h₂.taskPid.trans h₁.taskPid
  workflowName := h₂.workflowName.trans h₁.workflowName
  workflowHost := h₂.workflowHost.trans h₁.workflowHost
  workflowUser := h₂.workflowUser.trans h₁.workflowUser

namespace SocketQuerySAX2Handler

theorem parameterElement_ok (hok : h.parameterElement xml localname attrs = some (.ok h')) :
    ∃ params, h' = { h with params } := by
  unfold parameterElement at hok
  split at hok
  · cases hok
  · split at hok
    · dsimp only at hok
      split at hok
      · cases hok
      · split at hok
        · cases hok
        · cases hok
        · split at hok
          · cases hok
          · exact ⟨_, (Except.ok.inj (Option.some.inj hok)).symm⟩
    · cases hok

/-- Behind the branch for the root element only the parameters change. -/
theorem subElement_ok (hok : h.subElement xml localname attrs = some (.ok h')) :
    ∃ params, h' = { h with params } := by
  unfold subElement at hok
  split at hok
  · cases hok
  · split at hok
    · exact parameterElement_ok hok
    · split at hok
      · cases hok
      · exact ⟨h.params, (Except.ok.inj (Option.some.inj hok)).symm⟩

theorem subElement_root (hlevel : h.level = 1) : h.subElement xml localname attrs = some (.ok h) := by
  unfold subElement
  simp [hlevel]

end SocketQuerySAX2Handler

/-- An element below the root. -/
theorem startElement_ok (hlevel : 1 ≤ h.level)
    (hok : h.startElement xml localname attrs = some (.ok h')) : SameQuery h h' ∧ 1 ≤ h'.level := by
  unfold SocketQuerySAX2Handler.startElement at hok
  dsimp only at hok
  rw [if_neg (by omega)] at hok
  rcases SocketQuerySAX2Handler.subElement_ok hok with ⟨params, heq⟩
  rw [heq]
  apply And.intro ⟨rfl, rfl, rfl, rfl, rfl, rfl, rfl⟩
  show 1 ≤ h.level + 1
  omega

/-- The loop keeps the query, and leaves the parser at the end of the root element. -/
theorem readContent_complete (hlevel : 1 ≤ h.level)
    (hread : readContent xml events h = .complete h') : SameQuery h h' := by
  induction events generalizing h with
  | nil => cases hread
  | cons event events ih =>
    cases event with
    | startElement localname attrs =>
      unfold readContent at hread
      cases hstart : h.startElement xml localname attrs with
      | none => simp [hstart] at hread
      | some result =>
        cases result with
        | error e => simp [hstart] at hread
        | ok next =>
          simp only [hstart] at hread
          have hnext := startElement_ok hlevel hstart
          exact hnext.1.trans (ih hnext.2 hread)
    | endElement =>
      unfold readContent at hread
      dsimp only at hread
      split at hread
      · cases hread
        exact ⟨rfl, rfl, rfl, rfl, rfl, rfl, rfl⟩
      · rename_i hready
        have hlevel' : 1 ≤ h.endElement.level := by
          -- level 1 would have made the handler ready
          show 1 ≤ h.level - 1
          by_contra hlow
          apply hready
          show (h.ready || h.level - 1 == 0) = true
          rw [show h.level - 1 = 0 by omega]
          exact Bool.or_true _
        have hsame : SameQuery h h.endElement := ⟨rfl, rfl, rfl, rfl, rfl, rfl, rfl⟩
        exact hsame.trans (ih hlevel' hread)

/-! ## The root element -/

/-- The queries whose branches read no other member. -/
def QueryType.plain : QueryType → Bool
  | .ping => true
  | .queueStats => true
  | .globalStats => true
  | .resetGlobalStats => true
  | .workflowsStatus => true
  | .schedulerStatus => true
  | _ => false

namespace SocketQuerySAX2Handler

theorem statisticsType_plain {type : QueryType} (hok : statisticsType attrs = .ok type) :
    type.plain = true := by
  unfold statisticsType at hok
  split at hok
  · cases hok
  · split at hok
    · split at hok
      · cases hok
        rfl
      · split at hok
        · cases hok
          rfl
        · split at hok
          · cases hok
            rfl
          · cases hok
    · split at hok
      · cases hok
        rfl
      · cases hok

theorem statusType_plain {type : QueryType} (hok : statusType attrs = .ok type) : type.plain = true := by
  unfold statusType at hok
  split at hok
  · cases hok
  · split at hok
    · cases hok
      rfl
    · split at hok
      · cases hok
        rfl
      · cases hok

theorem assignType_ok {type : Except Thrown QueryType} (hok : h.assignType type = some (.ok h')) :
    ∃ t, type = .ok t ∧ h' = { h with queryType := .assign (some t) } := by
  unfold assignType at hok
  cases type with
  | error e => cases hok
  | ok t => exact ⟨t, rfl, (Except.ok.inj (Option.some.inj hok)).symm⟩

theorem workflowByName_ok {name : String} (hok : h.workflowByName xml attrs name = some (.ok h')) :
    ∃ host user, h' = { h with
      queryType := .assign (some .workflowLaunch)
      workflowName := some (xml.transcode name)
      queryOptions := modeOptions attrs h.queryOptions
      workflowHost := host
      workflowUser := user } ∧
      (h.workflowHost = none → host = (attrs.getValue "host").map xml.transcode) ∧
      (h.workflowUser = none → user = (attrs.getValue "user").map xml.transcode) := by
  unfold workflowByName at hok
  dsimp only at hok
  split at hok
  · cases hok
  · cases hok
  · refine ⟨_, _, (Except.ok.inj (Option.some.inj hok)).symm, ?_, ?_⟩
    · intro hhost
      cases attrs.getValue "host" with
      | none => exact hhost
      | some host => rfl
    · intro huser
      cases attrs.getValue "user" with
      | none => exact huser
      | some user => rfl

/-- The action is to inform, is one of the three others, or is not known. -/
theorem workflowById_ok {id : String} (hok : h.workflowById xml attrs id = .ok h') :
    ∃ i, xml.parseInt id = some i ∧
      ((IsInfo attrs ∧ h' = { h with workflowId := .assign i, queryType := .assign (some .workflowInfo) }) ∨
        (KnownAction attrs ∧ ¬ IsInfo attrs ∧ ∃ type taskPid,
          h' = { h with workflowId := .assign i, queryType := .assign (some type), taskPid } ∧
          (IsCancel attrs ∧ type = .workflowCancel ∨ ¬ IsCancel attrs ∧ (type = .workflowWait ∨
            type = .workflowKillTask ∧ taskPid.assigned = true))) ∨
        (¬ KnownAction attrs ∧ h' = { h with workflowId := .assign i })) := by
  unfold workflowById at hok
  cases hid : xml.parseInt id with
  | none => simp [hid] at hok
  | some i =>
    refine ⟨i, rfl, ?_⟩
    simp only [hid] at hok
    unfold IsInfo KnownAction IsCancel
    cases haction : attrs.getValue "action" with
    | none =>
      simp only [haction] at hok
      cases hok
      exact .inl ⟨nofun, rfl⟩
    | some action =>
      simp only [haction] at hok
      by_cases hinfo : action = "info"
      · rw [if_pos hinfo] at hok
        cases hok
        exact .inl ⟨fun a ha ↦ (Option.some.inj ha).symm.trans hinfo, rfl⟩
      have hnot : ¬ ∀ a, some action = some a → a = "info" := fun hall ↦ hinfo (hall action rfl)
      rw [if_neg hinfo] at hok
      by_cases hcancel : action = "cancel"
      · rw [if_pos hcancel] at hok
        cases hok
        refine .inr (.inl ⟨?_, hnot, _, _, rfl, .inl ⟨by rw [hcancel], rfl⟩⟩)
        intro a ha
        exact .inr (.inl ((Option.some.inj ha).symm.trans hcancel))
      rw [if_neg hcancel] at hok
      have hother : ¬ some action = some "cancel" := fun heq ↦ hcancel (Option.some.inj heq)
      by_cases hwait : action = "wait"
      · rw [if_pos hwait] at hok
        cases hok
        refine .inr (.inl ⟨?_, hnot, _, _, rfl, .inr ⟨hother, .inl rfl⟩⟩)
        intro a ha
        exact .inr (.inr (.inl ((Option.some.inj ha).symm.trans hwait)))
      rw [if_neg hwait] at hok
      by_cases hkill : action = "killtask"
      · rw [if_pos hkill] at hok
        split at hok
        · cases hok
        · split at hok
          · cases hok
          · cases hok
            refine .inr (.inl ⟨?_, hnot, _, _, rfl, .inr ⟨hother, .inr ⟨rfl, rfl⟩⟩⟩)
            intro a ha
            exact .inr (.inr (.inr ((Option.some.inj ha).symm.trans hkill)))
      · rw [if_neg hkill] at hok
        cases hok
        refine .inr (.inr ⟨?_, rfl⟩)
        intro hall
        rcases hall action rfl with heq | heq | heq | heq
        · exact hinfo heq
        · exact hcancel heq
        · exact hwait heq
        · exact hkill heq

/-- A root element that is taken asks for a query without members, or is a `workflow`. -/
theorem rootElement_ok (hok : h.rootElement xml localname attrs = some (.ok h')) :
    (xml.transcode localname ≠ ascii "workflow" ∧
      ∃ type, type.plain = true ∧ h' = { h with queryType := .assign (some type) }) ∨
    (xml.transcode localname = ascii "workflow" ∧
      ((∃ name, attrs.getValue "name" = some name ∧
          h.workflowByName xml attrs name = some (.ok h')) ∨
        (attrs.getValue "name" = none ∧ ∃ id, attrs.getValue "id" = some id ∧
          h.workflowById xml attrs id = .ok h'))) := by
  unfold rootElement at hok
  dsimp only at hok
  split at hok
  · rename_i hname
    rcases assignType_ok hok with ⟨type, htype, heq⟩
    cases htype
    exact .inl ⟨by rw [hname]; decide, .ping, rfl, heq⟩
  · split at hok
    · rename_i hname
      rcases assignType_ok hok with ⟨type, htype, heq⟩
      exact .inl ⟨by rw [hname]; decide, type, statisticsType_plain htype, heq⟩
    · split at hok
      · rename_i hname
        rcases assignType_ok hok with ⟨type, htype, heq⟩
        exact .inl ⟨by rw [hname]; decide, type, statusType_plain htype, heq⟩
      · split at hok
        · rename_i hname
          refine .inr ⟨hname, ?_⟩
          split at hok
          · rename_i name hattr
            exact .inl ⟨name, hattr, hok⟩
          · rename_i id hattr hid
            exact .inr ⟨hattr, id, hid, Option.some.inj hok⟩
          · cases hok
        · cases hok

theorem rootElement_level (hok : h.rootElement xml localname attrs = some (.ok h')) :
    h'.level = h.level := by
  rcases rootElement_ok hok with ⟨-, type, -, heq⟩ | ⟨-, ⟨name, -, hname⟩ | ⟨-, id, -, hid⟩⟩
  · rw [heq]
  · rcases workflowByName_ok hname with ⟨host, user, heq, -⟩
    rw [heq]
  · rcases workflowById_ok hid with ⟨i, -, ⟨-, heq⟩ | ⟨-, -, type, taskPid, heq, -⟩ | ⟨-, heq⟩⟩
    all_goals rw [heq]

/-- The handler as the root element finds it. -/
def atRoot (memory : Memory) : SocketQuerySAX2Handler := { create memory with level := 1 }

end SocketQuerySAX2Handler

/-- A request that is read to its end has a root element that the handler takes, and keeps its query. -/
theorem readRequest_complete (hread : readRequest xml memory request = .complete h) :
    ∃ localname attrs root, request.root = some (localname, attrs) ∧
      (SocketQuerySAX2Handler.atRoot memory).rootElement xml localname attrs = some (.ok root) ∧
      SameQuery root h := by
  unfold readRequest at hread
  cases hroot : request.root with
  | none => simp [hroot] at hread
  | some element =>
    rcases element with ⟨localname, attrs⟩
    simp only [hroot] at hread
    unfold readContent SocketQuerySAX2Handler.startElement at hread
    have hlevel : (SocketQuerySAX2Handler.create memory).level + 1 = 1 := rfl
    have hatRoot : { SocketQuerySAX2Handler.create memory with level := 1 } =
        SocketQuerySAX2Handler.atRoot memory := rfl
    dsimp only at hread
    rw [hlevel, if_pos rfl, hatRoot] at hread
    cases hresult : (SocketQuerySAX2Handler.atRoot memory).rootElement xml localname attrs with
    | none => simp [hresult] at hread
    | some result =>
      cases result with
      | error e => simp [hresult] at hread
      | ok root =>
        have hlevel : root.level = 1 := SocketQuerySAX2Handler.rootElement_level hresult
        simp only [hresult, SocketQuerySAX2Handler.subElement_root hlevel] at hread
        exact ⟨localname, attrs, root, rfl, hresult, readContent_complete (by omega) hread⟩

/-! ## The branches, for the members that they read -/

/-- The branch returns, and reads what was assigned. -/
structure Branch.Fine (b : Branch) : Prop where
  assigned : b.unassigned = false
  returned : b.exit = .returned

theorem dispatch_defined_iff : (dispatch calls h).Defined ↔
    ∃ type, h.queryType = .assign (some type) ∧ (branch calls h type).Fine := by
  rcases htype : h.queryType with ⟨value, assigned⟩
  unfold dispatch Member.assign
  rw [htype]
  cases value with
  | none => exact iff_of_false (fun hd ↦ Bool.false_ne_true hd.closed) nofun
  | some type =>
    dsimp only
    apply Iff.intro
    · intro hd
      have hunassigned := hd.assigned rfl
      rw [Bool.or_eq_false_iff] at hunassigned
      cases assigned with
      | false => cases hunassigned.1
      | true => exact ⟨type, rfl, hunassigned.2, hd.returned⟩
    · rintro ⟨type', heq, hfine⟩
      cases heq
      exact ⟨by simp [hfine.returned], hfine.returned, fun _ ↦ by simp [hfine.assigned]⟩

theorem branch_plain {type : QueryType} (hplain : type.plain = true) : (branch calls h type).Fine := by
  cases type <;> first | exact ⟨rfl, rfl⟩ | cases hplain

theorem answer_fine_iff {unassigned found : Bool} :
    (answer unassigned found).Fine ↔ unassigned = false :=
  ⟨fun hfine ↦ hfine.assigned, fun hassigned ↦ ⟨hassigned, rfl⟩⟩

variable (attrs) in
theorem modeOptions_assigned (memory : Option QueryOptions) :
    (SocketQuerySAX2Handler.modeOptions attrs ⟨memory, false⟩).assigned = true ↔ KnownMode attrs := by
  unfold SocketQuerySAX2Handler.modeOptions KnownMode
  cases attrs.getValue "mode" with
  | none => exact iff_of_true rfl nofun
  | some mode =>
    dsimp only
    by_cases hasync : mode = "asynchronous"
    · simp [hasync, Member.assign]
    · by_cases hsync : mode = "synchronous"
      · simp [hsync, Member.assign]
      · simp [hasync, hsync]

theorem modeOptions_synchronous (hmode : KnownMode attrs) (memory : Member (Option QueryOptions)) :
    (SocketQuerySAX2Handler.modeOptions attrs memory).value = some .modeSynchronous ↔
      attrs.getValue "mode" = some "synchronous" := by
  unfold SocketQuerySAX2Handler.modeOptions
  unfold KnownMode at hmode
  cases hattr : attrs.getValue "mode" with
  | none => simp [Member.assign]
  | some mode =>
    rcases hmode mode hattr with heq | heq
    · simp [heq, Member.assign]
    · simp [heq, Member.assign]

theorem escapes_returned_iff {last : Except Exception Unit} : escapes last = .returned ↔ last = .ok () := by
  unfold escapes
  cases last with
  | error e => exact iff_of_false nofun nofun
  | ok u => exact iff_of_true rfl rfl

variable (calls) in
/-- What is left to do once `Start` has returned and the log is written. -/
theorem started_fine_iff {sent : List String} {terminated : Bool}
    (hassigned : h.queryOptions.assigned = true ↔ KnownMode attrs)
    (hsynchronous : KnownMode attrs → (h.queryOptions.value = some .modeSynchronous ↔
      attrs.getValue "mode" = some "synchronous")) :
    (if h.queryOptions.value = some .modeSynchronous ∧ terminated then
        ({ unassigned := !h.queryOptions.assigned, sent := [], exit := .waiting } : Branch)
      else
        { unassigned := !h.queryOptions.assigned
          sent
          exit := if terminated then escapes calls.delete else .returned }).Fine ↔
      KnownMode attrs ∧
        (terminated = true → attrs.getValue "mode" ≠ some "synchronous" ∧ calls.delete = .ok ()) := by
  by_cases hmode : KnownMode attrs
  · rw [hassigned.mpr hmode]
    cases terminated with
    | false =>
      rw [if_neg fun h ↦ Bool.false_ne_true h.2]
      exact iff_of_true ⟨rfl, rfl⟩ ⟨hmode, nofun⟩
    | true =>
      by_cases hwaits : attrs.getValue "mode" = some "synchronous"
      · rw [if_pos ⟨(hsynchronous hmode).mpr hwaits, rfl⟩]
        exact iff_of_false (fun hfine ↦ absurd hfine.returned nofun)
          fun hserved ↦ (hserved.2 rfl).1 hwaits
      · rw [if_neg fun h ↦ hwaits ((hsynchronous hmode).mp h.1), if_pos rfl, ← escapes_returned_iff]
        constructor
        · exact fun hfine ↦ ⟨hmode, fun _ ↦ ⟨hwaits, hfine.returned⟩⟩
        · exact fun hserved ↦ ⟨rfl, (hserved.2 rfl).2⟩
  · -- the options are read and were not assigned
    have hunassigned : h.queryOptions.assigned = false :=
      Bool.eq_false_iff.mpr fun htrue ↦ hmode (hassigned.mp htrue)
    rw [hunassigned]
    apply iff_of_false _ fun hserved ↦ hmode hserved.1
    intro hfine
    have hread := hfine.assigned
    split at hread <;> cases hread

variable (calls) in
theorem launchBranch_fine_iff {memory : Option QueryOptions} {name : List UInt8}
    (hname : h.workflowName = some name)
    (hoptions : h.queryOptions = SocketQuerySAX2Handler.modeOptions attrs ⟨memory, false⟩) :
    (launchBranch calls h).Fine ↔
      LaunchServed calls attrs (calls.newInstance name h.params h.workflowHost h.workflowUser) := by
  have hassigned := modeOptions_assigned attrs memory
  rw [← hoptions] at hassigned
  unfold launchBranch LaunchServed
  rw [hname]
  dsimp only
  cases calls.newInstance name h.params h.workflowHost h.workflowUser with
  | error raised =>
    cases raised with
    | other => exact iff_of_false (fun hfine ↦ absurd hfine.returned nofun) id
    | exception e =>
      dsimp only
      rw [← escapes_returned_iff]
      exact ⟨fun hfine ↦ hfine.returned, fun hreturned ↦ ⟨rfl, hreturned⟩⟩
  | ok id =>
    dsimp only
    cases calls.start with
    | error raised =>
      apply iff_of_false (fun hfine ↦ absurd hfine.returned nofun)
      rintro ⟨terminated, hstart, -⟩
      cases hstart
    | ok terminated =>
      cases calls.logInstanciated with
      | error e =>
        apply iff_of_false (fun hfine ↦ absurd hfine.returned nofun)
        rintro ⟨terminated, -, hlog, -⟩
        cases hlog
      | ok u =>
        dsimp only
        have hserved : (∃ workflowTerminated, Except.ok (ε := Raised) terminated = .ok workflowTerminated ∧
            Except.ok (ε := Exception) u = .ok () ∧ KnownMode attrs ∧ (workflowTerminated = true →
              attrs.getValue "mode" ≠ some "synchronous" ∧ calls.delete = .ok ())) ↔
            KnownMode attrs ∧ (terminated = true →
              attrs.getValue "mode" ≠ some "synchronous" ∧ calls.delete = .ok ()) := by
          simp
        rw [hserved]
        exact started_fine_iff calls hassigned fun hmode ↦ by
          rw [hoptions]
          exact modeOptions_synchronous hmode ⟨memory, false⟩

variable (calls) in
theorem infoBranch_fine_iff {i : Int} (hid : h.workflowId = .assign i) :
    (infoBranch calls h).Fine ↔ InfoServed calls i := by
  unfold infoBranch InfoServed
  rw [hid]
  unfold Member.assign
  dsimp only
  cases calls.connect with
  | error e => exact iff_of_false (fun hfine ↦ absurd hfine.returned nofun) nofun
  | ok u =>
    cases calls.sendStatus i with
    | some status => exact iff_of_true ⟨rfl, rfl⟩ ⟨rfl, nofun⟩
    | none =>
      cases calls.savepoint i with
      | error e =>
        apply iff_of_false (fun hfine ↦ absurd hfine.returned nofun)
        intro hserved
        rcases hserved.2 rfl with ⟨row, hrow, -⟩
        cases hrow
      | ok row =>
        rcases row with _ | _ | savepoint
        · exact iff_of_true ⟨rfl, rfl⟩ ⟨rfl, fun _ ↦ ⟨none, rfl, nofun⟩⟩
        · apply iff_of_false (fun hfine ↦ absurd hfine.returned nofun)
          intro hserved
          rcases hserved.2 rfl with ⟨row, hrow, hne⟩
          cases hrow
          exact hne rfl
        · exact iff_of_true ⟨rfl, rfl⟩ ⟨rfl, fun _ ↦ ⟨_, rfl, nofun⟩⟩

variable (calls) in
theorem cancelBranch_fine_iff {i : Int} (hid : h.workflowId = .assign i) :
    (cancelBranch calls h).Fine ↔ ∃ found, calls.cancel i = .ok found := by
  unfold cancelBranch
  rw [hid]
  unfold Member.assign
  dsimp only
  cases calls.cancel i with
  | error e => exact iff_of_false (fun hfine ↦ absurd hfine.returned nofun) nofun
  | ok found => exact iff_of_true (answer_fine_iff.mpr rfl) ⟨found, rfl⟩

/-! ## The connection -/

theorem exists_assign_iff {type : QueryType} {fine : QueryType → Prop} :
    (∃ type', Member.assign (some type) = .assign (some type') ∧ fine type') ↔ fine type := by
  apply Iff.intro
  · rintro ⟨type', heq, hfine⟩
    cases heq
    exact hfine
  · exact fun hfine ↦ ⟨type, rfl, hfine⟩

/-- What the root element has assigned decides whether a request that was read is served as it should
be. -/
theorem dispatch_served_iff {root : SocketQuerySAX2Handler}
    (hroot : (SocketQuerySAX2Handler.atRoot memory).rootElement xml localname attrs = some (.ok root))
    (hsame : SameQuery root h) :
    (dispatch calls h).Defined ↔ Served xml calls localname attrs h.params := by
  rw [dispatch_defined_iff, hsame.queryType]
  unfold Served
  rcases SocketQuerySAX2Handler.rootElement_ok hroot with
    ⟨hnode, type, hplain, heq⟩ | ⟨hnode, ⟨name, hattr, hname⟩ | ⟨hattr, id, hid, hok⟩⟩
  · -- no workflow element: the branch answers and nothing is asked of the fields
    rw [heq]
    exact iff_of_true ⟨type, rfl, branch_plain hplain⟩ fun hworkflow ↦ absurd hworkflow hnode
  · rcases SocketQuerySAX2Handler.workflowByName_ok hname with ⟨host, user, heq, hhost, huser⟩
    have htype : root.queryType = .assign (some .workflowLaunch) := by rw [heq]
    have hlaunch := launchBranch_fine_iff calls
      (hsame.workflowName.trans (by rw [heq])) (hsame.queryOptions.trans (by rw [heq]; rfl))
    rw [htype, exists_assign_iff]
    show (launchBranch calls h).Fine ↔ _
    rw [hlaunch, hsame.workflowHost, hsame.workflowUser, heq]
    dsimp only
    rw [hhost rfl, huser rfl, hattr]
    exact ⟨fun hserved _ ↦ hserved, fun hserved ↦ hserved hnode⟩
  · rw [hattr, hid]
    dsimp only
    rcases SocketQuerySAX2Handler.workflowById_ok hok with
      ⟨i, hi, ⟨hinfo, heq⟩ | ⟨hknown, hnot, type, taskPid, heq, htypes⟩ | ⟨hunknown, heq⟩⟩
    · have htype : root.queryType = .assign (some .workflowInfo) := by rw [heq]
      have hbranch := infoBranch_fine_iff calls (hsame.workflowId.trans (by rw [heq]))
      have hother : ¬ IsCancel attrs := fun hcancel ↦ absurd (hinfo _ hcancel) (by decide)
      rw [htype, exists_assign_iff]
      show (infoBranch calls h).Fine ↔ _
      rw [hbranch]
      apply Iff.intro
      · intro hserved _
        apply And.intro hinfo.known
        intro i' hi'
        cases hi.symm.trans hi'
        exact ⟨fun _ ↦ hserved, fun hcancel ↦ absurd hcancel hother⟩
      · exact fun hserved ↦ ((hserved hnode).2 i hi).1 hinfo
    · have htype : root.queryType = .assign (some type) := by rw [heq]
      have hworkflowId : h.workflowId = .assign i := by rw [hsame.workflowId, heq]
      have htaskPid : h.taskPid = taskPid := by rw [hsame.taskPid, heq]
      rw [htype, exists_assign_iff]
      rcases htypes with ⟨hcancel, rfl⟩ | ⟨hother, htypes⟩
      · have hbranch := cancelBranch_fine_iff calls hworkflowId
        show (cancelBranch calls h).Fine ↔ _
        rw [hbranch]
        apply Iff.intro
        · intro hserved _
          apply And.intro hknown
          intro i' hi'
          cases hi.symm.trans hi'
          exact ⟨fun hinfo ↦ absurd hinfo hnot, fun _ ↦ hserved⟩
        · exact fun hserved ↦ ((hserved hnode).2 i hi).2 hcancel
      · apply iff_of_true
        · rcases htypes with rfl | ⟨rfl, hassigned⟩
          · exact answer_fine_iff.mpr (by rw [hworkflowId]; rfl)
          · exact answer_fine_iff.mpr (by rw [hworkflowId, htaskPid, hassigned]; rfl)
        · intro _
          exact ⟨hknown, fun _ _ ↦ ⟨fun hinfo ↦ absurd hinfo hnot, fun hcancel ↦ absurd hcancel hother⟩⟩
    · -- `query_type` is still what was in memory
      have htype : root.queryType = ⟨memory.queryType, false⟩ := by rw [heq]; rfl
      rw [htype]
      apply iff_of_false
      · rintro ⟨type, hassign, -⟩
        exact Bool.false_ne_true (congrArg Member.assigned hassign)
      · exact fun hserved ↦ hunknown (hserved hnode).1

/-- A request is ended as it should be exactly when it is rejected with a log, or when the handler takes it
whole and what it asks for can be served. -/
theorem handleConnection_defined_iff (xml : XMLString) (memory : Memory) (calls : Calls)
    (request : Request) :
    (handleConnection xml memory calls request).Defined ↔
      (readRequest xml memory request = .rejected ∧ calls.logRejected = .ok ()) ∨
        ∃ h localname attrs, readRequest xml memory request = .complete h ∧
          request.root = some (localname, attrs) ∧ Served xml calls localname attrs h.params := by
  unfold handleConnection
  cases hread : readRequest xml memory request with
  | rejected =>
    dsimp only
    rw [← escapes_returned_iff]
    constructor
    · exact fun hd ↦ .inl ⟨rfl, hd.returned⟩
    · rintro (⟨-, hlog⟩ | ⟨h, localname, attrs, hcomplete, -⟩)
      · exact ⟨by rw [hlog]; rfl, hlog, nofun⟩
      · cases hcomplete
  | undefined =>
    apply iff_of_false (fun hd ↦ Bool.false_ne_true hd.closed)
    rintro (⟨hrejected, -⟩ | ⟨h, localname, attrs, hcomplete, -⟩)
    · cases hrejected
    · cases hcomplete
  | complete h =>
    rcases readRequest_complete hread with ⟨localname, attrs, root, hroot, hok, hsame⟩
    dsimp only
    rw [dispatch_served_iff hok hsame]
    apply Iff.intro
    · exact fun hserved ↦ .inr ⟨h, localname, attrs, rfl, hroot, hserved⟩
    · rintro (⟨hrejected, -⟩ | ⟨h', localname', attrs', hcomplete, hroot', hserved⟩)
      · cases hrejected
      · cases hcomplete
        cases hroot.symm.trans hroot'
        exact hserved

/-- A client that writes ASCII, and the number 7. -/
def plainXml : XMLString where
  transcode := ascii
  parseInt s := if s = "7" then some 7 else none

/-- Every workflow can be launched, nothing is logged to the database, and it has gone away. -/
def withoutDatabase : Calls where
  logRejected := .ok ()
  newInstance _ _ _ _ := .ok 1
  logNotInstanciated := .ok ()
  start := .ok false
  logInstanciated := .ok ()
  delete := .ok ()
  connect := .error ⟨"DB", "MySQL server has gone away"⟩
  sendStatus _ := none
  savepoint _ := .ok none
  cancel _ := .ok false
  wait _ := false
  killTask _ _ := false
  queueStatistics := "<statistics />"
  globalStatistics := "<statistics />"
  workflowsStatus := "<workflows></workflows>"
  schedulerStatus := "<status />"

def zeroMemory : Memory where
  queryType := none
  queryOptions := none
  workflowId := 0
  taskPid := 0

/-- A launch with a parameter is answered with the identity of the instance. -/
example : handleConnection plainXml zeroMemory withoutDatabase
    ⟨some ("workflow", [("name", "w")]),
      [.startElement "parameter" [("name", "a"), ("value", "b")], .endElement, .endElement]⟩ =
    { dispatched := some .workflowLaunch
      unassigned := false
      sent := ["<return status='OK' workflow-instance-id='1' />"]
      closed := true
      exit := .returned } := by decide

/-- Also the log is to go to the database. -/
def withoutLog : Calls where
  __ := withoutDatabase
  logRejected := .error ⟨"DB", "MySQL server has gone away"⟩
  logInstanciated := .error ⟨"DB", "MySQL server has gone away"⟩

/-- An action that is not known falls behind the chain, a mode that is not known is read from memory, and
the exception of the database leaves the function, also from the log of a launch or of a rejection. -/
theorem handleConnection_not_defined :
    let action : Request := ⟨some ("workflow", [("id", "7"), ("action", "restart")]), [.endElement]⟩
    let mode : Request := ⟨some ("workflow", [("name", "w"), ("mode", "detached")]), [.endElement]⟩
    let info : Request := ⟨some ("workflow", [("id", "7")]), [.endElement]⟩
    let launch : Request := ⟨some ("workflow", [("name", "w")]), [.endElement]⟩
    let unknown : Request := ⟨some ("task", []), [.endElement]⟩
    handleConnection plainXml zeroMemory withoutDatabase action =
      { dispatched := none, unassigned := true, sent := [], closed := false, exit := .returned } ∧
    handleConnection plainXml zeroMemory withoutDatabase mode =
      { dispatched := some .workflowLaunch
        unassigned := true
        sent := ["<return status='OK' workflow-instance-id='1' />"]
        closed := true
        exit := .returned } ∧
    handleConnection plainXml zeroMemory withoutDatabase info =
      { dispatched := some .workflowInfo
        unassigned := false
        sent := []
        closed := false
        exit := .escaped } ∧
    (∀ request ∈ [action, mode, info],
      ¬ (handleConnection plainXml zeroMemory withoutDatabase request).Defined) ∧
    ∀ request ∈ [launch, unknown],
      (handleConnection plainXml zeroMemory withoutLog request).exit = .escaped ∧
        ¬ (handleConnection plainXml zeroMemory withoutLog request).Defined := by
  decide

end EvQueue
