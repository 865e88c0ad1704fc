import EvQueue.Base.XmlTree
import EvQueue.Exception

/-!
# SocketQuerySAX2Handler — what a client asks for

The handler is called by the parser for each element of the request.  Four of its members are assigned by
some of the root elements only, and the constructor does not initialise them.
-/

namespace EvQueue

/-- The constants of `query_type`. -/
inductive QueryType where
  | workflowLaunch
  | workflowInfo
  | queueStats
  | globalStats
  | workflowsStatus
  | schedulerStatus
  | workflowCancel
  | workflowWait
  | workflowKillTask
  | resetGlobalStats
  | ping
deriving DecidableEq, Repr

/-- The constants of `query_options`. -/
inductive QueryOptions where
  | modeSynchronous
  | modeAsynchronous
deriving DecidableEq, Repr

/-- A member, and whether it was assigned since the constructor. -/
structure Member (α : Type) where
  value : α
  assigned : Bool
deriving DecidableEq, Repr

def Member.assign {α : Type} (value : α) : Member α := ⟨value, true⟩

/-- `Attributes::getValue`: `none` is the null pointer. -/
def Attributes.getValue (attrs : Attributes) (name : String) : Option String :=
  attrs.lookup name

/-- `XMLString`: to the local code page, and to a number, for which it throws a `NumberFormatException`
if there is none. -/
structure XMLString where
  transcode : String → List UInt8
  parseInt : String → Option Int

/-- What `startElement` throws. -/
inductive Thrown where
  | exception (e : Exception)
  | numberFormatException
deriving DecidableEq, Repr

structure SocketQuerySAX2Handler where
  /-- `none` is a number that is no constant. -/
  queryType : Member (Option QueryType)
  queryOptions : Member (Option QueryOptions)
  workflowId : Member Int
  taskPid : Member Int
  /-- `none` is the null pointer. -/
  workflowName : Option (List UInt8)
  workflowHost : Option (List UInt8)
  workflowUser : Option (List UInt8)
  ready : Bool
  level : Int
  params : List (List UInt8 × List UInt8)
deriving DecidableEq, Repr

/-- What is in the memory of the members that the constructor does not initialise. -/
structure Memory where
  queryType : Option QueryType
  queryOptions : Option QueryOptions
  workflowId : Int
  taskPid : Int

/-! ## Characters -/

/-- The bytes of a literal. -/
def ascii (s : String) : List UInt8 := s.toList.map fun c ↦ c.toNat.toUInt8

/-- A `char`, which is signed. -/
def charValue (b : UInt8) : Int := if b.toNat < 128 then b.toNat else b.toNat - 256

/-- The `XMLCh` units of a string, with the null that ends it. -/
def codeUnits (s : String) : List Int :=
  (s.toList.flatMap fun c ↦
    let n : Int := c.toNat
    if n < 0x10000 then [n] else [0xD800 + (n - 0x10000) / 0x400, 0xDC00 + (n - 0x10000) % 0x400]) ++ [0]

/-- `isalnum` in the C locale.  Its argument has to be an unsigned `char` or `EOF`. -/
def isalnum (c : Int) : Option Bool :=
  if -1 ≤ c ∧ c ≤ 255 then
    some (decide (48 ≤ c ∧ c ≤ 57 ∨ 65 ≤ c ∧ c ≤ 90 ∨ 97 ≤ c ∧ c ≤ 122))
  else none

/-- The loops over a name: whether they come to its end.  `none` is undefined behaviour. -/
def checkName : List Int → Option Bool
  | [] => some true
  | c :: name =>
      match isalnum c with
      | none => none
      | some alnum => if !alnum && c != 95 then some false else checkName name

namespace SocketQuerySAX2Handler

/-- The constructor. -/
def create (memory : Memory) : SocketQuerySAX2Handler where
  queryType := ⟨memory.queryType, false⟩
  queryOptions := ⟨memory.queryOptions, false⟩
  workflowId := ⟨memory.workflowId, false⟩
  taskPid := ⟨memory.taskPid, false⟩
  workflowName := none
  workflowHost := none
  workflowUser := none
  ready := false
  level := 0
  params := []

def exception (error : String) : Thrown := .exception ⟨"SocketQuerySAX2Handler", error⟩

/-! ## The root element -/

/-- The node `statistics`. -/
def statisticsType (attrs : Attributes) : Except Thrown QueryType :=
  match attrs.getValue "type" with
  | none => .error (exception "Missing type attribute on node statistics")
  | some type =>
      if type = "global" then
        match attrs.getValue "action" with
        | none => .ok .globalStats
        | some action =>
            if action = "query" then .ok .globalStats
            else if action = "reset" then .ok .resetGlobalStats
            else .error (exception "Unknown statistics action")
      else if type = "queue" then .ok .queueStats
      else .error (exception "Unknown statistics type")

/-- The node `status`, whose errors are those of `statistics`. -/
def statusType (attrs : Attributes) : Except Thrown QueryType :=
  match attrs.getValue "type" with
  | none => .error (exception "Missing type attribute on node statistics")
  | some type =>
      if type = "scheduler" then .ok .schedulerStatus
      else if type = "workflows" then .ok .workflowsStatus
      else .error (exception "Unknown statistics type")

/-- What `mode` makes of `query_options`: another mode leaves it as it is. -/
def modeOptions (attrs : Attributes) (queryOptions : Member (Option QueryOptions)) :
    Member (Option QueryOptions) :=
  match attrs.getValue "mode" with
  | none => .assign (some .modeAsynchronous)
  | some mode =>
      if mode = "asynchronous" then .assign (some .modeAsynchronous)
      else if mode = "synchronous" then .assign (some .modeSynchronous)
      else queryOptions

/-- The node `workflow` with a name. -/
def workflowByName (xml : XMLString) (attrs : Attributes) (name : String) (h : SocketQuerySAX2Handler) :
    Option (Except Thrown SocketQuerySAX2Handler) :=
  let workflowName := xml.transcode name
  match checkName (workflowName.map charValue) with
  | none => none
  | some false => some (.error (exception "Invalid workflow name"))
  | some true =>
      some (.ok { h with
        queryType := .assign (some .workflowLaunch)
        workflowName := some workflowName
        queryOptions := modeOptions attrs h.queryOptions
        workflowHost :=
          match attrs.getValue "host" with
          | none => h.workflowHost
          | some host => some (xml.transcode host)
        workflowUser :=
          match attrs.getValue "user" with
          | none => h.workflowUser
          | some user => some (xml.transcode user) })

/-- The node `workflow` with an id and no name: another action leaves `query_type` as it is. -/
def workflowById (xml : XMLString) (attrs : Attributes) (id : String) (h : SocketQuerySAX2Handler) :
    Except Thrown SocketQuerySAX2Handler :=
  match xml.parseInt id with
  | none => .error .numberFormatException
  | some workflowId =>
      let h := { h with workflowId := .assign workflowId }
      match attrs.getValue "action" with
      | none => .ok { h with queryType := .assign (some .workflowInfo) }
      | some action =>
          if action = "info" then .ok { h with queryType := .assign (some .workflowInfo) }
          else if action = "cancel" then .ok { h with queryType := .assign (some .workflowCancel) }
          else if action = "wait" then .ok { h with queryType := .assign (some .workflowWait) }
          else if action = "killtask" then
            let h := { h with queryType := .assign (some .workflowKillTask) }
            match attrs.getValue "pid" with
            | none => .error (exception "Action killtask requires a PID")
            | some pid =>
                match xml.parseInt pid with
                | none => .error .numberFormatException
                | some taskPid => .ok { h with taskPid := .assign taskPid }
          else .ok h

def assignType (h : SocketQuerySAX2Handler) :
    Except Thrown QueryType → Option (Except Thrown SocketQuerySAX2Handler)
  | .error e => some (.error e)
  | .ok type => some (.ok { h with queryType := .assign (some type) })

/-- The branch for `level==1`. -/
def rootElement (xml : XMLString) (localname : String) (attrs : Attributes)
    (h : SocketQuerySAX2Handler) : Option (Except Thrown SocketQuerySAX2Handler) :=
  let nodeName := xml.transcode localname
  if nodeName = ascii "ping" then h.assignType (.ok .ping)
  else if nodeName = ascii "statistics" then h.assignType (statisticsType attrs)
  else if nodeName = ascii "status" then h.assignType (statusType attrs)
  else if nodeName = ascii "workflow" then
    match attrs.getValue "name", attrs.getValue "id" with
    | some name, _ => h.workflowByName xml attrs name
    | none, some id => some (h.workflowById xml attrs id)
    | none, none => some (.error (exception "Missing name or id attribute on node workflow"))
  else some (.error (exception "Invalid root node name, expecting 'workflow' or 'statistics'"))

/-! ## The other elements -/

/-- The queries whose elements have no subnodes. -/
def strict : Option QueryType → Bool
  | some .workflowInfo => true
  | some .queueStats => true
  | some .globalStats => true
  | some .schedulerStatus => true
  | _ => false

/-- `PARAMETER_NAME_MAX_LEN`. -/
def parameterNameMaxLen : Nat := 64

/-- The node `parameter` of a launch.  The loop counts the bytes of the name and reads its units. -/
def parameterElement (xml : XMLString) (localname : String) (attrs : Attributes)
    (h : SocketQuerySAX2Handler) : Option (Except Thrown SocketQuerySAX2Handler) :=
  if xml.transcode localname ≠ ascii "parameter" then
    some (.error (exception "Expecting parameter node"))
  else
    match attrs.getValue "name", attrs.getValue "value" with
    | some name, some value =>
        let bytes := xml.transcode name
        if bytes.length > parameterNameMaxLen then
          some (.error (exception "Parameter name is too long"))
        else
          match checkName ((codeUnits name).take bytes.length) with
          | none => none
          | some false => some (.error (exception "Invalid parameter name"))
          | some true =>
              -- `WorkflowParameters::Add`
              if h.params.any fun p ↦ p.1 = bytes then
                some (.error (exception "Duplicate parameter name"))
              else some (.ok { h with params := (bytes, xml.transcode value) :: h.params })
    | _, _ => some (.error (exception "Invalue parameter node, missing name or value attributes"))

/-- The checks behind the branch for `level==1`, which read `query_type` as it is. -/
def subElement (xml : XMLString) (localname : String) (attrs : Attributes)
    (h : SocketQuerySAX2Handler) : Option (Except Thrown SocketQuerySAX2Handler) :=
  if strict h.queryType.value ∧ h.level ≥ 2 then some (.error (exception "Unexpected subnode"))
  else if h.queryType.value = some .workflowLaunch ∧ h.level = 2 then
    h.parameterElement xml localname attrs
  else if h.queryType.value = some .workflowLaunch ∧ h.level > 2 then
    some (.error (exception "parameter node does not accept subnodes"))
  else some (.ok h)

/-- `none` is undefined behaviour. -/
def startElement (xml : XMLString) (localname : String) (attrs : Attributes)
    (h : SocketQuerySAX2Handler) : Option (Except Thrown SocketQuerySAX2Handler) :=
  let h := { h with level := h.level + 1 }
  if h.level = 1 then
    match h.rootElement xml localname attrs with
    | some (.ok h) => h.subElement xml localname attrs
    | result => result
  else h.subElement xml localname attrs

/-- When it is ready it throws 0, to get out of the loop of `parseNext`. -/
def endElement (h : SocketQuerySAX2Handler) : SocketQuerySAX2Handler :=
  { h with level := h.level - 1, ready := h.ready || h.level - 1 == 0 }

end SocketQuerySAX2Handler

end EvQueue
