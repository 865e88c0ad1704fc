import EvQueue.Base.Files
import EvQueue.EngineMessages

/-!
# EngineLogs — the log files of the tasks

A task writes into `<tid>.log`, which `TaskExecute` opens in the child before the monitor is executed.
When the message of the monitor comes, the gatherer reads the file of its `tid` and hands the contents to
`TaskStop`.  Identifiers are used again, processes that a task leaves behind may go on writing, and with
`processmanager.logs.delete` the gatherer removes the file behind reading it.
-/

namespace EvQueue

open Cells Files Runs

/-- Where the gatherer stands with the log of the message it has received. -/
inductive Reading where
  | unread
  /-- Behind `ftell`. -/
  | opened (file size : Nat)
  /-- `output`; `none` when the file could not be opened. -/
  | read (output : Option (List UInt8))
  /-- Behind `unlink`. -/
  | released (output : Option (List UInt8))
deriving DecidableEq

/-- How an execution has ended: what its monitor sent, and what had been written by then. -/
structure Ended where
  retcode : Int
  written : List UInt8
deriving DecidableEq

/-- The host with the directory of the logs.  What belongs to an execution stands under the number of its
monitor. -/
structure LoggedHost (WI DOMNode : Type) where
  host : Host WI DOMNode
  files : Directory Nat
  /-- The standard output of an execution, which all its processes share. -/
  log : Nat → Option Descriptor
  reading : Reading
  /-- What the processes of an execution have written; for the statements only. -/
  written : Nat → List UInt8
  /-- For the statements only. -/
  ended : Nat → Option Ended
  /-- The output that each call of `TaskStop` was made with. -/
  outputs : List (Option (List UInt8))

inductive LogAction (WI DOMNode : Type) where
  | host (action : HostAction WI DOMNode)
  /-- `open` in the child, before the monitor is executed. -/
  | openLog (monitor : Monitor)
  | write (execution : Nat) (bytes : List UInt8)
  /-- `fopen` and `ftell` of the gatherer. -/
  | fopen
  | fread
  | unlink

/-- The log as a string of C. -/
def cut (log : List UInt8) : List UInt8 := log.takeWhile fun b ↦ b ≠ 0

namespace LoggedHost

variable {WI DOMNode : Type} [DecidableEq WI] [DecidableEq DOMNode]

def step (A : Allocator (Task WI DOMNode)) (getInstanceID : WI → UInt32) (logsDelete : Bool)
    (h : LoggedHost WI DOMNode) : LogAction WI DOMNode → Option (LoggedHost WI DOMNode)
  | .host (.exit monitor status) =>
      -- the monitor is executed behind `open`
      if (h.log monitor.number).isSome then
        (h.host.step A getInstanceID (.exit monitor status)).map fun host ↦
          { h with
            host
            ended := Function.update h.ended monitor.number
              (some ⟨retcodeOf status, h.written monitor.number⟩) }
      else none
  | .host .receive =>
      (h.host.step A getInstanceID .receive).map fun host ↦
        { h with
          host
          reading := .unread }
  | .host (.terminateTask readable) =>
      match h.reading with
      | .released output =>
          if readable = output.isSome then
            (h.host.step A getInstanceID (.terminateTask readable)).map fun host ↦ { h with host }
          else none
      | _ => none
  | .host .taskStop =>
      match h.reading with
      | .released output =>
          (h.host.step A getInstanceID .taskStop).map fun host ↦
            { h with
              host
              outputs := h.outputs ++ [output.map cut] }
      | _ => none
  | .host action => (h.host.step A getInstanceID action).map fun host ↦ { h with host }
  | .openLog monitor =>
      if monitor ∈ h.host.monitors ∧ h.log monitor.number = none then
        some { h with
          files := (h.files.openTruncated monitor.tid).2
          log := Function.update h.log monitor.number
            (some ⟨(h.files.openTruncated monitor.tid).1, 0⟩) }
      else none
  | .write execution bytes =>
      (h.log execution).map fun descriptor ↦
        { h with
          files := h.files.write descriptor bytes
          log := Function.update h.log execution
            (some ⟨descriptor.file, descriptor.offset + bytes.length⟩)
          written := Function.update h.written execution (h.written execution ++ bytes) }
  | .fopen =>
      match h.host.gatherer, h.reading with
      | .received message, .unread =>
          some { h with
            reading :=
              match h.files.file message.sender.tid with
              | none => .read none
              | some file => .opened file (h.files.contents file).length }
      | _, _ => none
  | .fread =>
      match h.host.gatherer, h.reading with
      | .received _, .opened file size =>
          some { h with reading := .read (some ((h.files.contents file).take size)) }
      | _, _ => none
  | .unlink =>
      match h.host.gatherer, h.reading with
      | .received message, .read output =>
          some { h with
            files := if logsDelete then h.files.unlink message.sender.tid else h.files
            reading := .released output }
      | _, _ => none

def empty (pool : QueuePool WI DOMNode) : LoggedHost WI DOMNode where
  host := Host.empty pool
  files := Directory.empty
  log := fun _ ↦ none
  reading := .unread
  written := fun _ ↦ []
  ended := fun _ ↦ none
  outputs := []

/-- The monitors whose log the gatherer has still to read. -/
def writers (h : LoggedHost WI DOMNode) : List Monitor :=
  h.host.monitors ++ h.host.messages.map ExitMessage.sender ++
    match h.host.gatherer, h.reading with
    | .received _, .released _ => []
    | .received message, _ => [message.sender]
    | _, _ => []

/-- The gatherer has a message whose log it has not done with. -/
def isReading (h : LoggedHost WI DOMNode) : Bool :=
  match h.host.gatherer, h.reading with
  | .received _, .released _ => false
  | .received _, _ => true
  | _, _ => false

/-- The condition on a step, in the state before it.  Where the logs are kept, nothing is written to a log
that was read.  Where they are deleted, no monitor is lost that has opened its log, and the engine does not end
between the message and the deletion of the log. -/
def Guarded (logsDelete : Bool) (h : LoggedHost WI DOMNode) : LogAction WI DOMNode → Prop
  | .host (.lose monitor) => logsDelete = true → h.log monitor.number = none
  | .host (.restart ..) => logsDelete = true → h.isReading = false
  | .host action => h.host.Guarded action
  | .write execution _ => logsDelete = true ∨ ∃ m ∈ h.writers, m.number = execution
  | _ => True

end LoggedHost

/-! ## The steps of the host that the logs do not notice -/

namespace Host

variable {WI DOMNode : Type} {h h' : Host WI DOMNode}

/-- The monitors, their messages and the gatherer are as before. -/
structure Quiet (h h' : Host WI DOMNode) : Prop where
  monitors : h'.monitors = h.monitors
  messages : h'.messages = h.messages
  gatherer : h'.gatherer = h.gatherer
  stops : h'.stops = h.stops
  forks : h'.forks = h.forks

theorem Quiet.senders (hquiet : Quiet h h') : h'.senders = h.senders := by
  unfold Host.senders
  rw [hquiet.monitors, hquiet.messages, hquiet.gatherer]

/-- The gatherer has got rid of its message. -/
theorem count_senders_of_taken (hmonitors : h'.monitors = h.monitors) (hmessages : h'.messages = h.messages)
    (htaken : ∀ message, h'.gatherer ≠ .received message) (m : Monitor) :
    h'.senders.count m ≤ h.senders.count m := by
  have hsenders : h'.senders = h.monitors ++ h.messages.map ExitMessage.sender := by
    unfold Host.senders
    cases hgatherer : h'.gatherer with
    | received message => exact absurd hgatherer (htaken message)
    | _ => rw [hmonitors, hmessages, List.append_nil]
  rw [hsenders]
  exact (List.sublist_append_left _ _).count_le m

/-- A monitor that was not there before. -/
structure Forked (h h' : Host WI DOMNode) (m : Monitor) : Prop where
  monitors : h'.monitors = m :: h.monitors
  messages : h'.messages = h.messages
  gatherer : h'.gatherer = h.gatherer
  stops : h'.stops = h.stops
  forks : h'.forks = h.forks + 1
  number : m.number = h.forks
  tid : ∃ i t, h.engine.forker = .registered i t m.tid

theorem Forked.senders {m : Monitor} (hforked : Forked h h' m) : h'.senders = m :: h.senders := by
  unfold Host.senders
  rw [hforked.monitors, hforked.messages, hforked.gatherer]
  rfl

variable [DecidableEq WI] [DecidableEq DOMNode]
variable {A : Allocator (Task WI DOMNode)} {getInstanceID : WI → UInt32}

theorem taskExecute_cases {known : Bool} {fork : Option Nat}
    (hstep : h.taskExecute A getInstanceID known fork = some h') :
    Quiet h h' ∨ ∃ m, Forked h h' m := by
  unfold taskExecute at hstep
  cases hforker : h.engine.forker with
  | registered i t tid =>
    rw [hforker] at hstep
    dsimp only at hstep
    split at hstep
    · rcases Option.map_eq_some_iff.mp hstep with ⟨engine, -, heq⟩
      cases hresult : taskExecuteResult
        (h.engine.isCancelling (getInstanceID t.workflowInstance)) known fork with
      | none =>
        rw [hresult] at heq
        rw [← heq]
        exact .inl ⟨rfl, rfl, rfl, rfl, rfl⟩
      | some pid =>
        rw [hresult] at heq
        rw [← heq]
        exact .inr ⟨⟨pid, tid, h.forks⟩, rfl, rfl, rfl, rfl, rfl, rfl, i, t, hforker⟩
    · cases hstep
  | _ =>
    rw [hforker] at hstep
    cases hstep

theorem engine_cases {a : EngineAction WI DOMNode} (hstep : h.step A getInstanceID (.engine a) = some h') :
    Quiet h h' ∨ ∃ m, Forked h h' m := by
  have hquiet {engine : Engine WI DOMNode} (heq : { h with engine } = h') : Quiet h h' := by
    rw [← heq]
    exact ⟨rfl, rfl, rfl, rfl, rfl⟩
  have hstarted (hcall : (if h.started = true then (h.engine.step A getInstanceID a).map fun engine ↦
      { h with engine } else none) = some h') : Quiet h h' := by
    split at hcall
    · rcases Option.map_eq_some_iff.mp hcall with ⟨engine, -, heq⟩
      exact hquiet heq
    · cases hcall
  cases a with
  | gather pid tid => cases hstep
  | taskExecute known fork => exact taskExecute_cases hstep
  | enqueueTask queueName wi task =>
    rcases Option.map_eq_some_iff.mp hstep with ⟨engine, -, heq⟩
    exact .inl (hquiet heq)
  | _ => exact .inl (hstarted hstep)

theorem resume_quiet {wi : WI} {task : DOMNode} {queueName : String}
    (hstep : h.step A getInstanceID (.resume wi task queueName) = some h') : Quiet h h' := by
  unfold step at hstep
  dsimp only at hstep
  split at hstep
  · rw [← Option.some.inj hstep]
    exact ⟨rfl, rfl, rfl, rfl, rfl⟩
  · cases hstep

end Host

/-! ## What is kept -/

namespace LoggedHost

variable {WI DOMNode : Type}

/-- `sender` has ended with `retval`, and `log` was read: all that was written when it ended, and no more
than its processes have written since. -/
def Returns (h : LoggedHost WI DOMNode) (sender : Monitor) (retval : Int) (log : List UInt8) : Prop :=
  ∃ e, h.ended sender.number = some e ∧ retval = e.retcode ∧ e.written <+: log ∧
    log <+: h.written sender.number

/-- What `TaskStop` was called with. -/
def Reported (h : LoggedHost WI DOMNode) (s : Stop WI DOMNode) (output : Option (List UInt8)) : Prop :=
  ∃ log, output = some (cut log) ∧ h.Returns s.sender s.retval log

def Sent (h : LoggedHost WI DOMNode) (message : ExitMessage) : Prop :=
  ∃ e, h.ended message.sender.number = some e ∧ message.retcode = e.retcode

/-- How far the gatherer has come with the log of a message. -/
def Reads (h : LoggedHost WI DOMNode) (message : ExitMessage) : Prop :=
  match h.reading with
  | .unread => True
  | .opened file size => ∃ d e, h.log message.sender.number = some d ∧ d.file = file ∧
      h.ended message.sender.number = some e ∧ e.written.length ≤ size ∧
      size ≤ (h.written message.sender.number).length
  | .read output | .released output => ∃ log, output = some log ∧
      h.Returns message.sender message.retcode log

structure Kept (logsDelete : Bool) (h : LoggedHost WI DOMNode) : Prop where
  sound : h.host.Sound
  nodup : h.host.senders.Nodup
  distinct : ∀ m ∈ h.host.senders, ∀ m' ∈ h.host.senders, m.tid = m'.tid ∨ m.number = m'.number → m = m'
  forks : ∀ m ∈ h.host.senders, m.number < h.host.forks
  opened : ∀ n d, h.log n = some d → n < h.host.forks ∧ d.file < h.files.count
  unopened : ∀ n, h.log n = none → h.written n = [] ∧ h.ended n = none
  running : ∀ m ∈ h.host.monitors, h.ended m.number = none
  ends : ∀ n e, h.ended n = some e → e.written <+: h.written n
  /-- A log that was not read yet is under its identifier, and holds what was written. -/
  logs : ∀ m ∈ h.writers, ∀ d, h.log m.number = some d → h.files.file m.tid = some d.file ∧
    h.files.contents d.file = h.written m.number ∧ d.offset = (h.written m.number).length
  /-- Where the logs are deleted, every execution has a file of its own. -/
  own : logsDelete = true → ∀ n n' d d', h.log n = some d → h.log n' = some d' → d.file = d'.file → n = n'
  named : logsDelete = true → ∀ tid f, h.files.file tid = some f →
    ∃ m ∈ h.writers, m.tid = tid ∧ (h.log m.number).isSome
  messages : ∀ message ∈ h.host.messages, h.Sent message
  gatherer : ∀ message, h.host.gatherer = .received message → h.Sent message ∧ h.Reads message
  stopping : ∀ wi task sender retval, h.host.gatherer = .stopping wi task sender retval →
    ∃ log, h.reading = .released (some log) ∧ h.Returns sender retval log
  outputs : List.Forall₂ h.Reported h.host.stops h.outputs

variable {logsDelete : Bool} {h h' : LoggedHost WI DOMNode}

theorem mem_writers {m : Monitor} : m ∈ h.writers ↔ m ∈ h.host.monitors ∨
    (∃ message ∈ h.host.messages, message.sender = m) ∨
    ∃ message, h.host.gatherer = .received message ∧ (∀ output, h.reading ≠ .released output) ∧
      message.sender = m := by
  unfold writers
  rw [List.mem_append, List.mem_append, List.mem_map, or_assoc]
  cases h.host.gatherer with
  | idle => simp
  | received message => cases h.reading <;> simp [eq_comm]
  | stopping wi task sender retval => simp

theorem mem_senders_of_writers {m : Monitor} (hm : m ∈ h.writers) : m ∈ h.host.senders := by
  rw [mem_writers] at hm
  rw [Host.mem_senders]
  rcases hm with hm | hm | ⟨message, hgatherer, -, hsender⟩
  · exact .inl hm
  · exact .inr (.inl hm)
  · exact .inr (.inr ⟨message, hgatherer, hsender⟩)

/-- More was written, and more executions have ended. -/
structure Later (h h' : LoggedHost WI DOMNode) : Prop where
  ended : ∀ n e, h.ended n = some e → h'.ended n = some e
  written : ∀ n, h.written n <+: h'.written n

theorem Returns.later {sender : Monitor} {retval : Int} {log : List UInt8} (hlater : Later h h')
    (hreturns : h.Returns sender retval log) : h'.Returns sender retval log := by
  rcases hreturns with ⟨e, hended, hretval, hall, hlog⟩
  exact ⟨e, hlater.ended _ e hended, hretval, hall, hlog.trans (hlater.written _)⟩

theorem Sent.later {message : ExitMessage} (hlater : Later h h') (hsent : h.Sent message) :
    h'.Sent message := by
  rcases hsent with ⟨e, hended, hretcode⟩
  exact ⟨e, hlater.ended _ e hended, hretcode⟩

theorem Reported.later {s : Stop WI DOMNode} {output : Option (List UInt8)} (hlater : Later h h')
    (hreported : h.Reported s output) : h'.Reported s output := by
  rcases hreported with ⟨log, houtput, hreturns⟩
  exact ⟨log, houtput, hreturns.later hlater⟩

/-- The gatherer stays where it is. -/
theorem Reads.later {message : ExitMessage} (hlater : Later h h') (hreading : h'.reading = h.reading)
    (hlog : ∀ n d, h.log n = some d → ∃ d', h'.log n = some d' ∧ d'.file = d.file)
    (hreads : h.Reads message) : h'.Reads message := by
  unfold Reads at hreads ⊢
  rw [hreading]
  cases hread : h.reading with
  | unread => trivial
  | opened file size =>
    rw [hread] at hreads
    rcases hreads with ⟨d, e, hd, hfile, hended, hle, hsize⟩
    rcases hlog _ d hd with ⟨d', hd', hsame⟩
    exact ⟨d', e, hd', hsame.trans hfile, hlater.ended _ e hended, hle,
      Nat.le_trans hsize (hlater.written _).length_le⟩
  | read output =>
    rw [hread] at hreads
    rcases hreads with ⟨log, houtput, hreturns⟩
    exact ⟨log, houtput, hreturns.later hlater⟩
  | released output =>
    rw [hread] at hreads
    rcases hreads with ⟨log, houtput, hreturns⟩
    exact ⟨log, houtput, hreturns.later hlater⟩

/-- A step that leaves the logs alone: monitors and messages may go or be passed on. -/
theorem Kept.update (hkept : h.Kept logsDelete) (hsound : h'.host.Sound) (hfiles : h'.files = h.files)
    (hlog : h'.log = h.log) (hwritten : h'.written = h.written)
    (hnew : ∀ n e, h'.ended n = some e → (h.log n).isSome ∧ e.written <+: h.written n)
    (hrunning : ∀ m ∈ h'.host.monitors, h'.ended m.number = none)
    (hcount : ∀ m, h'.host.senders.count m ≤ h.host.senders.count m)
    (hforks : h'.host.forks = h.host.forks) (hwriters : ∀ m ∈ h'.writers, m ∈ h.writers)
    (hnamed : logsDelete = true → ∀ m ∈ h.writers, (h.log m.number).isSome → m ∈ h'.writers)
    (hmessages : ∀ message ∈ h'.host.messages, h'.Sent message)
    (hgatherer : ∀ message, h'.host.gatherer = .received message → h'.Sent message ∧ h'.Reads message)
    (hstopping : ∀ wi task sender retval, h'.host.gatherer = .stopping wi task sender retval →
      ∃ log, h'.reading = .released (some log) ∧ h'.Returns sender retval log)
    (houtputs : List.Forall₂ h'.Reported h'.host.stops h'.outputs) : h'.Kept logsDelete := by
  -- no sender is new, since none is counted more often
  have hsenders : ∀ m ∈ h'.host.senders, m ∈ h.host.senders := by
    intro m hm
    have hpos := List.count_pos_iff.mpr hm
    have hle := hcount m
    exact List.count_pos_iff.mp (by omega)
  constructor
  case sound => exact hsound
  case nodup =>
    rw [List.nodup_iff_count_le_one]
    intro m
    exact Nat.le_trans (hcount m) (List.nodup_iff_count_le_one.mp hkept.nodup m)
  case distinct => exact fun m hm m' hm' ↦ hkept.distinct m (hsenders m hm) m' (hsenders m' hm')
  case forks =>
    intro m hm
    rw [hforks]
    exact hkept.forks m (hsenders m hm)
  case opened =>
    rw [hlog, hforks, hfiles]
    exact hkept.opened
  case unopened =>
    intro n hnone
    rw [hlog] at hnone
    rw [hwritten]
    refine ⟨(hkept.unopened n hnone).1, ?_⟩
    cases hend : h'.ended n with
    | none => rfl
    | some e =>
      have hsome := (hnew n e hend).1
      rw [hnone] at hsome
      cases hsome
  case running => exact hrunning
  case ends =>
    intro n e hend
    rw [hwritten]
    exact (hnew n e hend).2
  case logs =>
    rw [hlog, hfiles, hwritten]
    exact fun m hm ↦ hkept.logs m (hwriters m hm)
  case own =>
    rw [hlog]
    exact hkept.own
  case named =>
    intro hdelete tid f hfile
    rw [hfiles] at hfile
    rw [hlog]
    rcases hkept.named hdelete tid f hfile with ⟨m, hm, htid, hopen⟩
    exact ⟨m, hnamed hdelete m hm hopen, htid, hopen⟩
  case messages => exact hmessages
  case gatherer => exact hgatherer
  case stopping => exact hstopping
  case outputs => exact houtputs

theorem Kept.ended_some {n : Nat} {e : Ended} (hkept : h.Kept logsDelete) (hend : h.ended n = some e) :
    (h.log n).isSome ∧ e.written <+: h.written n := by
  refine ⟨?_, hkept.ends n e hend⟩
  rw [Option.isSome_iff_ne_none]
  intro hnone
  rw [(hkept.unopened n hnone).2] at hend
  cases hend

/-! ## The steps -/

variable {host : Host WI DOMNode}

theorem Kept.quiet (hkept : h.Kept logsDelete) (hsound : host.Sound) (hquiet : Host.Quiet h.host host) :
    Kept logsDelete { h with host } := by
  have hwriters : writers { h with host } = h.writers := by
    unfold writers
    rw [hquiet.monitors, hquiet.messages, hquiet.gatherer]
  apply hkept.update
  case hsound => exact hsound
  case hfiles => rfl
  case hlog => rfl
  case hwritten => rfl
  case hnew => exact fun _ _ hend ↦ hkept.ended_some hend
  case hrunning =>
    rw [hquiet.monitors]
    exact hkept.running
  case hcount => exact fun m ↦ Nat.le_of_eq (congrArg (List.count m) hquiet.senders)
  case hforks => exact hquiet.forks
  case hwriters =>
    rw [hwriters]
    exact fun _ hm ↦ hm
  case hnamed =>
    rw [hwriters]
    exact fun _ _ hm _ ↦ hm
  case hmessages =>
    rw [hquiet.messages]
    exact hkept.messages
  case hgatherer =>
    rw [hquiet.gatherer]
    exact hkept.gatherer
  case hstopping =>
    rw [hquiet.gatherer]
    exact hkept.stopping
  case houtputs =>
    rw [hquiet.stops]
    exact hkept.outputs

/-- `TaskExecute` has forked. -/
theorem Kept.forked {new : Monitor} (hkept : h.Kept logsDelete) (hsound : host.Sound)
    (hforked : Host.Forked h.host host new) : Kept logsDelete { h with host } := by
  have hnumber := hforked.number
  rcases hforked.tid with ⟨i, t, hregistered⟩
  have htid := (hkept.sound.routed.forker i t new.tid hregistered).1
  -- logs are numbered by the forks there were, and this one is new
  have hfresh : h.log new.number = none := by
    cases hlog : h.log new.number with
    | none => rfl
    | some d =>
      have hlt := (hkept.opened _ d hlog).1
      omega
  have hnot : new ∉ h.host.senders := fun hin ↦ htid new hin rfl
  have hwriters : writers { h with host } = new :: h.writers := by
    unfold writers
    rw [hforked.monitors, hforked.messages, hforked.gatherer]
    rfl
  constructor
  case sound => exact hsound
  case nodup =>
    rw [hforked.senders]
    exact List.nodup_cons.mpr ⟨hnot, hkept.nodup⟩
  case distinct =>
    -- the identifier is free of other monitors: that is what the condition asks
    have hother {m : Monitor} (hm : m ∈ h.host.senders) : new.tid ≠ m.tid ∧ new.number ≠ m.number := by
      have hlt := hkept.forks m hm
      exact ⟨(htid m hm).symm, by omega⟩
    rw [hforked.senders]
    intro m hm m' hm' hsame
    rcases List.mem_cons.mp hm with heq | hm
    · rcases List.mem_cons.mp hm' with heq' | hm'
      · rw [heq, heq']
      · rw [heq] at hsame
        exact (hsame.elim (hother hm').1 (hother hm').2).elim
    · rcases List.mem_cons.mp hm' with heq' | hm'
      · rw [heq'] at hsame
        exact (hsame.elim (fun h ↦ (hother hm).1 h.symm) fun h ↦ (hother hm).2 h.symm).elim
      · exact hkept.distinct m hm m' hm' hsame
  case forks =>
    rw [hforked.senders, hforked.forks]
    intro m hm
    rcases List.mem_cons.mp hm with heq | hm
    · rw [heq]
      omega
    · exact Nat.lt_succ_of_lt (hkept.forks m hm)
  case opened =>
    rw [hforked.forks]
    exact fun n d hd ↦ ⟨Nat.lt_succ_of_lt (hkept.opened n d hd).1, (hkept.opened n d hd).2⟩
  case unopened => exact hkept.unopened
  case running =>
    rw [hforked.monitors]
    intro m hm
    rcases List.mem_cons.mp hm with heq | hm
    · rw [heq]
      exact (hkept.unopened _ hfresh).2
    · exact hkept.running m hm
  case ends => exact hkept.ends
  case logs =>
    rw [hwriters]
    intro m hm d hd
    rcases List.mem_cons.mp hm with heq | hm
    · rw [heq] at hd
      cases hfresh.symm.trans hd
    · exact hkept.logs m hm d hd
  case own => exact hkept.own
  case named =>
    rw [hwriters]
    intro hdelete tid f hfile
    rcases hkept.named hdelete tid f hfile with ⟨m, hm, hrest⟩
    exact ⟨m, List.mem_cons_of_mem _ hm, hrest⟩
  case messages =>
    rw [hforked.messages]
    exact hkept.messages
  case gatherer =>
    rw [hforked.gatherer]
    exact hkept.gatherer
  case stopping =>
    rw [hforked.gatherer]
    exact hkept.stopping
  case outputs =>
    rw [hforked.stops]
    exact hkept.outputs

/-- A step in the logs: the host does not notice it. -/
theorem Kept.relog (hkept : h.Kept logsDelete) (hhost : h'.host = h.host) (hended : h'.ended = h.ended)
    (houtputs : h'.outputs = h.outputs) (hlater : Later h h')
    (hopened : ∀ n d, h'.log n = some d → n < h.host.forks ∧ d.file < h'.files.count)
    (hunopened : ∀ n, h'.log n = none → h'.written n = [] ∧ h.ended n = none)
    (hlogs : ∀ m ∈ h'.writers, ∀ d, h'.log m.number = some d → h'.files.file m.tid = some d.file ∧
      h'.files.contents d.file = h'.written m.number ∧ d.offset = (h'.written m.number).length)
    (hown : logsDelete = true → ∀ n n' d d', h'.log n = some d → h'.log n' = some d' →
      d.file = d'.file → n = n')
    (hnamed : logsDelete = true → ∀ tid f, h'.files.file tid = some f →
      ∃ m ∈ h'.writers, m.tid = tid ∧ (h'.log m.number).isSome)
    (hreads : ∀ message, h.host.gatherer = .received message → h'.Reads message)
    (hreading : ∀ wi task sender retval, h.host.gatherer = .stopping wi task sender retval →
      h'.reading = h.reading) : h'.Kept logsDelete := by
  constructor
  case sound => exact hhost ▸ hkept.sound
  case nodup => exact hhost ▸ hkept.nodup
  case distinct => exact hhost ▸ hkept.distinct
  case forks => exact hhost ▸ hkept.forks
  case opened => exact hhost ▸ hopened
  case unopened => exact hended ▸ hunopened
  case running =>
    rw [hhost, hended]
    exact hkept.running
  case ends =>
    rw [hended]
    exact fun n e hend ↦ (hkept.ends n e hend).trans (hlater.written n)
  case logs => exact hlogs
  case own => exact hown
  case named => exact hnamed
  case messages =>
    rw [hhost]
    exact fun message hin ↦ (hkept.messages message hin).later hlater
  case gatherer =>
    rw [hhost]
    exact fun message hreceived ↦
      ⟨(hkept.gatherer message hreceived).1.later hlater, hreads message hreceived⟩
  case stopping =>
    rw [hhost]
    intro wi task sender retval hstopping
    rcases hkept.stopping wi task sender retval hstopping with ⟨log, hread, hreturns⟩
    exact ⟨log, (hreading wi task sender retval hstopping).trans hread, hreturns.later hlater⟩
  case outputs =>
    rw [hhost, houtputs]
    exact hkept.outputs.imp fun _ _ hreported ↦ hreported.later hlater

theorem Kept.eq_of_tid {m m' : Monitor} (hkept : h.Kept logsDelete) (hm : m ∈ h.writers)
    (hm' : m' ∈ h.host.senders) (htid : m.tid = m'.tid) : m = m' :=
  hkept.distinct m (mem_senders_of_writers hm) m' hm' (.inl htid)

theorem Kept.eq_of_number {m m' : Monitor} (hkept : h.Kept logsDelete) (hm : m ∈ h.writers)
    (hm' : m' ∈ h.host.senders) (hnumber : m.number = m'.number) : m = m' :=
  hkept.distinct m (mem_senders_of_writers hm) m' hm' (.inr hnumber)

section Files

variable {m : Monitor} {f : Nat} {files : Directory Nat}

/-- The log of `m` is in the file `f`, which is empty. -/
def openedLog (h : LoggedHost WI DOMNode) (m : Monitor) (f : Nat) : Nat → Option Descriptor :=
  Function.update h.log m.number (some ⟨f, 0⟩)

@[simp] theorem openedLog_self : h.openedLog m f m.number = some ⟨f, 0⟩ := Function.update_self ..

theorem openedLog_of_ne {n : Nat} (hne : n ≠ m.number) : h.openedLog m f n = h.log n :=
  Function.update_of_ne hne ..

theorem Kept.openLog_opened (hkept : h.Kept logsDelete) (hsender : m ∈ h.host.senders)
    (hopened : h.files.Opened m.tid f files) : ∀ n d, h.openedLog m f n = some d →
      n < h.host.forks ∧ d.file < files.count := by
  have hcount := hopened.count
  intro n d hd
  by_cases hn : n = m.number
  · rw [hn, openedLog_self, Option.some.injEq] at hd
    rw [hn, ← hd]
    exact ⟨hkept.forks m hsender, files.bound _ _ hopened.file⟩
  · rw [openedLog_of_ne hn] at hd
    have hold := hkept.opened n d hd
    omega

/-- Another execution may have had the file before, but none whose log is still to be read. -/
theorem Kept.openLog_logs (hkept : h.Kept logsDelete) (hsender : m ∈ h.host.senders)
    (hnone : h.log m.number = none) (hopened : h.files.Opened m.tid f files) :
    ∀ x ∈ h.writers, ∀ d, h.openedLog m f x.number = some d → files.file x.tid = some d.file ∧
      files.contents d.file = h.written x.number ∧ d.offset = (h.written x.number).length := by
  intro x hx d hd
  by_cases heq : x = m
  · rw [heq, openedLog_self, Option.some.injEq] at hd
    rw [heq, ← hd, (hkept.unopened _ hnone).1]
    exact ⟨hopened.file, hopened.contents, rfl⟩
  · have htid : x.tid ≠ m.tid := fun htid ↦ heq (hkept.eq_of_tid hx hsender htid)
    have hnumber : x.number ≠ m.number := fun hnumber ↦ heq (hkept.eq_of_number hx hsender hnumber)
    rw [openedLog_of_ne hnumber] at hd
    rcases hkept.logs x hx d hd with ⟨hfile, hcontents, hoffset⟩
    have hne : d.file ≠ f := by
      intro hsame
      rcases hopened.old with hold | hold
      · rw [hsame] at hfile
        exact htid (h.files.single _ _ f hfile hold)
      · have hlt := h.files.bound _ _ hfile
        omega
    rw [hopened.others _ htid, hopened.keeps _ hne]
    exact ⟨hfile, hcontents, hoffset⟩

/-- Where the logs are deleted no file has the name of a log that is not open. -/
theorem Kept.openLog_new (hkept : h.Kept logsDelete) (hsender : m ∈ h.host.senders)
    (hnone : h.log m.number = none) (hopened : h.files.Opened m.tid f files)
    (hdelete : logsDelete = true) : f = h.files.count := by
  rcases hopened.old with hold | hold
  · rcases hkept.named hdelete m.tid f hold with ⟨x, hx, htid, hopen⟩
    rw [hkept.eq_of_tid hx hsender htid, hnone] at hopen
    cases hopen
  · exact hold.2

theorem Kept.openLog_own (hkept : h.Kept logsDelete) (hdelete : logsDelete = true)
    (hnew : f = h.files.count) : ∀ n n' d d', h.openedLog m f n = some d →
      h.openedLog m f n' = some d' → d.file = d'.file → n = n' := by
  -- the file of another execution is an older one
  have hold {n : Nat} {d : Descriptor} (hn : n ≠ m.number) (hd : h.openedLog m f n = some d) :
      d.file < f := by
    rw [openedLog_of_ne hn] at hd
    rw [hnew]
    exact (hkept.opened n d hd).2
  have hself {d : Descriptor} (hd : h.openedLog m f m.number = some d) : d.file = f := by
    rw [openedLog_self, Option.some.injEq] at hd
    rw [← hd]
  intro n n' d d' hd hd' hsame
  by_cases hn : n = m.number <;> by_cases hn' : n' = m.number
  · rw [hn, hn']
  · have hlt := hold hn' hd'
    have heq := hself (hn ▸ hd)
    omega
  · have hlt := hold hn hd
    have heq := hself (hn' ▸ hd')
    omega
  · rw [openedLog_of_ne hn] at hd
    rw [openedLog_of_ne hn'] at hd'
    exact hkept.own hdelete n n' d d' hd hd' hsame

theorem Kept.openLog_named (hkept : h.Kept logsDelete) (hwriter : m ∈ h.writers)
    (hopened : h.files.Opened m.tid f files) (hdelete : logsDelete = true) :
    ∀ tid g, files.file tid = some g →
      ∃ x ∈ h.writers, x.tid = tid ∧ (h.openedLog m f x.number).isSome := by
  intro tid g hfile
  by_cases htid : tid = m.tid
  · refine ⟨m, hwriter, htid.symm, ?_⟩
    rw [openedLog_self]
    rfl
  · rw [hopened.others _ htid] at hfile
    rcases hkept.named hdelete tid g hfile with ⟨x, hx, hxtid, hopen⟩
    refine ⟨x, hx, hxtid, ?_⟩
    by_cases hnumber : x.number = m.number
    · rw [hnumber, openedLog_self]
      rfl
    · rw [openedLog_of_ne hnumber]
      exact hopen

/-- The child opens its log. -/
theorem Kept.openLog (hkept : h.Kept logsDelete) (hm : m ∈ h.host.monitors)
    (hnone : h.log m.number = none) : Kept logsDelete { h with
      files := (h.files.openTruncated m.tid).2
      log := h.openedLog m (h.files.openTruncated m.tid).1 } := by
  have hopened := Directory.opened_openTruncated h.files m.tid
  generalize h.files.openTruncated m.tid = r at hopened ⊢
  rcases r with ⟨f, files⟩
  have hwriter : m ∈ h.writers := mem_writers.mpr (.inl hm)
  have hsender := mem_senders_of_writers hwriter
  have hlater : Later h { h with
      files
      log := h.openedLog m f } := ⟨fun _ _ hend ↦ hend, fun _ ↦ List.prefix_refl _⟩
  apply hkept.relog
  case hhost => rfl
  case hended => rfl
  case houtputs => rfl
  case hlater => exact hlater
  case hopened => exact hkept.openLog_opened hsender hopened
  case hunopened =>
    intro n hn
    by_cases heq : n = m.number
    · dsimp only at hn
      rw [heq, openedLog_self] at hn
      cases hn
    · exact hkept.unopened n ((openedLog_of_ne heq).symm.trans hn)
  case hlogs => exact hkept.openLog_logs hsender hnone hopened
  case hown =>
    exact fun hdelete ↦ hkept.openLog_own hdelete (hkept.openLog_new hsender hnone hopened hdelete)
  case hnamed => exact hkept.openLog_named hwriter hopened
  case hreads =>
    intro message hreceived
    apply (hkept.gatherer message hreceived).2.later hlater rfl
    intro n d hd
    have hn : n ≠ m.number := by
      intro heq
      rw [heq, hnone] at hd
      cases hd
    exact ⟨d, (openedLog_of_ne hn).trans hd, rfl⟩
  case hreading => exact fun _ _ _ _ _ ↦ rfl

/-- The log of `n` behind a write of `bytes` through `d`. -/
def wroteLog (h : LoggedHost WI DOMNode) (n : Nat) (d : Descriptor) (bytes : List UInt8) :
    Nat → Option Descriptor :=
  Function.update h.log n (some ⟨d.file, d.offset + bytes.length⟩)

/-- Each log stays in its file. -/
theorem wroteLog_some {n k : Nat} {d x : Descriptor} {bytes : List UInt8} (hd : h.log n = some d)
    (hx : h.wroteLog n d bytes k = some x) : ∃ y, h.log k = some y ∧ x.file = y.file := by
  unfold wroteLog at hx
  by_cases hk : k = n
  · rw [hk, Function.update_self, Option.some.injEq] at hx
    exact ⟨d, hk ▸ hd, (congrArg Descriptor.file hx).symm⟩
  · rw [Function.update_of_ne hk] at hx
    exact ⟨x, hx, rfl⟩

theorem some_wroteLog {n k : Nat} {d y : Descriptor} (bytes : List UInt8) (hd : h.log n = some d)
    (hy : h.log k = some y) : ∃ x, h.wroteLog n d bytes k = some x ∧ x.file = y.file := by
  unfold wroteLog
  by_cases hk : k = n
  · rw [hk, hd, Option.some.injEq] at hy
    rw [hk, Function.update_self]
    exact ⟨_, rfl, by rw [← hy]⟩
  · exact ⟨y, (Function.update_of_ne hk ..).trans hy, rfl⟩

/-- If the log of another execution is still to be read, it is another file. -/
theorem Kept.write_logs {n : Nat} {d : Descriptor} (hkept : h.Kept logsDelete)
    (hok : logsDelete = true ∨ ∃ m ∈ h.writers, m.number = n) (hd : h.log n = some d)
    (bytes : List UInt8) : ∀ m ∈ h.writers, ∀ x, h.wroteLog n d bytes m.number = some x →
      (h.files.write d bytes).file m.tid = some x.file ∧
      (h.files.write d bytes).contents x.file =
        Function.update h.written n (h.written n ++ bytes) m.number ∧
      x.offset = (Function.update h.written n (h.written n ++ bytes) m.number).length := by
  intro m hm x hx
  unfold wroteLog at hx
  by_cases hn : m.number = n
  · rw [← hn] at hd
    rcases hkept.logs m hm d hd with ⟨hfile, hcontents, hoffset⟩
    rw [← hn, Function.update_self, Option.some.injEq] at hx
    rw [← hn, Function.update_self, ← hx]
    refine ⟨hfile, ?_, ?_⟩
    · rw [Directory.contents_write_end (by rw [hoffset, hcontents]), hcontents]
    · rw [List.length_append, hoffset]
  · rw [Function.update_of_ne hn] at hx ⊢
    rcases hkept.logs m hm x hx with ⟨hfile, hcontents, hoffset⟩
    have hne : x.file ≠ d.file := by
      intro hsame
      rcases hok with hdelete | ⟨m', hm', hn'⟩
      · exact hn (hkept.own hdelete _ _ x d hx hd hsame)
      · -- two logs that are still to be read have different identifiers
        rw [← hn'] at hd
        have hfile' := (hkept.logs m' hm' d hd).1
        rw [hsame] at hfile
        have heq := hkept.eq_of_tid hm (mem_senders_of_writers hm') (h.files.single _ _ _ hfile hfile')
        exact hn ((congrArg Monitor.number heq).trans hn')
    rw [Directory.contents_write_of_ne hne]
    exact ⟨hfile, hcontents, hoffset⟩

/-- A process of an execution writes. -/
theorem Kept.write {n : Nat} {d : Descriptor} (hkept : h.Kept logsDelete)
    (hok : logsDelete = true ∨ ∃ m ∈ h.writers, m.number = n) (hd : h.log n = some d)
    (bytes : List UInt8) : Kept logsDelete { h with
      files := h.files.write d bytes
      log := h.wroteLog n d bytes
      written := Function.update h.written n (h.written n ++ bytes) } := by
  have hlater : Later h { h with
      files := h.files.write d bytes
      log := h.wroteLog n d bytes
      written := Function.update h.written n (h.written n ++ bytes) } := by
    refine ⟨fun _ _ hend ↦ hend, ?_⟩
    intro k
    dsimp only
    by_cases hk : k = n
    · rw [hk, Function.update_self]
      exact List.prefix_append _ _
    · exact (Function.update_of_ne hk ..).symm ▸ List.prefix_refl _
  apply hkept.relog
  case hhost => rfl
  case hended => rfl
  case houtputs => rfl
  case hlater => exact hlater
  case hopened =>
    intro k x hx
    rcases wroteLog_some hd hx with ⟨y, hy, hfile⟩
    rw [hfile]
    exact hkept.opened k y hy
  case hunopened =>
    intro k hk
    dsimp only at hk ⊢
    unfold wroteLog at hk
    by_cases heq : k = n
    · rw [heq, Function.update_self] at hk
      cases hk
    · rw [Function.update_of_ne heq] at hk ⊢
      exact hkept.unopened k hk
  case hlogs => exact hkept.write_logs hok hd bytes
  case hown =>
    intro hdelete k k' x x' hx hx' hsame
    rcases wroteLog_some hd hx with ⟨y, hy, hfile⟩
    rcases wroteLog_some hd hx' with ⟨y', hy', hfile'⟩
    exact hkept.own hdelete k k' y y' hy hy' (hfile.symm.trans (hsame.trans hfile'))
  case hnamed =>
    intro hdelete tid f hfile
    rcases hkept.named hdelete tid f hfile with ⟨m, hm, htid, hopen⟩
    rcases Option.isSome_iff_exists.mp hopen with ⟨y, hy⟩
    rcases some_wroteLog bytes hd hy with ⟨x, hx, -⟩
    exact ⟨m, hm, htid, Option.isSome_iff_exists.mpr ⟨x, hx⟩⟩
  case hreads =>
    exact fun message hreceived ↦ (hkept.gatherer message hreceived).2.later hlater rfl
      fun k y hy ↦ some_wroteLog bytes hd hy
  case hreading => exact fun _ _ _ _ _ ↦ rfl

end Files

/-- The gatherer goes on with the log of its message. -/
theorem Kept.reading {message : ExitMessage} {reading : Reading} (hkept : h.Kept logsDelete)
    (hreceived : h.host.gatherer = .received message) (hunread : ∀ output, h.reading ≠ .released output)
    (hnot : ∀ output, reading ≠ .released output) (hreads : Reads { h with reading } message) :
    Kept logsDelete { h with reading } := by
  have hwriters : ∀ m, m ∈ writers { h with reading } ↔ m ∈ h.writers := by
    intro m
    rw [mem_writers, mem_writers]
    simp [hreceived, hunread, hnot]
  apply hkept.update
  case hsound => exact hkept.sound
  case hfiles => rfl
  case hlog => rfl
  case hwritten => rfl
  case hnew => exact fun _ _ hend ↦ hkept.ended_some hend
  case hrunning => exact hkept.running
  case hcount => exact fun _ ↦ Nat.le_refl _
  case hforks => rfl
  case hwriters => exact fun m ↦ (hwriters m).mp
  case hnamed => exact fun _ m hm _ ↦ (hwriters m).mpr hm
  case hmessages => exact hkept.messages
  case hgatherer =>
    intro other hother
    dsimp only at hother
    rw [hreceived, Gatherer.received.injEq] at hother
    rw [← hother]
    exact ⟨(hkept.gatherer message hreceived).1, hreads⟩
  case hstopping =>
    intro wi task sender retval hstopping
    dsimp only at hstopping
    rw [hreceived] at hstopping
    cases hstopping
  case houtputs => exact hkept.outputs

/-- What is known of the log of the message that the gatherer has received. -/
theorem Kept.log_of_received {message : ExitMessage} (hkept : h.Kept logsDelete)
    (hreceived : h.host.gatherer = .received message) (hunread : ∀ output, h.reading ≠ .released output) :
    ∃ d e, h.log message.sender.number = some d ∧ h.ended message.sender.number = some e ∧
      message.retcode = e.retcode ∧ e.written <+: h.written message.sender.number ∧
      h.files.file message.sender.tid = some d.file ∧
      h.files.contents d.file = h.written message.sender.number := by
  rcases (hkept.gatherer message hreceived).1 with ⟨e, hend, hretcode⟩
  rcases hkept.ended_some hend with ⟨hopen, hwritten⟩
  rcases Option.isSome_iff_exists.mp hopen with ⟨d, hd⟩
  have hwriter : message.sender ∈ h.writers :=
    mem_writers.mpr (.inr (.inr ⟨message, hreceived, hunread, rfl⟩))
  have hlog := hkept.logs message.sender hwriter d hd
  exact ⟨d, e, hd, hend, hretcode, hwritten, hlog.1, hlog.2.1⟩

theorem empty_kept (pool : QueuePool WI DOMNode) : (empty pool).Kept logsDelete where
  sound := Host.empty_sound pool
  nodup := List.nodup_nil
  distinct := nofun
  forks := nofun
  opened := nofun
  unopened := fun _ _ ↦ ⟨rfl, rfl⟩
  running := nofun
  ends := nofun
  logs := nofun
  own := nofun
  named := nofun
  messages := nofun
  gatherer := nofun
  stopping := nofun
  outputs := .nil

/-- The log that was read is not looked for again. -/
theorem Kept.unlink_writers {message : ExitMessage} {output : Option (List UInt8)}
    (hkept : h.Kept logsDelete) (hreceived : h.host.gatherer = .received message)
    (hreading : h.reading = .read output) (hhost : h'.host = h.host)
    (hreleased : h'.reading = .released output) (m : Monitor) :
    m ∈ h'.writers ↔ m ∈ h.writers ∧ m ≠ message.sender := by
  have hnodup := hkept.nodup
  unfold Host.senders at hnodup
  rw [hreceived, List.nodup_append] at hnodup
  have hwrites : h.writers = h.host.monitors ++ h.host.messages.map ExitMessage.sender ++
      [message.sender] := by
    unfold writers
    rw [hreceived, hreading]
  have hwrites' : h'.writers = h.host.monitors ++ h.host.messages.map ExitMessage.sender := by
    unfold writers
    rw [hhost, hreceived, hreleased]
    exact List.append_nil _
  rw [hwrites, hwrites', List.mem_append (t := [message.sender]), List.mem_singleton]
  constructor
  · exact fun hm ↦ ⟨.inl hm, hnodup.2.2 m hm _ List.mem_cons_self⟩
  · exact fun hm ↦ hm.1.resolve_right hm.2

/-- The gatherer is done with a log; where logs are deleted its name is free. -/
theorem Kept.release {message : ExitMessage} {output : Option (List UInt8)} {files : Directory Nat}
    (hkept : h.Kept logsDelete) (hreceived : h.host.gatherer = .received message)
    (hreading : h.reading = .read output) (hcontents : files.contents = h.files.contents)
    (hcount : files.count = h.files.count)
    (hfile : ∀ tid ≠ message.sender.tid, files.file tid = h.files.file tid)
    (hgone : logsDelete = true → files.file message.sender.tid = none) :
    Kept logsDelete { h with
      files
      reading := .released output } := by
  have hwriters : ∀ m, m ∈ writers { h with
      files
      reading := .released output } ↔ m ∈ h.writers ∧ m ≠ message.sender :=
    hkept.unlink_writers hreceived hreading rfl rfl
  have hlater : Later h { h with
      files
      reading := .released output } := ⟨fun _ _ hend ↦ hend, fun _ ↦ List.prefix_refl _⟩
  have hsender : message.sender ∈ h.host.senders :=
    Host.mem_senders.mpr (.inr (.inr ⟨message, hreceived, rfl⟩))
  apply hkept.relog
  case hhost => rfl
  case hended => rfl
  case houtputs => rfl
  case hlater => exact hlater
  case hopened =>
    dsimp only
    rw [hcount]
    exact hkept.opened
  case hunopened => exact hkept.unopened
  case hlogs =>
    intro m hm d hd
    rcases (hwriters m).mp hm with ⟨hm, hne⟩
    dsimp only
    rw [hcontents, hfile m.tid fun htid ↦ hne (hkept.eq_of_tid hm hsender htid)]
    exact hkept.logs m hm d hd
  case hown => exact hkept.own
  case hnamed =>
    intro hdelete tid f htaken
    dsimp only at htaken
    -- the file that was taken out is not named any more
    have htid : tid ≠ message.sender.tid := by
      intro heq
      rw [heq, hgone hdelete] at htaken
      cases htaken
    rw [hfile tid htid] at htaken
    rcases hkept.named hdelete tid f htaken with ⟨m, hm, hmtid, hopen⟩
    refine ⟨m, (hwriters m).mpr ⟨hm, ?_⟩, hmtid, hopen⟩
    exact fun heq ↦ htid (hmtid.symm.trans (congrArg Monitor.tid heq))
  case hreads =>
    intro other hother
    have hreads := (hkept.gatherer other hother).2
    unfold Reads at hreads ⊢
    rw [hreading] at hreads
    rcases hreads with ⟨log, houtput, hreturns⟩
    exact ⟨log, houtput, hreturns.later hlater⟩
  case hreading =>
    intro wi task sender retval hstopping
    rw [hreceived] at hstopping
    cases hstopping

section Exits

variable {m : Monitor} {status : Option UInt8}

/-- A monitor has ended and sent its message. -/
structure Exited (h h' : LoggedHost WI DOMNode) (m : Monitor) (status : Option UInt8) : Prop where
  running : m ∈ h.host.monitors
  opened : (h.log m.number).isSome
  host : h'.host = { h.host with
    monitors := h.host.monitors.erase m
    messages := h.host.messages ++ [⟨m, retcodeOf status⟩] }
  files : h'.files = h.files
  log : h'.log = h.log
  reading : h'.reading = h.reading
  written : h'.written = h.written
  outputs : h'.outputs = h.outputs
  ended : h'.ended = Function.update h.ended m.number
    (some ⟨retcodeOf status, h.written m.number⟩)

theorem Kept.nodup_monitors (hkept : h.Kept logsDelete) : h.host.monitors.Nodup := by
  have hnodup := hkept.nodup
  unfold Host.senders at hnodup
  rw [List.append_assoc, List.nodup_append] at hnodup
  exact hnodup.1

/-- The execution of a monitor that runs had not ended. -/
theorem Exited.later (hexited : Exited h h' m status) (hkept : h.Kept logsDelete) : Later h h' := by
  constructor
  case ended =>
    intro n e hend
    have hne : n ≠ m.number := by
      intro hn
      rw [hn, hkept.running m hexited.running] at hend
      cases hend
    rw [hexited.ended, Function.update_of_ne hne]
    exact hend
  case written =>
    rw [hexited.written]
    exact fun _ ↦ List.prefix_refl _

/-- A message takes the place of its monitor. -/
theorem Exited.writers (hexited : Exited h h' m status) (hkept : h.Kept logsDelete) (x : Monitor) :
    x ∈ h'.writers ↔ x ∈ h.writers := by
  rw [mem_writers, mem_writers, hexited.host, hexited.reading]
  dsimp only
  rw [hkept.nodup_monitors.mem_erase_iff]
  by_cases hx : x = m
  · rw [hx]
    exact iff_of_true (.inr (.inl ⟨_, List.mem_append_right _ List.mem_cons_self, rfl⟩))
      (.inl hexited.running)
  · simp [hx, Ne.symm hx, or_and_right, exists_or]

theorem Exited.count_senders (hexited : Exited h h' m status) (x : Monitor) :
    h'.host.senders.count x ≤ h.host.senders.count x := by
  have hpos := List.count_pos_iff.mpr hexited.running
  rw [hexited.host]
  unfold Host.senders
  simp only [List.count_append, List.map_append, List.map_cons, List.map_nil, List.count_cons,
    List.count_nil, List.count_erase]
  by_cases hx : m = x
  · subst hx
    simp only [beq_self_eq_true, if_true]
    omega
  · simp only [beq_eq_false_iff_ne.mpr hx, Bool.false_eq_true, if_false]
    omega

theorem Exited.running_other (hexited : Exited h h' m status) (hkept : h.Kept logsDelete) :
    ∀ x ∈ h'.host.monitors, h'.ended x.number = none := by
  intro x hx
  rw [hexited.host] at hx
  rcases hkept.nodup_monitors.mem_erase_iff.mp hx with ⟨hne, hin⟩
  have hsender {y : Monitor} (hy : y ∈ h.host.monitors) : y ∈ h.host.senders :=
    Host.mem_senders.mpr (.inl hy)
  have hnumber : x.number ≠ m.number := fun hnumber ↦
    hne (hkept.distinct x (hsender hin) m (hsender hexited.running) (.inr hnumber))
  rw [hexited.ended, Function.update_of_ne hnumber]
  exact hkept.running x hin

end Exits

section Steps

variable [DecidableEq WI] [DecidableEq DOMNode]
variable {A : Allocator (Task WI DOMNode)} {getInstanceID : WI → UInt32}

theorem fopen_kept (hkept : h.Kept logsDelete)
    (hstep : h.step A getInstanceID logsDelete .fopen = some h') : h'.Kept logsDelete := by
  unfold step at hstep
  dsimp only at hstep
  split at hstep
  · rename_i message hreceived hreading
    have hunread : ∀ output, h.reading ≠ .released output := by
      rw [hreading]
      exact nofun
    rcases hkept.log_of_received hreceived hunread with
      ⟨d, e, hd, hend, -, hbegins, hfile, hcontents⟩
    rw [hfile, Option.some.injEq] at hstep
    rw [← hstep]
    refine hkept.reading hreceived hunread nofun ⟨d, e, hd, rfl, hend, ?_, ?_⟩
    · rw [hcontents]
      exact hbegins.length_le
    · exact Nat.le_of_eq (congrArg List.length hcontents)
  · cases hstep

theorem fread_kept (hkept : h.Kept logsDelete)
    (hstep : h.step A getInstanceID logsDelete .fread = some h') : h'.Kept logsDelete := by
  unfold step at hstep
  dsimp only at hstep
  split at hstep
  · rename_i message file size hreceived hreading
    have hunread : ∀ output, h.reading ≠ .released output := by
      rw [hreading]
      exact nofun
    have hreads := (hkept.gatherer message hreceived).2
    unfold Reads at hreads
    rw [hreading] at hreads
    rcases hreads with ⟨d, e, hd, hfile, hend, hle, -⟩
    rcases hkept.log_of_received hreceived hunread with
      ⟨d', e', hd', hend', hretcode, hbegins, -, hcontents⟩
    rw [hd, Option.some.injEq] at hd'
    rw [hend, Option.some.injEq] at hend'
    rw [← hd', hfile] at hcontents
    rw [← hend'] at hretcode hbegins
    rw [← Option.some.inj hstep]
    refine hkept.reading hreceived hunread nofun ⟨_, rfl, e, hend, hretcode, ?_, ?_⟩
    · rw [hcontents]
      exact List.prefix_take_iff.mpr ⟨hbegins, hle⟩
    · rw [hcontents]
      exact List.take_prefix _ _
  · cases hstep

theorem unlink_kept (hkept : h.Kept logsDelete)
    (hstep : h.step A getInstanceID logsDelete .unlink = some h') : h'.Kept logsDelete := by
  unfold step at hstep
  dsimp only at hstep
  split at hstep
  · rename_i message output hreceived hreading
    rw [← Option.some.inj hstep]
    apply hkept.release hreceived hreading
    case hcontents => cases logsDelete <;> rfl
    case hcount => cases logsDelete <;> rfl
    case hfile =>
      intro tid hne
      cases logsDelete
      · rfl
      · exact Directory.file_unlink_of_ne hne
    case hgone =>
      intro hdelete
      rw [hdelete, if_pos rfl]
      exact Directory.file_unlink_self
  · cases hstep

theorem exited_of_step {m : Monitor} {status : Option UInt8}
    (hstep : h.step A getInstanceID logsDelete (.host (.exit m status)) = some h') :
    Exited h h' m status := by
  unfold step at hstep
  dsimp only at hstep
  split at hstep
  · rename_i hopen
    rcases Option.map_eq_some_iff.mp hstep with ⟨host, hhost, heq⟩
    unfold Host.step at hhost
    dsimp only at hhost
    split at hhost
    · rename_i hin
      rw [← heq, ← Option.some.inj hhost]
      exact ⟨hin, hopen, rfl, rfl, rfl, rfl, rfl, rfl, rfl⟩
    · cases hhost
  · cases hstep

theorem exit_kept {m : Monitor} {status : Option UInt8} (hkept : h.Kept logsDelete)
    (hstep : h.step A getInstanceID logsDelete (.host (.exit m status)) = some h') :
    h'.Kept logsDelete := by
  have hexited := exited_of_step hstep
  have hlater := hexited.later hkept
  apply hkept.update
  case hsound =>
    have hhost : h.host.step A getInstanceID (.exit m status) = some h'.host := by
      rw [hexited.host]
      exact if_pos hexited.running
    exact Host.step_sound hkept.sound (show h.host.Guarded (.exit m status) from trivial) hhost
  case hfiles => exact hexited.files
  case hlog => exact hexited.log
  case hwritten => exact hexited.written
  case hnew =>
    intro n e hend
    rw [hexited.ended] at hend
    by_cases hn : n = m.number
    · rw [hn, Function.update_self, Option.some.injEq] at hend
      rw [hn, ← hend]
      exact ⟨hexited.opened, List.prefix_refl _⟩
    · rw [Function.update_of_ne hn] at hend
      exact hkept.ended_some hend
  case hrunning => exact hexited.running_other hkept
  case hcount => exact hexited.count_senders
  case hforks => rw [hexited.host]
  case hwriters => exact fun x ↦ (hexited.writers hkept x).mp
  case hnamed => exact fun _ x hx _ ↦ (hexited.writers hkept x).mpr hx
  case hmessages =>
    intro message hmessage
    rw [hexited.host] at hmessage
    rcases List.mem_append.mp hmessage with hmessage | hmessage
    · exact (hkept.messages message hmessage).later hlater
    · rw [List.mem_singleton.mp hmessage]
      refine ⟨⟨retcodeOf status, h.written m.number⟩, ?_, rfl⟩
      rw [hexited.ended, Function.update_self]
  case hgatherer =>
    intro message hreceived
    rw [hexited.host] at hreceived
    have hold := hkept.gatherer message hreceived
    refine ⟨hold.1.later hlater, hold.2.later hlater hexited.reading ?_⟩
    rw [hexited.log]
    exact fun _ d hd ↦ ⟨d, hd, rfl⟩
  case hstopping =>
    intro wi task sender retval hstopping
    rw [hexited.host] at hstopping
    rcases hkept.stopping wi task sender retval hstopping with ⟨log, hread, hreturns⟩
    exact ⟨log, hexited.reading.trans hread, hreturns.later hlater⟩
  case houtputs =>
    rw [hexited.host, hexited.outputs]
    exact hkept.outputs.imp fun _ _ hreported ↦ Reported.later hlater hreported

theorem receive_kept (hkept : h.Kept logsDelete)
    (hstep : h.step A getInstanceID logsDelete (.host .receive) = some h') : h'.Kept logsDelete := by
  unfold step at hstep
  dsimp only at hstep
  rcases Option.map_eq_some_iff.mp hstep with ⟨host, hhost, heq⟩
  have hsound : host.Sound :=
    Host.step_sound hkept.sound (show h.host.Guarded .receive from trivial) hhost
  unfold Host.step at hhost
  dsimp only at hhost
  split at hhost
  · rename_i message messages hstarted hgatherer hmessages
    rw [Option.some.injEq] at hhost
    have hlater : Later h h' := by
      rw [← heq]
      exact ⟨fun _ _ hend ↦ hend, fun _ ↦ List.prefix_refl _⟩
    -- the message moves from the queue to the gatherer: its files have the same writers
    have hwriters : ∀ m, m ∈ h'.writers ↔ m ∈ h.writers := by
      intro m
      rw [← heq, ← hhost, mem_writers, mem_writers, hgatherer, hmessages]
      simp only [List.mem_cons, exists_eq_or_imp, Gatherer.received.injEq, exists_eq_left', ne_eq,
        reduceCtorEq, not_false_eq_true, implies_true, true_and, false_and, exists_false, or_false]
      exact or_congr_right Or.comm
    apply hkept.update
    case hsound =>
      rw [← heq]
      exact hsound
    case hfiles => rw [← heq]
    case hlog => rw [← heq]
    case hwritten => rw [← heq]
    case hnew =>
      rw [← heq]
      exact fun _ _ hend ↦ hkept.ended_some hend
    case hrunning =>
      rw [← heq, ← hhost]
      exact hkept.running
    case hcount =>
      intro m
      rw [← heq, ← hhost]
      unfold Host.senders
      rw [hgatherer, hmessages]
      simp only [List.count_append, List.map_cons, List.count_cons, List.count_nil]
      omega
    case hforks => rw [← heq, ← hhost]
    case hwriters => exact fun m ↦ (hwriters m).mp
    case hnamed => exact fun _ m hm _ ↦ (hwriters m).mpr hm
    case hmessages =>
      intro other hin
      apply Sent.later hlater
      apply hkept.messages
      rw [hmessages]
      rw [← heq, ← hhost] at hin
      exact List.mem_cons_of_mem _ hin
    case hgatherer =>
      intro other hother
      rw [← heq, ← hhost, Gatherer.received.injEq] at hother
      rw [← hother]
      constructor
      · apply Sent.later hlater
        apply hkept.messages
        rw [hmessages]
        exact List.mem_cons_self
      · unfold Reads
        rw [← heq]
        trivial
    case hstopping =>
      rw [← heq, ← hhost]
      exact nofun
    case houtputs =>
      rw [← heq, ← hhost]
      exact hkept.outputs
  · cases hhost

/-- The message is dropped, or leads to a call of `TaskStop` with the log. -/
theorem terminateTask_kept {readable : Bool} (hkept : h.Kept logsDelete)
    (hstep : h.step A getInstanceID logsDelete (.host (.terminateTask readable)) = some h') :
    h'.Kept logsDelete := by
  unfold step at hstep
  dsimp only at hstep
  split at hstep
  · rename_i output hreading
    split at hstep
    · rename_i hreadable
      rcases Option.map_eq_some_iff.mp hstep with ⟨host, hhost, heq⟩
      have hsound : host.Sound :=
        Host.step_sound hkept.sound (show h.host.Guarded (.terminateTask readable) from trivial) hhost
      unfold Host.step at hhost
      dsimp only at hhost
      split at hhost
      · rename_i sender retcode hreceived
        rcases Option.map_eq_some_iff.mp hhost with ⟨engine, -, hcases⟩
        have hreads := (hkept.gatherer ⟨sender, retcode⟩ hreceived).2
        -- the gatherer holds what it has read of the log of this sender
        unfold Reads at hreads
        rw [hreading] at hreads
        rcases hreads with ⟨log, houtput, hreturns⟩
        rw [houtput, Option.isSome_some] at hreadable
        rw [houtput] at hreading
        have hhandled : host.monitors = h.host.monitors ∧ host.messages = h.host.messages ∧
            host.forks = h.host.forks ∧ host.stops = h.host.stops ∧
            (∀ message, host.gatherer ≠ .received message) ∧
            ∀ wi task s retval, host.gatherer = .stopping wi task s retval →
              s = sender ∧ retval = retcode := by
          rw [← hcases, hreadable]
          split
          · exact ⟨rfl, rfl, rfl, rfl, nofun, nofun⟩
          · refine ⟨rfl, rfl, rfl, rfl, nofun, ?_⟩
            intro wi task s retval hstopping
            dsimp only at hstopping
            rw [if_pos rfl, Gatherer.stopping.injEq] at hstopping
            exact ⟨hstopping.2.2.1.symm, hstopping.2.2.2.symm⟩
        rcases hhandled with ⟨hmonitors, hmessages, hforks, hstops, htaken, hstopping⟩
        -- the sender has stopped writing, and nobody else is concerned
        have hwriters : ∀ m, m ∈ h'.writers ↔ m ∈ h.writers := by
          intro m
          rw [← heq, mem_writers, mem_writers, hmonitors, hmessages, hreceived]
          simp [htaken, hreading]
        apply hkept.update
        case hsound =>
          rw [← heq]
          exact hsound
        case hfiles => rw [← heq]
        case hlog => rw [← heq]
        case hwritten => rw [← heq]
        case hnew =>
          rw [← heq]
          exact fun _ _ hend ↦ hkept.ended_some hend
        case hrunning =>
          rw [← heq, hmonitors]
          exact hkept.running
        case hcount =>
          rw [← heq]
          exact Host.count_senders_of_taken hmonitors hmessages htaken
        case hforks =>
          rw [← heq]
          exact hforks
        case hwriters => exact fun m ↦ (hwriters m).mp
        case hnamed => exact fun _ m hm _ ↦ (hwriters m).mpr hm
        case hmessages =>
          rw [← heq, hmessages]
          exact hkept.messages
        case hgatherer =>
          rw [← heq]
          exact fun message hreceived ↦ absurd hreceived (htaken message)
        case hstopping =>
          rw [← heq]
          intro wi task s retval hs
          rcases hstopping wi task s retval hs with ⟨hsender, hretval⟩
          rw [hsender, hretval]
          exact ⟨log, hreading, hreturns⟩
        case houtputs =>
          rw [← heq, hstops]
          exact hkept.outputs
      · cases hhost
    · cases hstep
  · cases hstep

theorem taskStop_kept (hkept : h.Kept logsDelete)
    (hstep : h.step A getInstanceID logsDelete (.host .taskStop) = some h') : h'.Kept logsDelete := by
  unfold step at hstep
  dsimp only at hstep
  split at hstep
  · rename_i output hreading
    rcases Option.map_eq_some_iff.mp hstep with ⟨host, hhost, heq⟩
    have hsound : host.Sound :=
      Host.step_sound hkept.sound (show h.host.Guarded .taskStop from trivial) hhost
    unfold Host.step at hhost
    dsimp only at hhost
    split at hhost
    · rename_i wi task sender retval hgatherer
      rw [Option.some.injEq] at hhost
      -- the text was read before the files were released: it is the log of the task that stops
      rcases hkept.stopping wi task sender retval hgatherer with ⟨log, hread, hreturns⟩
      rw [hreading, Reading.released.injEq] at hread
      have hwriters : ∀ m, m ∈ h'.writers ↔ m ∈ h.writers := by
        intro m
        rw [← heq, ← hhost, mem_writers, mem_writers, hgatherer]
        simp
      apply hkept.update
      case hsound =>
        rw [← heq]
        exact hsound
      case hfiles => rw [← heq]
      case hlog => rw [← heq]
      case hwritten => rw [← heq]
      case hnew =>
        rw [← heq]
        exact fun _ _ hend ↦ hkept.ended_some hend
      case hrunning =>
        rw [← heq, ← hhost]
        exact hkept.running
      case hcount =>
        rw [← heq, ← hhost]
        exact Host.count_senders_of_taken rfl rfl nofun
      case hforks => rw [← heq, ← hhost]
      case hwriters => exact fun m ↦ (hwriters m).mp
      case hnamed => exact fun _ m hm _ ↦ (hwriters m).mpr hm
      case hmessages =>
        rw [← heq, ← hhost]
        exact hkept.messages
      case hgatherer =>
        rw [← heq, ← hhost]
        exact nofun
      case hstopping =>
        rw [← heq, ← hhost]
        exact nofun
      case houtputs =>
        rw [← heq, ← hhost, hread]
        exact List.rel_append hkept.outputs (.cons ⟨log, rfl, hreturns⟩ .nil)
    · cases hhost
  · cases hstep

theorem lose_kept {m : Monitor} (hkept : h.Kept logsDelete)
    (hok : logsDelete = true → h.log m.number = none)
    (hstep : h.step A getInstanceID logsDelete (.host (.lose m)) = some h') : h'.Kept logsDelete := by
  unfold step at hstep
  dsimp only at hstep
  rcases Option.map_eq_some_iff.mp hstep with ⟨host, hhost, heq⟩
  have hsound : host.Sound :=
    Host.step_sound hkept.sound (show h.host.Guarded (.lose m) from trivial) hhost
  unfold Host.step at hhost
  dsimp only at hhost
  rw [Option.some.injEq] at hhost
  have hmonitors : host.monitors = h.host.monitors.erase m := by rw [← hhost]
  apply hkept.update
  case hsound =>
    rw [← heq]
    exact hsound
  case hfiles => rw [← heq]
  case hlog => rw [← heq]
  case hwritten => rw [← heq]
  case hnew =>
    rw [← heq]
    exact fun _ _ hend ↦ hkept.ended_some hend
  case hrunning =>
    rw [← heq, hmonitors]
    exact fun x hx ↦ hkept.running x (List.mem_of_mem_erase hx)
  case hcount =>
    intro x
    rw [← heq, ← hhost]
    exact (List.erase_sublist.append_right _ |>.append_right _).count_le x
  case hforks => rw [← heq, ← hhost]
  case hwriters =>
    intro x hx
    rw [← heq, ← hhost, mem_writers] at hx
    rw [mem_writers]
    exact hx.imp_left List.mem_of_mem_erase
  case hnamed =>
    intro hdelete x hx hopen
    -- the monitor that is lost never opened its files
    have hne : x ≠ m := by
      intro heq
      rw [heq, hok hdelete] at hopen
      cases hopen
    rw [mem_writers] at hx
    rw [← heq, ← hhost, mem_writers]
    exact hx.imp_left (List.mem_erase_of_ne hne).mpr
  case hmessages =>
    rw [← heq, ← hhost]
    exact hkept.messages
  case hgatherer =>
    rw [← heq, ← hhost]
    exact hkept.gatherer
  case hstopping =>
    rw [← heq, ← hhost]
    exact hkept.stopping
  case houtputs =>
    rw [← heq, ← hhost]
    exact hkept.outputs

theorem restart_kept {rows : List (String × UInt32 × UInt32)} {maxpid : Fin (2 ^ 31)}
    (hkept : h.Kept logsDelete) (hok : logsDelete = true → h.isReading = false)
    (hstep : h.step A getInstanceID logsDelete (.host (.restart rows maxpid)) = some h') :
    h'.Kept logsDelete := by
  unfold step at hstep
  dsimp only at hstep
  rcases Option.map_eq_some_iff.mp hstep with ⟨host, hhost, heq⟩
  have hsound : host.Sound :=
    Host.step_sound hkept.sound (show h.host.Guarded (.restart rows maxpid) from trivial) hhost
  unfold Host.step at hhost
  dsimp only at hhost
  split at hhost
  · cases hhost
  · rw [Option.some.injEq] at hhost
    apply hkept.update
    case hsound =>
      rw [← heq]
      exact hsound
    case hfiles => rw [← heq]
    case hlog => rw [← heq]
    case hwritten => rw [← heq]
    case hnew =>
      rw [← heq]
      exact fun _ _ hend ↦ hkept.ended_some hend
    case hrunning =>
      rw [← heq, ← hhost]
      exact hkept.running
    case hcount =>
      rw [← heq, ← hhost]
      exact Host.count_senders_of_taken rfl rfl nofun
    case hforks => rw [← heq, ← hhost]
    case hwriters =>
      intro m hm
      rw [← heq, ← hhost, mem_writers] at hm
      rw [mem_writers]
      rcases hm with hm | hm | ⟨message, hno, -⟩
      · exact .inl hm
      · exact .inr (.inl hm)
      · cases hno
    case hnamed =>
      intro hdelete m hm _
      rw [mem_writers] at hm
      rw [← heq, ← hhost, mem_writers]
      rcases hm with hm | hm | ⟨message, hreceived, hunread, -⟩
      · exact .inl hm
      · exact .inr (.inl hm)
      · -- a message half read is lost with the process, unless no output is being read
        have hno := hok hdelete
        unfold isReading at hno
        rw [hreceived] at hno
        cases hreading : h.reading with
        | released output => exact absurd hreading (hunread output)
        | _ =>
          rw [hreading] at hno
          cases hno
    case hmessages =>
      rw [← heq, ← hhost]
      exact hkept.messages
    case hgatherer =>
      rw [← heq, ← hhost]
      exact nofun
    case hstopping =>
      rw [← heq, ← hhost]
      exact nofun
    case houtputs =>
      rw [← heq, ← hhost]
      exact hkept.outputs

/-- One step. -/
theorem step_kept {action : LogAction WI DOMNode} (hkept : h.Kept logsDelete)
    (hok : h.Guarded logsDelete action) (hstep : h.step A getInstanceID logsDelete action = some h') :
    h'.Kept logsDelete := by
  have hquiet (a : HostAction WI DOMNode) (hguard : h.host.Guarded a)
      (hcall : (h.host.step A getInstanceID a).map (fun host ↦ { h with host }) = some h')
      (hall : ∀ host, h.host.step A getInstanceID a = some host → Host.Quiet h.host host) :
      h'.Kept logsDelete := by
    rcases Option.map_eq_some_iff.mp hcall with ⟨host, hhost, heq⟩
    rw [← heq]
    exact hkept.quiet (Host.step_sound hkept.sound hguard hhost) (hall host hhost)
  cases action with
  | fopen => exact fopen_kept hkept hstep
  | fread => exact fread_kept hkept hstep
  | unlink => exact unlink_kept hkept hstep
  | openLog m =>
    unfold step at hstep
    dsimp only at hstep
    split at hstep
    · rename_i hopen
      rw [← Option.some.inj hstep]
      exact hkept.openLog hopen.1 hopen.2
    · cases hstep
  | write n bytes =>
    rcases Option.map_eq_some_iff.mp hstep with ⟨d, hd, heq⟩
    rw [← heq]
    exact hkept.write hok hd bytes
  | host a =>
    cases a with
    | exit m status => exact exit_kept hkept hstep
    | receive => exact receive_kept hkept hstep
    | terminateTask readable => exact terminateTask_kept hkept hstep
    | taskStop => exact taskStop_kept hkept hstep
    | lose m => exact lose_kept hkept hok hstep
    | restart rows maxpid => exact restart_kept hkept hok hstep
    | recordSavepoint wi =>
      apply hquiet (.recordSavepoint wi) hok hstep
      intro host hhost
      rw [← Option.some.inj hhost]
      exact ⟨rfl, rfl, rfl, rfl, rfl⟩
    | resume wi task queueName =>
      exact hquiet (.resume wi task queueName) hok hstep fun host hhost ↦ Host.resume_quiet hhost
    | start =>
      apply hquiet .start hok hstep
      intro host hhost
      rw [← Option.some.inj hhost]
      exact ⟨rfl, rfl, rfl, rfl, rfl⟩
    | engine a =>
      unfold step at hstep
      dsimp only at hstep
      rcases Option.map_eq_some_iff.mp hstep with ⟨host, hhost, heq⟩
      have hsound := Host.step_sound hkept.sound hok hhost
      rw [← heq]
      rcases Host.engine_cases hhost with hsame | ⟨m, hforked⟩
      · exact hkept.quiet hsound hsame
      · exact hkept.forked hsound hforked

/-- **Every task is stopped with its own output.**  In every run whose steps are guarded, whatever crashes and
restarts there are and however often identifiers are used again, `TaskStop` is called for the current execution
of its task, with the return code that its monitor sent and the log of this execution: all that was written to
it before the task ended, and nothing that another one has written.  A log is always found.  Where the logs are
deleted, processes that a task leaves behind may write on for ever. -/
theorem outputs_of_run (A : Allocator (Task WI DOMNode)) (getInstanceID : WI → UInt32)
    (logsDelete : Bool) (pool : QueuePool WI DOMNode) (actions : List (LogAction WI DOMNode))
    (h : LoggedHost WI DOMNode)
    (hok : Meets (step A getInstanceID logsDelete) (Guarded logsDelete) (empty pool) actions)
    (hrun : run (step A getInstanceID logsDelete) (empty pool) actions = some h) :
    List.Forall₂ (fun s output ↦ s.execution = some s.sender ∧ h.Reported s output)
      h.host.stops h.outputs := by
  have hstep : ∀ h a h', Kept logsDelete h → Guarded logsDelete h a →
      step A getInstanceID logsDelete h a = some h' → Kept logsDelete h' :=
    fun _ _ _ hkept hok hstep ↦ step_kept hkept hok hstep
  have hkept : Kept logsDelete h := run_invariant hstep (empty_kept pool) hok hrun
  have hstops := hkept.sound.routed.stops
  have houtputs := hkept.outputs
  generalize h.host.stops = stops at hstops houtputs
  generalize h.outputs = outputs at houtputs
  induction houtputs with
  | nil => exact .nil
  | cons hreported _ ih =>
    exact .cons ⟨hstops _ List.mem_cons_self, hreported⟩
      (ih fun s hs ↦ hstops s (List.mem_cons_of_mem _ hs))

end Steps

instance [DecidableEq WI] [DecidableEq DOMNode] (logsDelete : Bool) (h : LoggedHost WI DOMNode) :
    (action : LogAction WI DOMNode) → Decidable (h.Guarded logsDelete action)
  | .host (.lose monitor) =>
      inferInstanceAs (Decidable (logsDelete = true → h.log monitor.number = none))
  | .host (.restart ..) => inferInstanceAs (Decidable (logsDelete = true → h.isReading = false))
  | .host (.engine action) => inferInstanceAs (Decidable (h.host.Guarded (.engine action)))
  | .host (.resume wi task queueName) =>
      inferInstanceAs (Decidable (h.host.Guarded (.resume wi task queueName)))
  | .host (.exit ..) | .host .receive | .host (.terminateTask ..) | .host .taskStop
  | .host (.recordSavepoint ..) | .host .start => .isTrue trivial
  | .write execution _ =>
      inferInstanceAs (Decidable (logsDelete = true ∨ ∃ m ∈ h.writers, m.number = execution))
  | .openLog _ | .fopen | .fread | .unlink => .isTrue trivial

/-- A task is taken from its queue, forked, and opens its log. -/
def opensNext (instanceId : UInt32) (task pid : Nat) (monitor : Monitor) : List (LogAction UInt32 Nat) :=
  (.engine (.enqueueTask "default" instanceId task) :: Host.executesNext pid).map .host ++
    [.openLog monitor]

def stopsNext : List (LogAction UInt32 Nat) := [.fread, .unlink, .host (.terminateTask true), .host .taskStop]

/-- A process that the first task leaves behind writes while the log is read, and again when the second task
has the identifier of the first one. -/
def leavesProcess : List (LogAction UInt32 Nat) :=
  opensNext 1 10 100 ⟨100, 1, 0⟩ ++
    [.write 0 [104, 105], .host (.exit ⟨100, 1, 0⟩ (some 0)), .host .receive, .fopen, .write 0 [33]] ++
    stopsNext ++ [.host (.restart [("default", 1, 1)] Host.defaultPool.maxpid), .host .start] ++
    opensNext 2 20 200 ⟨200, 1, 1⟩ ++
    [.write 0 [33, 33], .write 1 [97, 98, 99], .host (.exit ⟨200, 1, 1⟩ (some 3)), .host .receive, .fopen] ++
    stopsNext

theorem outputs_leavesProcess : ∃ h : LoggedHost UInt32 Nat,
    run (step (Allocator.bump (Task UInt32 Nat)) id true) (empty Host.defaultPool) leavesProcess = some h ∧
      h.outputs = [some [104, 105], some [97, 98, 99]] ∧
      List.Forall₂ (fun s output ↦ s.execution = some s.sender ∧ h.Reported s output)
        h.host.stops h.outputs := by
  have houtputs : (run (step (Allocator.bump (Task UInt32 Nat)) id true) (empty Host.defaultPool)
      leavesProcess).map LoggedHost.outputs = some [some [104, 105], some [97, 98, 99]] := by
    decide +kernel
  have hok : Meets (step (Allocator.bump (Task UInt32 Nat)) id true) (Guarded true)
      (empty Host.defaultPool) leavesProcess := by
    decide +kernel
  rcases Option.map_eq_some_iff.mp houtputs with ⟨h, hrun, heq⟩
  exact ⟨h, hrun, heq, outputs_of_run _ id true Host.defaultPool leavesProcess h hok hrun⟩

/-- The same where the logs are kept: the second task gets what the process of the first one has written. -/
example : (run (step (Allocator.bump (Task UInt32 Nat)) id false) (empty Host.defaultPool)
    leavesProcess).map (fun h ↦ (h.written 1, h.outputs)) =
      some ([97, 98, 99], [some [104, 105], some [97, 98, 99, 33, 33]]) := by
  decide +kernel

end LoggedHost

end EvQueue
