import EvQueue.WorkflowHistoryRuns

/-!
# WorkflowHistoryCrashes — engines that are killed, and what becomes of their instances

On savepoint level 3 a savepoint is recorded behind every call, so that the engine may be killed at any time,
and the next one resumes every instance from what the last call left.  On level 2 this holds of an engine
that is shut down.
-/

namespace EvQueue

open Runs

variable {Node : Type}

/-! ## One instance -/

/-- An instance over several runs of the engine. -/
structure Passage (Node : Type) where
  life : Lifetime Node
  started : Bool

/-- What an engine does with it. -/
inductive Move (Node : Type) where
  | start (env : Environment Node)
  | call (operation : Operation Node)
  /-- It is constructed from its savepoint, and `Resume` is called. -/
  | resume (env : Environment Node) (order : List Nat)

namespace Passage

def constructed (doc : Document Node) : Passage Node := ⟨⟨.create doc, 0⟩, false⟩

def step (p : Passage Node) : Move Node → Option (Passage Node)
  | .start env =>
      if p.started = false ∧ p.life.deleted = 0 then
        some ⟨p.life.after (p.life.workflow.start env), true⟩
      else none
  | .call operation =>
      if p.started = true ∧ p.life.deleted = 0 then (p.life.step operation).map (⟨·, true⟩) else none
  | .resume env order =>
      if p.life.deleted = 0 ∧ order.Nodup ∧ order.Perm p.life.workflow.doc.found then
        some ⟨p.life.after ((WorkflowInstance.create p.life.workflow.doc).resume env order), true⟩
      else none

end Passage

/-! ## The engine -/

inductive CrashAction (Node : Type) where
  | engine (action : HistoryAction Node)
  /-- The engine is killed; a call that it was in has not been recorded. -/
  | crash
  /-- It is killed within the constructor of an instance, behind its insert. -/
  | crashConstructing

namespace History

/-- What is left in the database. -/
def crash (h : History Node) : History Node :=
  { h with
    phase := .down
    constructed := []
    live := [] }

def crashStep (savepointLevel : Nat) (h : History Node) : CrashAction Node → Option (History Node)
  | .engine action => h.step savepointLevel action
  | .crash => some h.crash
  | .crashConstructing =>
      if h.phase = .up ∧ 2 ≤ savepointLevel then
        some { h.crash with
          table := h.table.insertNew.1
          given := h.given ++ [h.table.insertNew.2] }
      else none

/-- No workflow is `TERMINATED` from the start. -/
def Begins : CrashAction Node → Prop
  | .engine (.construct _ status) => status ≠ "TERMINATED"
  | _ => True

/-- The row of the instance says that it is executing, and has this savepoint. -/
def Saved (h : History Node) (id : Nat) (doc : Document Node) : Prop :=
  ∃ row ∈ h.table.rows, row.id = id ∧ row.status = .executing ∧ row.savepoint = some doc

/-- Where the instance is. -/
inductive Holds (savepointLevel : Nat) (h : History Node) (id : Nat) : Passage Node → Prop
  /-- It is known to the engine, and not started. -/
  | constructed {doc : Document Node} (hmem : (id, doc) ∈ h.constructed)
      (hsaved : savepointLevel = 3 → h.Saved id doc) : Holds savepointLevel h id (.constructed doc)
  | live {s : WorkflowInstance Node} (hmem : (id, s) ∈ h.live)
      (hsaved : savepointLevel = 3 → h.Saved id s.doc) : Holds savepointLevel h id ⟨⟨s, 0⟩, true⟩
  /-- No engine runs that knows it, and it is in the table. -/
  | saved {s : WorkflowInstance Node} {started : Bool} (hnot : id ∉ h.alive) (hsaved : h.Saved id s.doc) :
      Holds savepointLevel h id ⟨⟨s, 0⟩, started⟩
  /-- It is in the history. -/
  | ended {s : WorkflowInstance Node} {started : Bool} (hmem : (id, s.errorTasks) ∈ h.ended)
      (hsavepoint : ∀ row ∈ h.table.rows, row.id = id → row.savepoint = some s.doc) :
      Holds savepointLevel h id ⟨⟨s, 1⟩, started⟩

variable {savepointLevel : Nat} {h h' h'' : History Node} {id x : Nat} {p : Passage Node} {doc : Document Node}

theorem mem_alive_of_constructed (hmem : (id, doc) ∈ h.constructed) : id ∈ h.alive :=
  List.mem_append_left _ (List.mem_map_of_mem (f := Prod.fst) hmem)

theorem mem_alive_of_live {s : WorkflowInstance Node} (hmem : (id, s) ∈ h.live) : id ∈ h.alive :=
  List.mem_append_right _ (List.mem_map_of_mem (f := Prod.fst) hmem)

/-- What the action does is none of the business of instance `id`. -/
structure Frames (id : Nat) (h h' : History Node) : Prop where
  constructed : ∀ doc, (id, doc) ∈ h.constructed → (id, doc) ∈ h'.constructed
  live : ∀ s, (id, s) ∈ h.live → (id, s) ∈ h'.live
  alive : id ∈ h'.alive → id ∈ h.alive
  executing : ∀ row ∈ h.table.rows, row.id = id → row.status = .executing → row ∈ h'.table.rows
  rows : ∀ row ∈ h'.table.rows, row.id = id → row ∈ h.table.rows
  ended : ∀ errors, (id, errors) ∈ h.ended → (id, errors) ∈ h'.ended

theorem Frames.trans (hframes : Frames id h h') (hframes' : Frames id h' h'') : Frames id h h'' := by
  constructor
  case constructed => exact fun doc hmem ↦ hframes'.constructed doc (hframes.constructed doc hmem)
  case live => exact fun s hmem ↦ hframes'.live s (hframes.live s hmem)
  case alive => exact fun hin ↦ hframes.alive (hframes'.alive hin)
  case executing =>
    exact fun row hrow hid hstatus ↦ hframes'.executing row (hframes.executing row hrow hid hstatus) hid hstatus
  case rows => exact fun row hrow hid ↦ hframes.rows row (hframes'.rows row hrow hid) hid
  case ended => exact fun errors hmem ↦ hframes'.ended errors (hframes.ended errors hmem)

theorem Frames.saved (hframes : Frames id h h') (hsaved : h.Saved id doc) : h'.Saved id doc := by
  rcases hsaved with ⟨row, hrow, hid, hstatus, hsavepoint⟩
  exact ⟨row, hframes.executing row hrow hid hstatus, hid, hstatus, hsavepoint⟩

theorem Frames.holds (hframes : Frames id h h') (hholds : h.Holds savepointLevel id p) :
    h'.Holds savepointLevel id p := by
  cases hholds with
  | constructed hmem hsaved =>
    exact .constructed (hframes.constructed _ hmem) fun hlevel ↦ hframes.saved (hsaved hlevel)
  | live hmem hsaved => exact .live (hframes.live _ hmem) fun hlevel ↦ hframes.saved (hsaved hlevel)
  | saved hnot hsaved => exact .saved (fun hin ↦ hnot (hframes.alive hin)) (hframes.saved hsaved)
  | ended hmem hsavepoint =>
    exact .ended (hframes.ended _ hmem) fun row hrow hid ↦ hsavepoint row (hframes.rows row hrow hid) hid

theorem crash_inv (htwo : 2 ≤ savepointLevel) (hinv : Inv savepointLevel h) :
    Inv savepointLevel h.crash := by
  constructor
  case rowsNodup => exact hinv.rowsNodup
  case givenNodup => exact hinv.givenNodup
  case aliveNodup => exact List.nodup_nil
  case pendingNodup => exact List.nodup_nil
  case rowsGiven => exact hinv.rowsGiven
  case aliveGiven => exact fun x hx ↦ absurd hx List.not_mem_nil
  case pendingAlive => exact fun x hx ↦ absurd hx List.not_mem_nil
  case pendingRow => exact fun x hx ↦ absurd hx List.not_mem_nil
  case ended =>
    intro p hp
    have hold := hinv.ended p hp
    exact ⟨hold.given, List.not_mem_nil, List.not_mem_nil, hold.row, hold.terminated⟩
  case down => exact fun _ ↦ rfl
  case one =>
    intro hone
    omega
  case two => exact fun _ ↦ ⟨fun x hx ↦ absurd hx List.not_mem_nil, (hinv.two htwo).counted⟩

/-- The id of the next row was never given. -/
theorem autoIncrement_new (htwo : 2 ≤ savepointLevel) (hinv : Inv savepointLevel h) :
    h.table.autoIncrement ∉ h.given :=
  fun hin ↦ Nat.lt_irrefl _ ((hinv.two htwo).counted _ hin)

theorem crashConstructing_inv (htwo : 2 ≤ savepointLevel) (hinv : Inv savepointLevel h) :
    Inv savepointLevel { h.crash with
      table := h.table.insertNew.1
      given := h.given ++ [h.table.insertNew.2] } := by
  have hnew := autoIncrement_new htwo hinv
  have hcrash := crash_inv htwo hinv
  have htouches := touches_insertNew fun hin ↦ hnew (hinv.rowsGiven _ hin)
  constructor
  case rowsNodup => exact htouches.nodup hinv.rowsNodup
  case givenNodup => exact nodup_snoc hinv.givenNodup hnew
  case aliveNodup => exact hcrash.aliveNodup
  case pendingNodup => exact hcrash.pendingNodup
  case rowsGiven =>
    intro x hx
    rcases htouches.ids x hx with hin | heq
    · exact List.mem_append_left _ (hinv.rowsGiven x hin)
    · exact List.mem_append_right _ (List.mem_singleton.mpr heq)
  case aliveGiven => exact fun x hx ↦ absurd hx List.not_mem_nil
  case pendingAlive => exact hcrash.pendingAlive
  case pendingRow => exact fun x hx ↦ absurd hx List.not_mem_nil
  case ended =>
    intro p hp
    have hold := hcrash.ended p hp
    have hne : p.1 ≠ h.table.autoIncrement := fun heq ↦ hnew (heq ▸ hold.given)
    exact hold.touched hne htouches (fun x hx ↦ List.mem_append_left _ hx) (fun x hx ↦ .inl hx)
      (fun _ hin ↦ hin) rfl
  case down => exact fun _ ↦ rfl
  case one =>
    intro hone
    omega
  case two =>
    refine fun _ ↦ ⟨fun x hx ↦ absurd hx List.not_mem_nil, fun x hx ↦ ?_⟩
    show x < h.table.autoIncrement + 1
    rcases List.mem_append.mp hx with hin | hin
    · exact Nat.lt_succ_of_lt ((hinv.two htwo).counted x hin)
    · rw [List.mem_singleton.mp hin]
      exact Nat.lt_succ_self _

/-- From level 2 on nothing else is asked of the actions. -/
theorem guarded_two (htwo : 2 ≤ savepointLevel) {action : HistoryAction Node}
    (hbegins : Begins (.engine action)) : Guarded savepointLevel h action := by
  cases action with
  | resume env order => exact fun hone ↦ by omega
  | collect ids => exact fun hone ↦ by omega
  | construct doc status => exact hbegins
  | _ => trivial

theorem crashStep_inv (htwo : 2 ≤ savepointLevel) (hinv : Inv savepointLevel h) {action : CrashAction Node}
    (hbegins : Begins action) (hstep : h.crashStep savepointLevel action = some h') :
    Inv savepointLevel h' := by
  cases action with
  | engine action => exact step_inv (by omega) hinv (guarded_two htwo hbegins) hstep
  | crash =>
    rw [← Option.some.inj hstep]
    exact crash_inv htwo hinv
  | crashConstructing =>
    unfold crashStep at hstep
    dsimp only at hstep
    split at hstep
    · rw [← Option.some.inj hstep]
      exact crashConstructing_inv htwo hinv
    · cases hstep

theorem Holds.given (hinv : Inv savepointLevel h) (hholds : h.Holds savepointLevel id p) : id ∈ h.given := by
  cases hholds with
  | constructed hmem _ => exact hinv.aliveGiven id (mem_alive_of_constructed hmem)
  | live hmem _ => exact hinv.aliveGiven id (mem_alive_of_live hmem)
  | saved _ hsaved =>
    rcases hsaved with ⟨row, hrow, hid, -⟩
    exact hinv.rowsGiven id (hid ▸ HistoryTable.mem_ids_of_mem hrow)
  | ended hmem _ => exact (hinv.ended _ hmem).given

/-! ## The engine goes down -/

/-- Where an instance is that is to be resumed. -/
theorem Holds.pending (hinv : Inv savepointLevel h) (hin : id ∈ h.pending)
    (hholds : h.Holds savepointLevel id p) :
    ∃ s started, p = ⟨⟨s, 0⟩, started⟩ ∧ h.Saved id s.doc := by
  have hnot := hinv.pendingAlive id hin
  cases hholds with
  | constructed hmem _ => exact absurd (mem_alive_of_constructed hmem) hnot
  | live hmem _ => exact absurd (mem_alive_of_live hmem) hnot
  | saved _ hsaved => exact ⟨_, _, rfl, hsaved⟩
  | ended hmem _ => exact absurd hin (hinv.ended _ hmem).pending

theorem run_inv (htwo : 2 ≤ savepointLevel) (hinv : Inv savepointLevel h)
    {actions : List (CrashAction Node)} (hbegins : ∀ a ∈ actions, Begins a)
    (hrun : run (crashStep savepointLevel) h actions = some h') : Inv savepointLevel h' := by
  induction actions generalizing h with
  | nil =>
    rw [← Option.some.inj hrun]
    exact hinv
  | cons action actions ih =>
    rcases run_cons_eq_some hrun with ⟨h₁, hstep, hrest⟩
    exact ih (crashStep_inv htwo hinv (hbegins action List.mem_cons_self) hstep)
      (fun a ha ↦ hbegins a (List.mem_cons_of_mem _ ha)) hrest

/-- An instance that was not started yet is resumed where nothing is to be done, and ends without errors. -/
example : (run (crashStep 3) (new : History Unit)
    [.engine (.startUp []), .engine .purge, .engine (.construct Lifetime.oneTask ""), .crash,
      .engine (.startUp [1]), .engine (.resume Lifetime.twoNodes [])]).map History.ended =
      some [(1, 0)] := rfl

end History

end EvQueue
