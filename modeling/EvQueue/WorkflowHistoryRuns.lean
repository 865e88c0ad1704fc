import EvQueue.WorkflowHistory

/-!
# WorkflowHistoryRuns — every instance that has ended has one row, along every run

The invariant tells where an id may be: with an instance that is alive, in the query of the resume loop,
in the table.  On level 1 an instance that is alive has no row outside of the resume loop, so that it can
be inserted when it ends; from level 2 on it has one, which is executing.
-/

namespace EvQueue

open Runs

variable {Node : Type}

/-- `Resume` leaves something to be done: a task that executes, one that can be queued again, or one that
is retried. -/
def Document.GoesOn (env : Environment Node) (d : Document Node) : Prop :=
  ∃ id t, d.task? id = some t ∧
    (t.status = some .executing ∨ (t.status = some .queued ∧ env.enqueueTask t.queue = true) ∨
      (t.status = some .terminated ∧ t.retval ≠ some 0 ∧
        (t.retry env.uninitialised d.schedules).2 = .planned))

namespace WorkflowInstance

variable {env : Environment Node} {d : Document Node} {order : List Nat}

theorem goesOn_iff (env : Environment Node) (d : Document Node) : d.GoesOn env ↔
    ∃ id ∈ d.found, (d.resumed env id).running = true ∨ (d.resumed env id).retrying = true := by
  constructor
  · intro h
    rcases h with ⟨id, t, hfind, hstatus⟩
    have hid : t.id = id := by simpa using List.find?_some hfind
    have hmem := List.mem_of_find?_eq_some hfind
    have hfound (hresumable : t.resumable = true) : id ∈ d.found := by
      rw [← hid]
      exact List.mem_map_of_mem (List.mem_filter.mpr ⟨hmem, hresumable⟩)
    unfold Document.resumed TaskNode.resumed
    refine ⟨id, hfound ?_, ?_⟩
    · rcases hstatus with hstatus | ⟨hstatus, -⟩ | ⟨hstatus, -⟩ <;> simp [TaskNode.resumable, hstatus]
    · rw [hfind]
      rcases hstatus with hstatus | ⟨hstatus, hqueue⟩ | ⟨hstatus, hretval, hretry⟩
      · simp [hstatus, Resumed.running]
      · simp [hstatus, hqueue, Resumed.running]
      · simp [hstatus, hretval, hretry, Resumed.retrying]
  · intro h
    rcases h with ⟨id, -, hresumed⟩
    unfold Document.resumed at hresumed
    cases hfind : d.task? id with
    | none => simp [hfind, Resumed.running, Resumed.retrying] at hresumed
    | some t =>
      refine ⟨id, t, hfind, ?_⟩
      rw [hfind] at hresumed
      unfold TaskNode.resumed at hresumed
      rcases hstatus : t.status with _ | status
      · simp [hstatus, Resumed.running, Resumed.retrying] at hresumed
      · cases status with
        | queued =>
          by_cases hqueue : env.enqueueTask t.queue = true
          · exact .inr (.inl ⟨rfl, hqueue⟩)
          · simp [hstatus, hqueue, Resumed.running, Resumed.retrying] at hresumed
        | executing => exact .inl rfl
        | terminated =>
          by_cases hzero : t.retval = some 0
          · simp [hstatus, hzero, Resumed.running, Resumed.retrying] at hresumed
          · refine .inr (.inr ⟨rfl, hzero, ?_⟩)
            simpa [hstatus, hzero, Resumed.running, Resumed.retrying] using hresumed
        | aborted => simp [hstatus, Resumed.running, Resumed.retrying] at hresumed

/-- `Resume` reports the end exactly when it leaves nothing to be done, as far as it can count. -/
theorem resume_ended_iff (hnodup : order.Nodup) (horder : order.Perm d.found)
    (hcount : d.found.length < 2 ^ 32) :
    ((create d).resume env order).2 = true ↔ ¬d.GoesOn env := by
  have hloop : Resumption env order (create d) _ := resumption_foldl hnodup (s := create d) rfl
  have hrunning : _ = 0 + ((order.countP fun x ↦ (d.resumed env x).running : Nat) : Int) := hloop.running
  have hretrying : _ = 0 + ((order.countP fun x ↦ (d.resumed env x).retrying : Nat) : Int) :=
    hloop.retrying
  have hle (p : Nat → Bool) : order.countP p < 2 ^ 32 := by
    apply Nat.lt_of_le_of_lt List.countP_le_length
    rw [horder.length_eq]
    exact hcount
  have hcounts : ((create d).resume env order).2 = true ↔
      (order.countP fun x ↦ (d.resumed env x).running) = 0 ∧
        (order.countP fun x ↦ (d.resumed env x).retrying) = 0 := by
    unfold resume workflowEnded runningTasks retryingTasks
    rw [decide_eq_true_eq, hrunning, hretrying, Int.zero_add, Int.zero_add, ofInt_eq_zero_iff (hle _),
      ofInt_eq_zero_iff (hle _)]
  rw [hcounts, List.countP_eq_zero, List.countP_eq_zero, goesOn_iff]
  constructor
  · intro h hgoes
    rcases hgoes with ⟨id, hid, hresumed⟩
    have hin := horder.mem_iff.mpr hid
    rcases hresumed with hresumed | hresumed
    · exact h.1 id hin hresumed
    · exact h.2 id hin hresumed
  · intro h
    constructor
    · exact fun id hid hresumed ↦ h ⟨id, horder.mem_iff.mp hid, .inl hresumed⟩
    · exact fun id hid hresumed ↦ h ⟨id, horder.mem_iff.mp hid, .inr hresumed⟩

end WorkflowInstance

namespace History

variable {savepointLevel : Nat} {h h' : History Node} {id : Nat}

/-- The instances that `WorkflowInstances` knows. -/
def alive (h : History Node) : List Nat := h.constructed.map Prod.fst ++ h.live.map Prod.fst

/-- The instances that are still to be resumed. -/
def pending (h : History Node) : List Nat :=
  match h.phase with
  | .resuming rest => rest
  | _ => []

/-- No workflow is `TERMINATED` from the start; on level 1 no instance ends while it is resumed, and what
the garbage collector deletes is older than something that stays. -/
def Guarded (savepointLevel : Nat) (h : History Node) : HistoryAction Node → Prop
  | .resume env _ => savepointLevel = 1 → ∀ id rest doc, h.phase = .resuming (id :: rest) →
      (h.table.rows.find? fun row ↦ row.id = id).bind HistoryRow.savepoint = some doc →
        doc.GoesOn env ∧ doc.found.length < 2 ^ 32
  | .construct _ status => status ≠ "TERMINATED"
  | .collect ids => savepointLevel = 1 → ∀ id ∈ h.table.ids, id ∈ ids →
      ∃ x ∈ h.table.ids ++ h.alive, x ∉ ids ∧ id ≤ x
  | _ => True

/-- The instance is not alive any more, and has its row, unless this was deleted. -/
structure Recorded (h : History Node) (p : Nat × UInt32) : Prop where
  given : p.1 ∈ h.given
  alive : p.1 ∉ h.alive
  pending : p.1 ∉ h.pending
  row : p.1 ∈ h.collected ∨
    ∃ row ∈ h.table.rows, row.id = p.1 ∧ row.status = .terminated ∧ row.errors = asInt p.2
  terminated : ∀ row ∈ h.table.rows, row.id = p.1 → row.status = .terminated

/-- On level 1: who has a row, and where the sequence is. -/
structure One (h : History Node) : Prop where
  insertable : h.phase = .up → ∀ id ∈ h.alive, id ∉ h.table.ids
  executing : ∀ rest, h.phase = .resuming rest → ∀ row ∈ h.table.rows, row.status = .executing →
    row.id ∈ rest ∨ row.id ∈ h.alive
  aliveExecuting : ∀ rest, h.phase = .resuming rest → ∀ row ∈ h.table.rows, row.id ∈ h.alive →
    row.status = .executing
  sequence : h.phase ≠ .down → ∀ id ∈ h.given, id < h.seq
  greatest : ∀ id ∈ h.given, ∃ x ∈ h.table.ids ++ h.alive, id ≤ x

/-- From level 2 on. -/
structure Two (h : History Node) : Prop where
  aliveRow : ∀ id ∈ h.alive, ∃ row ∈ h.table.rows, row.id = id ∧ row.status = .executing
  counted : ∀ id ∈ h.given, id < h.table.autoIncrement

structure Inv (savepointLevel : Nat) (h : History Node) : Prop where
  rowsNodup : h.table.ids.Nodup
  givenNodup : h.given.Nodup
  aliveNodup : h.alive.Nodup
  pendingNodup : h.pending.Nodup
  rowsGiven : ∀ id ∈ h.table.ids, id ∈ h.given
  aliveGiven : ∀ id ∈ h.alive, id ∈ h.given
  pendingAlive : ∀ id ∈ h.pending, id ∉ h.alive
  pendingRow : ∀ id ∈ h.pending, ∃ row ∈ h.table.rows, row.id = id ∧ row.status = .executing
  ended : ∀ p ∈ h.ended, h.Recorded p
  down : h.phase = .down → h.alive = []
  one : savepointLevel = 1 → h.One
  two : 2 ≤ savepointLevel → h.Two

theorem mem_executingIds {t : HistoryTable Node} :
    id ∈ t.executingIds ↔ ∃ row ∈ t.rows, row.id = id ∧ row.status = .executing := by
  unfold HistoryTable.executingIds
  rw [List.mem_map]
  constructor
  · intro hin
    rcases hin with ⟨row, hrow, heq⟩
    rw [List.mem_filter, decide_eq_true_eq] at hrow
    exact ⟨row, hrow.1, heq, hrow.2⟩
  · intro hin
    rcases hin with ⟨row, hrow, heq, hstatus⟩
    exact ⟨row, List.mem_filter.mpr ⟨hrow, decide_eq_true hstatus⟩, heq⟩

theorem row_unique {t : HistoryTable Node} (hnodup : t.ids.Nodup) {row row' : HistoryRow Node}
    (hrow : row ∈ t.rows) (hrow' : row' ∈ t.rows) (hid : row.id = row'.id) : row = row' :=
  List.inj_on_of_nodup_map hnodup hrow hrow' hid

theorem startUp_inv (hinv : Inv savepointLevel h) (hdown : h.phase = .down) {order : List Nat}
    (horder : order.Perm h.table.executingIds) :
    Inv savepointLevel { h with seq := h.table.maxId + 1, phase := .resuming order } := by
  have halive : ∀ id, id ∉ h.alive := by
    intro id hin
    rw [hinv.down hdown] at hin
    cases hin
  constructor
  case rowsNodup => exact hinv.rowsNodup
  case givenNodup => exact hinv.givenNodup
  case aliveNodup => exact hinv.aliveNodup
  case pendingNodup =>
    apply horder.nodup_iff.mpr
    exact hinv.rowsNodup.sublist (List.filter_sublist.map _)
  case rowsGiven => exact hinv.rowsGiven
  case aliveGiven => exact hinv.aliveGiven
  case pendingAlive => exact fun id _ ↦ halive id
  case pendingRow => exact fun id hid ↦ mem_executingIds.mp (horder.mem_iff.mp hid)
  case ended =>
    intro p hp
    have hold := hinv.ended p hp
    refine ⟨hold.given, halive p.1, ?_, hold.row, hold.terminated⟩
    intro hin
    rcases mem_executingIds.mp (horder.mem_iff.mp hin) with ⟨row, hrow, heq, hstatus⟩
    rw [hold.terminated row hrow heq] at hstatus
    cases hstatus
  case down => exact nofun
  case one =>
    intro hlevel
    have hone := hinv.one hlevel
    constructor
    case insertable => exact nofun
    case executing =>
      intro rest hrest row hrow hstatus
      obtain rfl : order = rest := by simpa using hrest
      exact .inl (horder.mem_iff.mpr (mem_executingIds.mpr ⟨row, hrow, rfl, hstatus⟩))
    case aliveExecuting => exact fun _ _ row _ hin ↦ absurd hin (halive row.id)
    case sequence =>
      intro _ id hid
      rcases hone.greatest id hid with ⟨x, hx, hle⟩
      rcases List.mem_append.mp hx with hx | hx
      · have hmax := HistoryTable.le_maxId hx
        show id < h.table.maxId + 1
        omega
      · exact absurd hx (halive x)
    case greatest => exact hone.greatest
  case two => exact fun hlevel ↦ ⟨(hinv.two hlevel).aliveRow, (hinv.two hlevel).counted⟩

/-! ## A savepoint is recorded -/

/-- At most the row of `id` changes. -/
structure Touches (id : Nat) (t t' : HistoryTable Node) : Prop where
  nodup : t.ids.Nodup → t'.ids.Nodup
  ids : ∀ x ∈ t'.ids, x ∈ t.ids ∨ x = id
  kept : ∀ x ∈ t.ids, x ∈ t'.ids
  others : ∀ row : HistoryRow Node, row.id ≠ id → (row ∈ t'.rows ↔ row ∈ t.rows)

theorem Touches.refl (id : Nat) (t : HistoryTable Node) : Touches id t t :=
  ⟨fun h ↦ h, fun _ h ↦ .inl h, fun _ h ↦ h, fun _ _ ↦ Iff.rfl⟩

theorem touches_insert (t : HistoryTable Node) (row : HistoryRow Node) :
    Touches row.id t (t.insert row) := by
  constructor
  case nodup => exact fun h ↦ HistoryTable.insert_nodup h row
  case ids => exact fun x hx ↦ (HistoryTable.mem_ids_insert row x).mp hx
  case kept => exact fun x hx ↦ (HistoryTable.mem_ids_insert row x).mpr (.inl hx)
  case others =>
    intro row' hne
    constructor
    · intro hin
      unfold HistoryTable.insert at hin
      split at hin
      · exact hin
      · rcases List.mem_append.mp hin with hin | hin
        · exact hin
        · rw [List.mem_singleton.mp hin] at hne
          exact absurd rfl hne
    · exact HistoryTable.mem_insert

theorem touches_update (t : HistoryTable Node) (id : Nat) {f : HistoryRow Node → HistoryRow Node}
    (hf : ∀ row, (f row).id = row.id) : Touches id t (t.update id f) := by
  have hids := HistoryTable.ids_update t id hf
  constructor
  case nodup =>
    intro hnodup
    rw [hids]
    exact hnodup
  case ids =>
    intro x hx
    rw [hids] at hx
    exact .inl hx
  case kept =>
    intro x hx
    rw [hids]
    exact hx
  case others =>
    intro row hne
    constructor
    · intro hin
      rcases HistoryTable.mem_update.mp hin with ⟨row', hrow', heq⟩
      by_cases hid : row'.id = id
      · rw [if_pos hid] at heq
        rw [← heq, hf] at hne
        exact absurd hid hne
      · rw [if_neg hid] at heq
        rw [← heq]
        exact hrow'
    · exact fun hin ↦ HistoryTable.mem_update_of_ne hin hne

theorem touches_recordSavepoint (hlevel : 1 ≤ savepointLevel) (t : HistoryTable Node) (force : Bool)
    (id : Nat) (s : WorkflowInstance Node) (terminated : Bool) :
    Touches id t (t.recordSavepoint savepointLevel force id s terminated) := by
  by_cases htwo : 2 ≤ savepointLevel
  · rcases HistoryTable.recordSavepoint_two htwo t force id s terminated with ⟨f, heq, hf, -⟩
    rw [heq]
    exact touches_update t id hf
  · obtain rfl : savepointLevel = 1 := by omega
    rw [HistoryTable.recordSavepoint_one]
    split
    · exact touches_insert t ⟨id, _, _, _⟩
    · exact Touches.refl id t

/-- The row of an instance that has ended, and that could be inserted or had a row. -/
theorem recordSavepoint_ended (hlevel : 1 ≤ savepointLevel) {t : HistoryTable Node}
    (hone : savepointLevel = 1 → id ∉ t.ids) (htwo : 2 ≤ savepointLevel → id ∈ t.ids) (force : Bool)
    (s : WorkflowInstance Node) :
    ∃ row ∈ (t.recordSavepoint savepointLevel force id s true).rows,
      row.id = id ∧ row.status = .terminated ∧ row.errors = asInt s.errorTasks := by
  by_cases hupdate : 2 ≤ savepointLevel
  · rcases HistoryTable.recordSavepoint_two hupdate t force id s true with ⟨f, heq, hf, -, hstatus⟩
    rcases List.mem_map.mp (htwo hupdate) with ⟨row, hrow, hid⟩
    rw [heq]
    exact ⟨f row, HistoryTable.mem_update_self hrow hid, (hf row).trans hid, hstatus rfl row⟩
  · obtain rfl : savepointLevel = 1 := by omega
    rw [HistoryTable.recordSavepoint_one, if_pos (.inl rfl)]
    exact ⟨_, HistoryTable.mem_insert_self (hone rfl), rfl, rfl, rfl⟩

/-- The status of an instance that goes on stays as it is. -/
theorem recordSavepoint_goesOn (hlevel : 1 ≤ savepointLevel) (t : HistoryTable Node)
    (s : WorkflowInstance Node) (status : InstanceStatus) :
    (∃ row ∈ (t.recordSavepoint savepointLevel false id s false).rows,
      row.id = id ∧ row.status = status) ↔ ∃ row ∈ t.rows, row.id = id ∧ row.status = status := by
  by_cases htwo : 2 ≤ savepointLevel
  · rcases HistoryTable.recordSavepoint_two htwo t false id s false with ⟨f, heq, hf, hstatus, -⟩
    rw [heq]
    constructor
    · intro hin
      rcases hin with ⟨row', hrow', hid, hsame⟩
      rcases HistoryTable.mem_update.mp hrow' with ⟨row, hrow, heq⟩
      refine ⟨row, hrow, ?_⟩
      by_cases hrid : row.id = id
      · rw [if_pos hrid] at heq
        rw [← heq, hstatus rfl] at hsame
        exact ⟨hrid, hsame⟩
      · rw [if_neg hrid] at heq
        rw [heq] at hrid
        exact absurd hid hrid
    · intro hin
      rcases hin with ⟨row, hrow, hid, hsame⟩
      exact ⟨f row, HistoryTable.mem_update_self hrow hid, (hf row).trans hid,
        (hstatus rfl row).trans hsame⟩
  · obtain rfl : savepointLevel = 1 := by omega
    rw [HistoryTable.recordSavepoint_one]
    exact Iff.rfl

/-- The other instances that have ended keep their rows. -/
theorem Recorded.touched {p : Nat × UInt32} (hp : h.Recorded p) (hne : p.1 ≠ id)
    (htouches : Touches id h.table h'.table) (hgiven : ∀ x ∈ h.given, x ∈ h'.given)
    (halive : ∀ x ∈ h'.alive, x ∈ h.alive ∨ x = id) (hpending : ∀ x ∈ h'.pending, x ∈ h.pending)
    (hcollected : h'.collected = h.collected) : h'.Recorded p := by
  constructor
  case given => exact hgiven p.1 hp.given
  case alive => exact fun hin ↦ (halive p.1 hin).elim hp.alive hne
  case pending => exact fun hin ↦ hp.pending (hpending p.1 hin)
  case row =>
    rw [hcollected]
    rcases hp.row with hin | ⟨row, hrow, hid, hstatus⟩
    · exact .inl hin
    · exact .inr ⟨row, (htouches.others row (hid ▸ hne)).mpr hrow, hid, hstatus⟩
  case terminated =>
    intro row hrow hid
    exact hp.terminated row ((htouches.others row (hid ▸ hne)).mp hrow) hid

/-! ## Behind a call -/

/-- The instance is taken from where it was, and is settled. -/
def settleFrom (savepointLevel : Nat) (h : History Node) (id : Nat)
    (result : WorkflowInstance Node × Bool) : History Node :=
  { h with constructed := h.constructed.filter fun p ↦ p.1 ≠ id }.settle savepointLevel id result

variable {result : WorkflowInstance Node × Bool}

theorem mem_map_filter {α : Type} {xs : List (Nat × α)} {x : Nat} :
    x ∈ (xs.filter fun p ↦ p.1 ≠ id).map Prod.fst ↔ x ∈ xs.map Prod.fst ∧ x ≠ id := by
  rw [List.mem_map, List.mem_map]
  constructor
  · intro hin
    rcases hin with ⟨p, hp, heq⟩
    rw [List.mem_filter, decide_eq_true_eq] at hp
    rw [← heq]
    exact ⟨⟨p, hp.1, rfl⟩, hp.2⟩
  · intro hin
    rcases hin with ⟨⟨p, hp, heq⟩, hne⟩
    rw [← heq] at hne
    exact ⟨p, List.mem_filter.mpr ⟨hp, decide_eq_true hne⟩, heq⟩

theorem mem_alive_settleFrom {x : Nat} : x ∈ (h.settleFrom savepointLevel id result).alive ↔
    (x ∈ h.alive ∧ x ≠ id) ∨ (x = id ∧ result.2 = false) := by
  unfold settleFrom settle alive
  dsimp only
  rw [List.map_append, List.mem_append, List.mem_append, List.mem_append, mem_map_filter,
    mem_map_filter]
  cases result.2 with
  | true => simp; tauto
  | false => simp; tauto

theorem settleFrom_nodup (hnodup : h.alive.Nodup) :
    (h.settleFrom savepointLevel id result).alive.Nodup := by
  unfold alive at hnodup
  unfold settleFrom settle alive
  dsimp only
  have hrest : ((h.constructed.filter fun p ↦ p.1 ≠ id).map Prod.fst ++
      (h.live.filter fun p ↦ p.1 ≠ id).map Prod.fst).Nodup :=
    hnodup.sublist ((List.filter_sublist.map _).append (List.filter_sublist.map _))
  rw [List.map_append, ← List.append_assoc]
  cases result.2 with
  | true =>
    rw [if_pos rfl, List.map_nil, List.append_nil]
    exact hrest
  | false =>
    rw [if_neg Bool.false_ne_true]
    apply nodup_snoc hrest
    rw [List.mem_append, mem_map_filter, mem_map_filter]
    exact fun hin ↦ hin.elim (fun hin ↦ hin.2 rfl) fun hin ↦ hin.2 rfl

/-- On level 1 nothing is recorded of an instance that goes on. -/
theorem table_settleFrom_one (hnot : result.2 = false) : (h.settleFrom 1 id result).table = h.table := by
  show h.table.recordSavepoint 1 false id result.1 result.2 = h.table
  rw [HistoryTable.recordSavepoint_one, hnot]
  exact if_neg (by decide)

theorem autoIncrement_settleFrom (htwo : 2 ≤ savepointLevel) :
    (h.settleFrom savepointLevel id result).table.autoIncrement = h.table.autoIncrement := by
  show (h.table.recordSavepoint savepointLevel false id result.1 result.2).autoIncrement = _
  rcases HistoryTable.recordSavepoint_two htwo h.table false id result.1 result.2 with ⟨f, heq, -⟩
  rw [heq]
  rfl

/-- The row of an instance that has just ended. -/
theorem Inv.endedRow (hlevel : 1 ≤ savepointLevel) (hinv : Inv savepointLevel h) (hid : id ∈ h.alive)
    (hend : savepointLevel = 1 → h.phase = .up) (hresult : result.2 = true) :
    ∃ row ∈ (h.settleFrom savepointLevel id result).table.rows,
      row.id = id ∧ row.status = .terminated ∧ row.errors = asInt result.1.errorTasks := by
  show ∃ row ∈ (h.table.recordSavepoint savepointLevel false id result.1 result.2).rows, _
  rw [hresult]
  apply recordSavepoint_ended hlevel
  · exact fun hone ↦ (hinv.one hone).insertable (hend hone) id hid
  · intro htwo
    rcases (hinv.two htwo).aliveRow id hid with ⟨row, hrow, heq, -⟩
    rw [← heq]
    exact HistoryTable.mem_ids_of_mem hrow

theorem Inv.recorded (hlevel : 1 ≤ savepointLevel) (hinv : Inv savepointLevel h) (hid : id ∈ h.alive)
    (hend : savepointLevel = 1 → h.phase = .up) (hresult : result.2 = true) :
    (h.settleFrom savepointLevel id result).Recorded (id, result.1.errorTasks) := by
  have htouches := touches_recordSavepoint hlevel h.table false id result.1 result.2
  have hrow := hinv.endedRow hlevel hid hend hresult
  constructor
  case given => exact hinv.aliveGiven id hid
  case alive =>
    intro hin
    rcases mem_alive_settleFrom.mp hin with ⟨-, hne⟩ | ⟨-, hnot⟩
    · exact hne rfl
    · rw [hresult] at hnot
      cases hnot
  case pending => exact fun hin ↦ hinv.pendingAlive id hin hid
  case row => exact .inr hrow
  case terminated =>
    intro row' hrow' hid'
    rcases hrow with ⟨row, hrow, heq, hstatus, -⟩
    rw [row_unique (htouches.nodup hinv.rowsNodup) hrow' hrow (hid'.trans heq.symm)]
    exact hstatus

theorem touches_settleFrom (h : History Node) (id : Nat) (result : WorkflowInstance Node × Bool)
    (hlevel : 1 ≤ savepointLevel) :
    Touches id h.table (h.settleFrom savepointLevel id result).table :=
  touches_recordSavepoint hlevel h.table false id result.1 result.2

theorem mem_alive_of_settleFrom (hid : id ∈ h.alive) {x : Nat}
    (hx : x ∈ (h.settleFrom savepointLevel id result).alive) : x ∈ h.alive := by
  rcases mem_alive_settleFrom.mp hx with ⟨hin, -⟩ | ⟨heq, -⟩
  · exact hin
  · rw [heq]
    exact hid

/-- On level 1 an instance that goes on leaves the table as it is, and one that ends gets its row. -/
theorem settleFrom_one (hinv : Inv 1 h) (hid : id ∈ h.alive) (hend : result.2 = true → h.phase = .up) :
    One (h.settleFrom 1 id result) := by
  have hone := hinv.one rfl
  have htouches := touches_settleFrom h id result (Nat.le_refl 1)
  have hsame : ∀ rest, h.phase = .resuming rest → result.2 = false := by
    intro rest hphase
    cases hresult : result.2 with
    | false => rfl
    | true =>
      rw [hend hresult] at hphase
      cases hphase
  constructor
  case insertable =>
    intro hup x hx hin
    have hnot := hone.insertable hup x (mem_alive_of_settleFrom hid hx)
    rcases htouches.ids x hin with hin' | heq
    · exact hnot hin'
    · rcases mem_alive_settleFrom.mp hx with ⟨-, hne⟩ | ⟨-, hresult⟩
      · exact hne heq
      · rw [table_settleFrom_one hresult] at hin
        exact hnot hin
  case executing =>
    intro rest hphase row hrow hstatus
    have hresult := hsame rest hphase
    rw [table_settleFrom_one hresult] at hrow
    rcases hone.executing rest hphase row hrow hstatus with hin | hin
    · exact .inl hin
    · apply Or.inr
      rw [mem_alive_settleFrom]
      by_cases heq : row.id = id
      · exact .inr ⟨heq, hresult⟩
      · exact .inl ⟨hin, heq⟩
  case aliveExecuting =>
    intro rest hphase row hrow hin
    rw [table_settleFrom_one (hsame rest hphase)] at hrow
    exact hone.aliveExecuting rest hphase row hrow (mem_alive_of_settleFrom hid hin)
  case sequence => exact hone.sequence
  case greatest =>
    intro g hg
    rcases hone.greatest g hg with ⟨x, hx, hle⟩
    refine ⟨x, ?_, hle⟩
    rw [List.mem_append] at hx ⊢
    rcases hx with hx | hx
    · exact .inl (htouches.kept x hx)
    · by_cases heq : x = id
      · cases hresult : result.2 with
        | false => exact .inr (mem_alive_settleFrom.mpr (.inr ⟨heq, hresult⟩))
        | true =>
          -- the one that ended has the row in place of its entry
          rcases hinv.endedRow (Nat.le_refl 1) hid (fun _ ↦ hend hresult) hresult with
            ⟨row, hrow, hrid, -⟩
          have hin := HistoryTable.mem_ids_of_mem hrow
          rw [hrid] at hin
          rw [heq]
          exact .inl hin
      · exact .inr (mem_alive_settleFrom.mpr (.inl ⟨hx, heq⟩))

theorem settleFrom_two (htwo : 2 ≤ savepointLevel) (hold : h.Two) (hid : id ∈ h.alive) :
    Two (h.settleFrom savepointLevel id result) := by
  have hlevel : 1 ≤ savepointLevel := by omega
  constructor
  case aliveRow =>
    intro x hx
    rcases mem_alive_settleFrom.mp hx with ⟨hin, hne⟩ | ⟨heq, hresult⟩
    · rcases hold.aliveRow x hin with ⟨row, hrow, hrid, hstatus⟩
      exact ⟨row, ((touches_settleFrom h id result hlevel).others row (hrid ▸ hne)).mpr hrow, hrid, hstatus⟩
    · have hrow := (recordSavepoint_goesOn hlevel h.table result.1 .executing).mpr
        (hold.aliveRow id hid)
      rw [heq]
      show ∃ row ∈ (h.table.recordSavepoint savepointLevel false id result.1 result.2).rows, _
      rw [hresult]
      exact hrow
  case counted =>
    intro x hx
    rw [autoIncrement_settleFrom htwo]
    exact hold.counted x hx

/-- What an instance does that is known; on level 1 it may not end in the resume loop. -/
theorem settleFrom_inv (result : WorkflowInstance Node × Bool) (hlevel : 1 ≤ savepointLevel)
    (hinv : Inv savepointLevel h) (hid : id ∈ h.alive)
    (hend : savepointLevel = 1 → result.2 = true → h.phase = .up) :
    Inv savepointLevel (h.settleFrom savepointLevel id result) := by
  have htouches := touches_settleFrom h id result hlevel
  have halive : ∀ x ∈ (h.settleFrom savepointLevel id result).alive, x ∈ h.alive :=
    fun _ hx ↦ mem_alive_of_settleFrom hid hx
  constructor
  case rowsNodup => exact htouches.nodup hinv.rowsNodup
  case givenNodup => exact hinv.givenNodup
  case aliveNodup => exact settleFrom_nodup hinv.aliveNodup
  case pendingNodup => exact hinv.pendingNodup
  case rowsGiven =>
    intro x hx
    rcases htouches.ids x hx with hin | heq
    · exact hinv.rowsGiven x hin
    · rw [heq]
      exact hinv.aliveGiven id hid
  case aliveGiven => exact fun x hx ↦ hinv.aliveGiven x (halive x hx)
  case pendingAlive => exact fun x hx hin ↦ hinv.pendingAlive x hx (halive x hin)
  case pendingRow =>
    intro x hx
    rcases hinv.pendingRow x hx with ⟨row, hrow, heq, hstatus⟩
    have hne : row.id ≠ id := by
      intro hsame
      rw [← heq, hsame] at hx
      exact hinv.pendingAlive id hx hid
    exact ⟨row, (htouches.others row hne).mpr hrow, heq, hstatus⟩
  case ended =>
    intro p hp
    rcases List.mem_append.mp hp with hp | hp
    · have hold := hinv.ended p hp
      have hne : p.1 ≠ id := fun heq ↦ hold.alive (heq ▸ hid)
      exact hold.touched hne htouches (fun _ hin ↦ hin) (fun x hx ↦ .inl (halive x hx))
        (fun _ hin ↦ hin) rfl
    · -- the instance itself ended just now, or it lives on
      cases hresult : result.2 with
      | false =>
        rw [hresult] at hp
        cases hp
      | true =>
        rw [hresult, if_pos rfl, List.mem_singleton] at hp
        rw [hp]
        exact hinv.recorded hlevel hid (fun hone ↦ hend hone hresult) hresult
  case down =>
    intro hdown
    have hnone := hinv.down hdown
    rw [hnone] at hid
    cases hid
  case one =>
    intro heq
    subst heq
    exact settleFrom_one hinv hid (hend rfl)
  case two => exact fun htwo ↦ settleFrom_two htwo (hinv.two htwo) hid

/-- One more is constructed. -/
theorem constructed_perm {doc : Document Node} :
    ((h.constructed ++ [(id, doc)]).map Prod.fst ++ h.live.map Prod.fst).Perm (id :: h.alive) := by
  rw [List.map_append, List.append_assoc]
  exact List.perm_middle

theorem mem_alive_constructed {doc : Document Node} {x : Nat} :
    x ∈ (h.constructed ++ [(id, doc)]).map Prod.fst ++ h.live.map Prod.fst ↔ x ∈ h.alive ∨ x = id := by
  rw [constructed_perm.mem_iff, List.mem_cons, or_comm]

/-! ## The resume loop -/

theorem pending_resuming {rest : List Nat} (hphase : h.phase = .resuming rest) : h.pending = rest := by
  unfold pending
  rw [hphase]

/-- An instance of the query is constructed from its savepoint. -/
theorem take_inv (hinv : Inv savepointLevel h) {rest : List Nat} (hphase : h.phase = .resuming (id :: rest))
    (doc : Document Node) :
    Inv savepointLevel { h with
      phase := .resuming rest
      constructed := h.constructed ++ [(id, doc)] } := by
  have hpending := pending_resuming hphase
  have hnodup := hinv.pendingNodup
  rw [hpending, List.nodup_cons] at hnodup
  have hid : id ∈ h.pending := by
    rw [hpending]
    exact List.mem_cons_self
  -- what is to be resumed is not alive yet
  have hnot : id ∉ h.alive := hinv.pendingAlive id hid
  have hrest : ∀ x ∈ rest, x ∈ h.pending := by
    intro x hx
    rw [hpending]
    exact List.mem_cons_of_mem _ hx
  rcases hinv.pendingRow id hid with ⟨row, hrow, hrid, hstatus⟩
  constructor
  case rowsNodup => exact hinv.rowsNodup
  case givenNodup => exact hinv.givenNodup
  case aliveNodup => exact constructed_perm.nodup_iff.mpr (List.nodup_cons.mpr ⟨hnot, hinv.aliveNodup⟩)
  case pendingNodup => exact hnodup.2
  case rowsGiven => exact hinv.rowsGiven
  case aliveGiven =>
    intro x hx
    rcases mem_alive_constructed.mp hx with hin | heq
    · exact hinv.aliveGiven x hin
    · rw [heq, ← hrid]
      exact hinv.rowsGiven row.id (HistoryTable.mem_ids_of_mem hrow)
  case pendingAlive =>
    intro x hx hin
    rcases mem_alive_constructed.mp hin with hin | heq
    · exact hinv.pendingAlive x (hrest x hx) hin
    · rw [heq] at hx
      exact hnodup.1 hx
  case pendingRow => exact fun x hx ↦ hinv.pendingRow x (hrest x hx)
  case ended =>
    intro p hp
    have hold := hinv.ended p hp
    refine ⟨hold.given, ?_, fun hin ↦ hold.pending (hrest _ hin), hold.row, hold.terminated⟩
    intro hin
    rcases mem_alive_constructed.mp hin with hin | heq
    · exact hold.alive hin
    · exact hold.pending (heq ▸ hid)
  case down => exact nofun
  case one =>
    intro hlevel
    have hone := hinv.one hlevel
    constructor
    case insertable => exact nofun
    case executing =>
      intro rest' hrest' row hrow hstatus
      obtain rfl : rest = rest' := by simpa using hrest'
      -- the row of the instance that is taken is now one of a live instance
      rcases hone.executing _ hphase row hrow hstatus with hin | hin
      · rcases List.mem_cons.mp hin with heq | hin
        · exact .inr (mem_alive_constructed.mpr (.inr heq))
        · exact .inl hin
      · exact .inr (mem_alive_constructed.mpr (.inl hin))
    case aliveExecuting =>
      intro _ _ row' hrow' hin
      rcases mem_alive_constructed.mp hin with hin | heq
      · exact hone.aliveExecuting _ hphase row' hrow' hin
      · rw [row_unique hinv.rowsNodup hrow' hrow (heq.trans hrid.symm)]
        exact hstatus
    case sequence => exact fun _ ↦ hone.sequence (by rw [hphase]; exact nofun)
    case greatest =>
      intro g hg
      rcases hone.greatest g hg with ⟨x, hx, hle⟩
      refine ⟨x, ?_, hle⟩
      rw [List.mem_append] at hx ⊢
      exact hx.imp_right fun hx ↦ mem_alive_constructed.mpr (.inl hx)
  case two =>
    intro htwo
    have hold := hinv.two htwo
    refine ⟨?_, hold.counted⟩
    intro x hx
    rcases mem_alive_constructed.mp hx with hin | heq
    · exact hold.aliveRow x hin
    · rw [heq]
      exact ⟨row, hrow, hrid, hstatus⟩

/-- A row with an empty savepoint is given up. -/
theorem giveUp_inv (hinv : Inv savepointLevel h) {rest : List Nat}
    (hphase : h.phase = .resuming (id :: rest)) :
    Inv savepointLevel { h with
      table := h.table.update id fun row ↦ { row with status := .terminated }
      phase := .resuming rest } := by
  have hpending := pending_resuming hphase
  have hnodup := hinv.pendingNodup
  rw [hpending, List.nodup_cons] at hnodup
  have hid : id ∈ h.pending := by
    rw [hpending]
    exact List.mem_cons_self
  have hrest : ∀ x ∈ rest, x ∈ h.pending := by
    intro x hx
    rw [hpending]
    exact List.mem_cons_of_mem _ hx
  have hnot : id ∉ h.alive := hinv.pendingAlive id hid
  have hids := HistoryTable.ids_update h.table id
    (f := fun row ↦ { row with status := .terminated }) fun _ ↦ rfl
  have hterminated : ∀ row ∈ (h.table.update id fun row ↦ { row with status := .terminated }).rows,
      row.id = id → row.status = .terminated := by
    intro row' hrow' heq
    rcases HistoryTable.mem_update.mp hrow' with ⟨row, -, hrow⟩
    split at hrow
    · rw [← hrow]
    · rename_i hne
      rw [hrow] at hne
      exact absurd heq hne
  have htouches : Touches id h.table (h.table.update id fun row ↦ { row with status := .terminated }) :=
    touches_update h.table id fun _ ↦ rfl
  constructor
  case rowsNodup => exact htouches.nodup hinv.rowsNodup
  case givenNodup => exact hinv.givenNodup
  case aliveNodup => exact hinv.aliveNodup
  case pendingNodup => exact hnodup.2
  case rowsGiven =>
    intro x hx
    rw [hids] at hx
    exact hinv.rowsGiven x hx
  case aliveGiven => exact hinv.aliveGiven
  case pendingAlive => exact fun x hx ↦ hinv.pendingAlive x (hrest x hx)
  case pendingRow =>
    intro x hx
    rcases hinv.pendingRow x (hrest x hx) with ⟨row, hrow, heq, hstatus⟩
    have hne : row.id ≠ id := by
      intro hsame
      rw [← heq, hsame] at hx
      exact hnodup.1 hx
    exact ⟨row, (htouches.others row hne).mpr hrow, heq, hstatus⟩
  case ended =>
    intro p hp
    -- what has ended is not among what is still to be resumed
    have hold := hinv.ended p hp
    exact hold.touched (fun heq ↦ hold.pending (heq ▸ hid)) htouches (fun _ hin ↦ hin)
      (fun _ hin ↦ .inl hin) hrest rfl
  case down => exact nofun
  case one =>
    intro hlevel
    have hone := hinv.one hlevel
    constructor
    case insertable => exact nofun
    case executing =>
      intro rest' hrest' row hrow hstatus
      -- its own row is terminated; any other one is still pending or alive
      obtain rfl : rest = rest' := by simpa using hrest'
      have hne : row.id ≠ id := by
        intro heq
        rw [hterminated row hrow heq] at hstatus
        cases hstatus
      rcases hone.executing _ hphase row ((htouches.others row hne).mp hrow) hstatus with hin | hin
      · exact .inl ((List.mem_cons.mp hin).resolve_left hne)
      · exact .inr hin
    case aliveExecuting =>
      intro _ _ row hrow hin
      have hne : row.id ≠ id := fun heq ↦ hnot (heq ▸ hin)
      exact hone.aliveExecuting _ hphase row ((htouches.others row hne).mp hrow) hin
    case sequence => exact fun _ ↦ hone.sequence (by rw [hphase]; exact nofun)
    case greatest =>
      intro g hg
      rcases hone.greatest g hg with ⟨x, hx, hle⟩
      refine ⟨x, ?_, hle⟩
      rw [List.mem_append] at hx ⊢
      exact hx.imp_left (htouches.kept x)
  case two =>
    intro htwo
    have hold := hinv.two htwo
    refine ⟨?_, hold.counted⟩
    intro x hx
    rcases hold.aliveRow x hx with ⟨row, hrow, hrid, hstatus⟩
    have hne : x ≠ id := fun heq ↦ hnot (heq ▸ hx)
    exact ⟨row, (htouches.others row (hrid ▸ hne)).mpr hrow, hrid, hstatus⟩

theorem resume_inv (hlevel : 1 ≤ savepointLevel) (hinv : Inv savepointLevel h)
    {env : Environment Node} {order : List Nat} (hok : Guarded savepointLevel h (.resume env order))
    (hstep : h.resumeNext savepointLevel env order = some h') : Inv savepointLevel h' := by
  unfold resumeNext at hstep
  rcases hphase : h.phase with _ | (_ | ⟨id, rest⟩) | _
  · simp [hphase] at hstep
  · simp [hphase] at hstep
  · simp only [hphase] at hstep
    cases hdoc : (h.table.rows.find? fun row ↦ row.id = id).bind HistoryRow.savepoint with
    | none =>
      simp only [hdoc, Option.some.injEq] at hstep
      rw [← hstep]
      exact giveUp_inv hinv hphase
    | some doc =>
      simp only [hdoc] at hstep
      by_cases horder : order.Nodup ∧ order.Perm doc.found
      · rw [if_pos horder, Option.some.injEq] at hstep
        rw [← hstep]
        have htaken := take_inv hinv hphase doc
        have hid : id ∈ ({ h with
            phase := .resuming rest
            constructed := h.constructed ++ [(id, doc)] } : History Node).alive := by
          simp [alive]
        have hsettled := settleFrom_inv ((WorkflowInstance.create doc).resume env order)
          hlevel htaken hid ?_
        · -- it was not among the constructed ones before
          have hconstructed : (h.constructed ++ [(id, doc)]).filter (fun p ↦ p.1 ≠ id) =
              h.constructed := by
            have hpending : id ∈ h.pending := by
              rw [pending_resuming hphase]
              exact List.mem_cons_self
            have hnot := hinv.pendingAlive id hpending
            rw [List.filter_append, List.filter_cons_of_neg (by simp), List.filter_nil,
              List.append_nil, List.filter_eq_self]
            intro p hp
            rw [decide_eq_true_eq]
            intro heq
            apply hnot
            unfold alive
            rw [← heq]
            exact List.mem_append_left _ (List.mem_map_of_mem hp)
          unfold settleFrom at hsettled
          dsimp only at hsettled
          rw [hconstructed] at hsettled
          exact hsettled
        · intro hone hended
          have hgoes := hok hone id rest doc hphase hdoc
          exact absurd hgoes.1
            ((WorkflowInstance.resume_ended_iff horder.1 horder.2 hgoes.2).mp hended)
      · rw [if_neg horder] at hstep
        cases hstep
  · simp [hphase] at hstep

theorem purge_inv (hinv : Inv savepointLevel h) (hphase : h.phase = .resuming []) :
    Inv savepointLevel { h with
      table := if savepointLevel ≤ 1 then h.table.delete fun row ↦ row.status = .executing else h.table
      phase := .up } := by
  have hkept : ∀ row ∈ h.table.rows, row.status = .terminated →
      row ∈ (if savepointLevel ≤ 1 then h.table.delete fun row ↦ row.status = .executing
        else h.table).rows := by
    intro row hrow hstatus
    split
    · exact HistoryTable.mem_delete.mpr ⟨hrow, by rw [hstatus]; rfl⟩
    · exact hrow
  have hsub : (if savepointLevel ≤ 1 then h.table.delete fun row ↦ row.status = .executing
      else h.table).rows.Sublist h.table.rows := by
    split
    · exact List.filter_sublist
    · exact List.Sublist.refl _
  have hids := hsub.map HistoryRow.id
  constructor
  case rowsNodup => exact hinv.rowsNodup.sublist hids
  case givenNodup => exact hinv.givenNodup
  case aliveNodup => exact hinv.aliveNodup
  case pendingNodup => exact List.nodup_nil
  case rowsGiven => exact fun x hx ↦ hinv.rowsGiven x (hids.subset hx)
  case aliveGiven => exact hinv.aliveGiven
  case pendingAlive => exact fun x hx ↦ absurd hx List.not_mem_nil
  case pendingRow => exact fun x hx ↦ absurd hx List.not_mem_nil
  case ended =>
    intro p hp
    have hold := hinv.ended p hp
    refine ⟨hold.given, hold.alive, List.not_mem_nil, ?_, ?_⟩
    · rcases hold.row with hin | ⟨row, hrow, hid, hstatus, herrors⟩
      · exact .inl hin
      · exact .inr ⟨row, hkept row hrow hstatus, hid, hstatus, herrors⟩
    · exact fun row hrow hid ↦ hold.terminated row (hsub.subset hrow) hid
  case down => exact nofun
  case one =>
    intro hlevel
    have hone := hinv.one hlevel
    rw [if_pos (by omega)]
    constructor
    case insertable =>
      intro _ x hx hin
      rcases List.mem_map.mp hin with ⟨row, hrow, heq⟩
      rw [HistoryTable.mem_delete, decide_eq_false_iff_not] at hrow
      exact hrow.2 (hone.aliveExecuting [] hphase row hrow.1 (heq ▸ hx))
    case executing => exact nofun
    case aliveExecuting => exact nofun
    case sequence => exact fun _ ↦ hone.sequence (by rw [hphase]; exact nofun)
    case greatest =>
      intro g hg
      rcases hone.greatest g hg with ⟨x, hx, hle⟩
      refine ⟨x, ?_, hle⟩
      rw [List.mem_append] at hx ⊢
      rcases hx with hx | hx
      · rcases List.mem_map.mp hx with ⟨row, hrow, heq⟩
        cases hstatus : row.status with
        | terminated =>
          rw [← heq]
          exact .inl (List.mem_map_of_mem (HistoryTable.mem_delete.mpr ⟨hrow, by rw [hstatus]; rfl⟩))
        | executing =>
          -- its instance was resumed
          rcases hone.executing [] hphase row hrow hstatus with hin | hin
          · cases hin
          · rw [← heq]
            exact .inr hin
      · exact .inr hx
  case two =>
    intro htwo
    have hold := hinv.two htwo
    rw [if_neg (by omega)]
    exact ⟨hold.aliveRow, hold.counted⟩

/-! ## A new instance -/

theorem touches_insertNew {t : HistoryTable Node} (hnew : t.autoIncrement ∉ t.ids) :
    Touches t.autoIncrement t t.insertNew.1 := by
  constructor
  case nodup =>
    intro hnodup
    show ((t.rows ++ [_]).map HistoryRow.id).Nodup
    rw [List.map_append]
    exact nodup_snoc hnodup hnew
  case ids =>
    intro x hx
    have hx : x ∈ (t.rows ++ [_]).map HistoryRow.id := hx
    rw [List.map_append, List.mem_append] at hx
    exact hx.imp_right List.mem_singleton.mp
  case kept =>
    intro x hx
    show x ∈ (t.rows ++ [_]).map HistoryRow.id
    rw [List.map_append]
    exact List.mem_append_left _ hx
  case others =>
    intro row hne
    show row ∈ t.rows ++ [_] ↔ row ∈ t.rows
    rw [List.mem_append]
    constructor
    · intro hin
      rcases hin with hin | hin
      · exact hin
      · rw [List.mem_singleton.mp hin] at hne
        exact absurd rfl hne
    · exact Or.inl

theorem Touches.trans {t t' t'' : HistoryTable Node} (htouches : Touches id t t')
    (htouches' : Touches id t' t'') : Touches id t t'' := by
  constructor
  case nodup => exact fun hnodup ↦ htouches'.nodup (htouches.nodup hnodup)
  case ids => exact fun x hx ↦ (htouches'.ids x hx).elim (htouches.ids x) .inr
  case kept => exact fun x hx ↦ htouches'.kept x (htouches.kept x hx)
  case others => exact fun row hne ↦ (htouches'.others row hne).trans (htouches.others row hne)

/-- On level 1 the identifier comes from the sequence. -/
theorem construct_one (hinv : Inv 1 h) (hup : h.phase = .up) (doc : Document Node)
    (hnew : h.seq ∉ h.given) : One { h with
      seq := h.seq + 1
      constructed := h.constructed ++ [(h.seq, doc)]
      given := h.given ++ [h.seq] } := by
  have hold := hinv.one rfl
  constructor
  case insertable =>
    intro _ x hx hin
    rcases mem_alive_constructed.mp hx with hx | heq
    · exact hold.insertable hup x hx hin
    · exact hnew (heq ▸ hinv.rowsGiven x hin)
  case executing =>
    intro rest hphase
    rw [show h.phase = .resuming rest from hphase] at hup
    cases hup
  case aliveExecuting =>
    intro rest hphase
    rw [show h.phase = .resuming rest from hphase] at hup
    cases hup
  case sequence =>
    intro hphase x hx
    show x < h.seq + 1
    rcases List.mem_append.mp hx with hin | hin
    · have hlt := hold.sequence hphase x hin
      omega
    · rw [List.mem_singleton.mp hin]
      omega
  case greatest =>
    intro g hg
    rcases List.mem_append.mp hg with hin | hin
    · rcases hold.greatest g hin with ⟨x, hx, hle⟩
      refine ⟨x, ?_, hle⟩
      rw [List.mem_append] at hx ⊢
      exact hx.imp_right fun hx ↦ mem_alive_constructed.mpr (.inl hx)
    · refine ⟨h.seq, List.mem_append_right _ (mem_alive_constructed.mpr (.inr rfl)), ?_⟩
      exact Nat.le_of_eq (List.mem_singleton.mp hin)

/-- From level 2 on it comes from the table, where its row is. -/
theorem construct_two (hinv : Inv savepointLevel h) (hlevel : 2 ≤ savepointLevel) (doc : Document Node)
    {table : HistoryTable Node} {seq : Nat} (hnew : id ∉ h.given) (htouches : Touches id h.table table)
    (hid : id = h.table.autoIncrement) (hautoIncrement : table.autoIncrement = h.table.autoIncrement + 1)
    (hrow : ∃ row ∈ table.rows, row.id = id ∧ row.status = .executing) : Two { h with
      table
      seq
      constructed := h.constructed ++ [(id, doc)]
      given := h.given ++ [id] } := by
  have hold := hinv.two hlevel
  constructor
  case aliveRow =>
    intro x hx
    rcases mem_alive_constructed.mp hx with hin | heq
    · rcases hold.aliveRow x hin with ⟨row, hrow, hrid, hstatus⟩
      have hne : row.id ≠ id := fun heq ↦ hnew (hinv.aliveGiven id (heq ▸ hrid ▸ hin))
      exact ⟨row, (htouches.others row hne).mpr hrow, hrid, hstatus⟩
    · rw [heq]
      exact hrow
  case counted =>
    intro x hx
    show x < table.autoIncrement
    rcases List.mem_append.mp hx with hin | hin
    · have hlt := hold.counted x hin
      omega
    · rw [List.mem_singleton.mp hin]
      omega

/-- What the constructor does: the id is new, and from level 2 on it has a row. -/
theorem construct_spec (hlevel : 1 ≤ savepointLevel) (hinv : Inv savepointLevel h) (hup : h.phase = .up)
    (doc : Document Node) {status : String} (hstatus : status ≠ "TERMINATED") :
    ∃ id table seq, h.construct savepointLevel doc status = { h with
        table
        seq
        constructed := h.constructed ++ [(id, doc)]
        given := h.given ++ [id] } ∧
      id ∉ h.given ∧ Touches id h.table table ∧
      (savepointLevel = 1 → table = h.table ∧ id = h.seq ∧ seq = h.seq + 1) ∧
      (2 ≤ savepointLevel → id = h.table.autoIncrement ∧
        table.autoIncrement = h.table.autoIncrement + 1 ∧
        ∃ row ∈ table.rows, row.id = id ∧ row.status = .executing) := by
  unfold construct
  rw [decide_eq_false hstatus]
  by_cases htwo : 2 ≤ savepointLevel
  · have hcounted := (hinv.two htwo).counted
    have hnot : h.table.autoIncrement ∉ h.given := fun hin ↦ absurd (hcounted _ hin) (by omega)
    rw [if_pos htwo]
    dsimp only
    refine ⟨h.table.autoIncrement, _, h.seq, rfl, hnot, ?_, by omega, ?_⟩
    · apply Touches.trans (touches_insertNew fun hin ↦ hnot (hinv.rowsGiven _ hin))
      exact touches_recordSavepoint hlevel _ _ _ _ _
    · intro _
      refine ⟨rfl, ?_, ?_⟩
      · rcases HistoryTable.recordSavepoint_two htwo h.table.insertNew.1 false h.table.autoIncrement
          (.create doc) false with ⟨f, heq, -⟩
        exact congrArg HistoryTable.autoIncrement heq
      · apply (recordSavepoint_goesOn hlevel _ _ _).mpr
        exact ⟨_, List.mem_append_right _ (List.mem_singleton.mpr rfl), rfl, rfl⟩
  · obtain rfl : savepointLevel = 1 := by omega
    have hsequence := (hinv.one rfl).sequence (by rw [hup]; exact nofun)
    rw [if_neg htwo]
    dsimp only
    refine ⟨h.seq, _, h.seq + 1, rfl, fun hin ↦ absurd (hsequence _ hin) (by omega), ?_, ?_, by omega⟩
    · exact touches_recordSavepoint hlevel _ _ _ _ _
    · intro _
      rw [HistoryTable.recordSavepoint_one]
      exact ⟨if_neg (by decide), rfl, rfl⟩
theorem construct_inv (hlevel : 1 ≤ savepointLevel) (hinv : Inv savepointLevel h) (hup : h.phase = .up)
    (doc : Document Node) {status : String} (hstatus : status ≠ "TERMINATED") :
    Inv savepointLevel (h.construct savepointLevel doc status) := by
  rcases construct_spec hlevel hinv hup doc hstatus with ⟨id, table, seq, heq, hnew, htouches, hone, htwo⟩
  rw [heq]
  -- the id is new, so no instance in memory and no row is touched
  have hnot : id ∉ h.alive := fun hin ↦ hnew (hinv.aliveGiven id hin)
  have hpending : h.pending = [] := by
    unfold pending
    rw [hup]
  constructor
  case rowsNodup => exact htouches.nodup hinv.rowsNodup
  case givenNodup => exact nodup_snoc hinv.givenNodup hnew
  case aliveNodup => exact constructed_perm.nodup_iff.mpr (List.nodup_cons.mpr ⟨hnot, hinv.aliveNodup⟩)
  case pendingNodup => exact hinv.pendingNodup
  case rowsGiven =>
    intro x hx
    rcases htouches.ids x hx with hin | heq
    · exact List.mem_append_left _ (hinv.rowsGiven x hin)
    · exact List.mem_append_right _ (List.mem_singleton.mpr heq)
  case aliveGiven =>
    intro x hx
    rcases mem_alive_constructed.mp hx with hin | heq
    · exact List.mem_append_left _ (hinv.aliveGiven x hin)
    · exact List.mem_append_right _ (List.mem_singleton.mpr heq)
  case pendingAlive =>
    intro x hx
    have hx : x ∈ h.pending := hx
    rw [hpending] at hx
    cases hx
  case pendingRow =>
    intro x hx
    have hx : x ∈ h.pending := hx
    rw [hpending] at hx
    cases hx
  case ended =>
    intro p hp
    have hold := hinv.ended p hp
    have hne : p.1 ≠ id := fun heq ↦ hnew (heq ▸ hold.given)
    exact hold.touched hne htouches
      (fun x hx ↦ List.mem_append_left _ hx) (fun x hx ↦ mem_alive_constructed.mp hx) (fun _ hin ↦ hin) rfl
  case down =>
    intro hdown
    rw [show h.phase = .down from hdown] at hup
    cases hup
  case one =>
    intro hlevel'
    subst hlevel'
    rcases hone rfl with ⟨rfl, rfl, rfl⟩
    exact construct_one hinv hup doc hnew
  case two =>
    intro hlevel'
    rcases htwo hlevel' with ⟨hid, hautoIncrement, hrow⟩
    exact construct_two hinv hlevel' doc hnew htouches hid hautoIncrement hrow

/-! ## The calls of a running engine -/

theorem start_inv (hlevel : 1 ≤ savepointLevel) (hinv : Inv savepointLevel h)
    {env : Environment Node} (hstep : step savepointLevel h (.start env id) = some h') :
    Inv savepointLevel h' := by
  unfold step at hstep
  dsimp only at hstep
  by_cases hup : h.phase = .up
  · rw [if_pos hup] at hstep
    rcases Option.map_eq_some_iff.mp hstep with ⟨p, hp, heq⟩
    have hid : p.1 = id := by simpa using List.find?_some hp
    have halive : id ∈ h.alive := by
      unfold alive
      rw [← hid]
      exact List.mem_append_left _ (List.mem_map_of_mem (List.mem_of_find?_eq_some hp))
    rw [← heq]
    exact settleFrom_inv _ hlevel hinv halive fun _ _ ↦ hup
  · rw [if_neg hup] at hstep
    cases hstep

/-- `Cancel` changes nothing but the flag. -/
theorem cancel_inv (hinv : Inv savepointLevel h) {live : List (Nat × WorkflowInstance Node)}
    (hlive : (live.map Prod.fst).Perm (h.live.map Prod.fst)) :
    Inv savepointLevel { h with live } := by
  have hperm : (h.constructed.map Prod.fst ++ live.map Prod.fst).Perm h.alive := hlive.append_left _
  have hmem : ∀ x, x ∈ ({ h with live } : History Node).alive ↔ x ∈ h.alive := fun x ↦ hperm.mem_iff
  constructor
  case rowsNodup => exact hinv.rowsNodup
  case givenNodup => exact hinv.givenNodup
  case aliveNodup => exact hperm.nodup_iff.mpr hinv.aliveNodup
  case pendingNodup => exact hinv.pendingNodup
  case rowsGiven => exact hinv.rowsGiven
  case aliveGiven => exact fun x hx ↦ hinv.aliveGiven x ((hmem x).mp hx)
  case pendingAlive => exact fun x hx hin ↦ hinv.pendingAlive x hx ((hmem x).mp hin)
  case pendingRow => exact hinv.pendingRow
  case ended =>
    intro p hp
    have hold := hinv.ended p hp
    exact ⟨hold.given, fun hin ↦ hold.alive ((hmem p.1).mp hin), hold.pending, hold.row,
      hold.terminated⟩
  case down =>
    intro hdown
    have hnone := hinv.down hdown
    apply List.eq_nil_iff_forall_not_mem.mpr
    intro x hx
    rw [hmem, hnone] at hx
    cases hx
  case one =>
    intro hlevel
    have hone := hinv.one hlevel
    constructor
    case insertable => exact fun hup x hx ↦ hone.insertable hup x ((hmem x).mp hx)
    case executing =>
      intro rest hphase row hrow hstatus
      exact (hone.executing rest hphase row hrow hstatus).imp_right (hmem row.id).mpr
    case aliveExecuting =>
      exact fun rest hphase row hrow hin ↦ hone.aliveExecuting rest hphase row hrow ((hmem _).mp hin)
    case sequence => exact hone.sequence
    case greatest =>
      intro g hg
      rcases hone.greatest g hg with ⟨x, hx, hle⟩
      refine ⟨x, ?_, hle⟩
      rw [List.mem_append] at hx ⊢
      exact hx.imp_right (hmem x).mpr
  case two =>
    exact fun htwo ↦ ⟨fun x hx ↦ (hinv.two htwo).aliveRow x ((hmem x).mp hx), (hinv.two htwo).counted⟩

theorem call_inv (hlevel : 1 ≤ savepointLevel) (hinv : Inv savepointLevel h) (hup : h.phase = .up)
    {operation : Operation Node} (hstep : h.call savepointLevel id operation = some h') :
    Inv savepointLevel h' := by
  unfold call at hstep
  cases hfind : h.live.find? fun p ↦ p.1 = id with
  | none => simp [hfind] at hstep
  | some p =>
    rcases p with ⟨id', s⟩
    obtain rfl : id' = id := by simpa using List.find?_some hfind
    have hmem : id' ∈ h.live.map Prod.fst :=
      List.mem_map_of_mem (f := Prod.fst) (List.mem_of_find?_eq_some hfind)
    have hid : id' ∈ h.alive := List.mem_append_right _ hmem
    have hnodup := hinv.aliveNodup
    unfold alive at hnodup
    rw [List.nodup_append] at hnodup
    -- it is not among the constructed ones
    have hconstructed : h.constructed.filter (fun p ↦ p.1 ≠ id') = h.constructed := by
      rw [List.filter_eq_self]
      intro p hp
      rw [decide_eq_true_eq]
      exact hnodup.2.2 p.1 (List.mem_map_of_mem hp) id' hmem
    have hsettle (result : WorkflowInstance Node × Bool) :
        Inv savepointLevel (h.settle savepointLevel id' result) := by
      have hsettled := settleFrom_inv result hlevel hinv hid fun _ _ ↦ hup
      unfold settleFrom at hsettled
      rw [hconstructed] at hsettled
      exact hsettled
    rw [hfind] at hstep
    cases operation with
    | cancel =>
      simp only [Option.some.injEq] at hstep
      rw [← hstep]
      apply cancel_inv hinv
      rw [List.perm_ext_iff_of_nodup]
      · intro x
        rw [List.map_append, List.mem_append, mem_map_filter]
        by_cases heq : x = id' <;> simp [heq, hmem]
      · rw [List.map_append]
        apply nodup_snoc (hnodup.2.1.sublist (List.filter_sublist.map _))
        exact fun hin ↦ (mem_map_filter.mp hin).2 rfl
      · exact hnodup.2.1
    | taskExecute env task =>
      rcases Option.map_eq_some_iff.mp hstep with ⟨l, -, heq⟩
      rw [← heq]
      exact hsettle _
    | taskStop env task retval output =>
      rcases Option.map_eq_some_iff.mp hstep with ⟨l, -, heq⟩
      rw [← heq]
      exact hsettle _
    | taskRestart env task =>
      rcases Option.map_eq_some_iff.mp hstep with ⟨l, -, heq⟩
      rw [← heq]
      exact hsettle _

/-! ## Garbage collection and shutdown -/

theorem collect_inv (hinv : Inv savepointLevel h) (hup : h.phase = .up) {ids : List Nat}
    (hok : Guarded savepointLevel h (.collect ids)) :
    Inv savepointLevel { h with
      table := h.table.delete fun row ↦ row.status = .terminated ∧ row.id ∈ ids
      collected := h.collected ++
        (h.table.rows.filter fun row ↦ row.status = .terminated ∧ row.id ∈ ids).map HistoryRow.id } := by
  have hids := HistoryTable.ids_delete_sublist (t := h.table)
    fun row ↦ row.status = .terminated ∧ row.id ∈ ids
  have hpending : h.pending = [] := by
    unfold pending
    rw [hup]
  -- only terminated rows are collected
  have hexecuting : ∀ row ∈ h.table.rows, row.status = .executing →
      row ∈ (h.table.delete fun row ↦ row.status = .terminated ∧ row.id ∈ ids).rows := by
    intro row hrow hstatus
    exact HistoryTable.mem_delete.mpr ⟨hrow, by simp [hstatus]⟩
  constructor
  case rowsNodup => exact hinv.rowsNodup.sublist hids
  case givenNodup => exact hinv.givenNodup
  case aliveNodup => exact hinv.aliveNodup
  case pendingNodup => exact hinv.pendingNodup
  case rowsGiven => exact fun x hx ↦ hinv.rowsGiven x (hids.subset hx)
  case aliveGiven => exact hinv.aliveGiven
  case pendingAlive => exact hinv.pendingAlive
  case pendingRow =>
    intro x hx
    have hx : x ∈ h.pending := hx
    rw [hpending] at hx
    cases hx
  case ended =>
    intro p hp
    have hold := hinv.ended p hp
    refine ⟨hold.given, hold.alive, hold.pending, ?_, ?_⟩
    · rcases hold.row with hin | ⟨row, hrow, hid, hstatus, herrors⟩
      · exact .inl (List.mem_append_left _ hin)
      · -- its row is collected, or stays
        by_cases hin : row.id ∈ ids
        · apply Or.inl
          rw [← hid]
          apply List.mem_append_right
          exact List.mem_map_of_mem (List.mem_filter.mpr ⟨hrow, decide_eq_true ⟨hstatus, hin⟩⟩)
        · exact .inr ⟨row, HistoryTable.mem_delete.mpr ⟨hrow, by simp [hin]⟩, hid, hstatus, herrors⟩
    · intro row hrow hid
      exact hold.terminated row (HistoryTable.mem_delete.mp hrow).1 hid
  case down =>
    intro hdown
    rw [show h.phase = .down from hdown] at hup
    cases hup
  case one =>
    intro hlevel
    have hone := hinv.one hlevel
    constructor
    case insertable => exact fun _ x hx hin ↦ hone.insertable hup x hx (hids.subset hin)
    case executing =>
      intro rest hphase
      rw [show h.phase = .resuming rest from hphase] at hup
      cases hup
    case aliveExecuting =>
      intro rest hphase
      rw [show h.phase = .resuming rest from hphase] at hup
      cases hup
    case sequence => exact hone.sequence
    case greatest =>
      have hkept : ∀ x ∈ h.table.ids ++ h.alive, x ∉ ids →
          x ∈ (h.table.delete fun row ↦ row.status = .terminated ∧ row.id ∈ ids).ids ++ h.alive := by
        intro x hx hnot
        rw [List.mem_append] at hx ⊢
        rcases hx with hx | hx
        · rcases List.mem_map.mp hx with ⟨row, hrow, heq⟩
          rw [← heq] at hnot ⊢
          exact .inl (HistoryTable.mem_ids_of_mem (HistoryTable.mem_delete.mpr ⟨hrow, by simp [hnot]⟩))
        · exact .inr hx
      intro g hg
      rcases hone.greatest g hg with ⟨x, hx, hle⟩
      by_cases hin : x ∈ ids
      · rcases List.mem_append.mp hx with hx | hx
        · -- a row that is collected leaves a greater id behind, as the condition asks
          rcases hok hlevel x hx hin with ⟨y, hy, hnot, hle'⟩
          exact ⟨y, hkept y hy hnot, Nat.le_trans hle hle'⟩
        · exact ⟨x, List.mem_append_right _ hx, hle⟩
      · exact ⟨x, hkept x hx hin, hle⟩
  case two =>
    intro htwo
    have hold := hinv.two htwo
    refine ⟨?_, hold.counted⟩
    intro x hx
    rcases hold.aliveRow x hx with ⟨row, hrow, hid, hstatus⟩
    exact ⟨row, hexecuting row hrow hstatus, hid, hstatus⟩

/-- What the forced savepoints of a shutdown do to the rows. -/
structure Saves (savepointLevel : Nat) (saved : List Nat) (t t' : HistoryTable Node) : Prop where
  nodup : t.ids.Nodup → t'.ids.Nodup
  ids : ∀ x ∈ t'.ids, x ∈ t.ids ∨ x ∈ saved
  kept : ∀ x ∈ t.ids, x ∈ t'.ids
  others : ∀ row : HistoryRow Node, row.id ∉ saved → (row ∈ t'.rows ↔ row ∈ t.rows)
  inserted : savepointLevel = 1 → ∀ x ∈ saved, x ∈ t'.ids
  counted : 2 ≤ savepointLevel → t'.autoIncrement = t.autoIncrement

theorem saves_foldl (hlevel : 1 ≤ savepointLevel) (live : List (Nat × WorkflowInstance Node))
    (t : HistoryTable Node) : Saves savepointLevel (live.map Prod.fst) t
      (live.foldl (fun t p ↦ t.recordSavepoint savepointLevel true p.1 p.2 false) t) := by
  induction live generalizing t with
  | nil =>
    exact ⟨fun hnodup ↦ hnodup, fun x hx ↦ .inl hx, fun x hx ↦ hx, fun _ _ ↦ Iff.rfl,
      fun _ x hx ↦ absurd hx List.not_mem_nil, fun _ ↦ rfl⟩
  | cons p live ih =>
    have htouches := touches_recordSavepoint hlevel t true p.1 p.2 false
    have hrest := ih (t.recordSavepoint savepointLevel true p.1 p.2 false)
    rw [List.foldl_cons, List.map_cons]
    constructor
    case nodup => exact fun hnodup ↦ hrest.nodup (htouches.nodup hnodup)
    case ids =>
      intro x hx
      rcases hrest.ids x hx with hin | hin
      · rcases htouches.ids x hin with hin | heq
        · exact .inl hin
        · exact .inr (heq ▸ List.mem_cons_self)
      · exact .inr (List.mem_cons_of_mem _ hin)
    case kept => exact fun x hx ↦ hrest.kept x (htouches.kept x hx)
    case others =>
      intro row hrow
      rw [List.mem_cons, not_or] at hrow
      exact (hrest.others row hrow.2).trans (htouches.others row hrow.1)
    case inserted =>
      intro hone x hx
      rcases List.mem_cons.mp hx with heq | hin
      · apply hrest.kept
        rw [heq, hone, HistoryTable.recordSavepoint_one, if_pos (.inr rfl)]
        exact (HistoryTable.mem_ids_insert _ _).mpr (.inr rfl)
      · exact hrest.inserted hone x hin
    case counted =>
      intro htwo
      rcases HistoryTable.recordSavepoint_two htwo t true p.1 p.2 false with ⟨f, heq, -⟩
      rw [hrest.counted htwo, heq]
      rfl

theorem shutdown_inv (hlevel : 1 ≤ savepointLevel) (hinv : Inv savepointLevel h)
    (hconstructed : h.constructed = []) : Inv savepointLevel (h.shutdown savepointLevel) := by
  have hsaves := saves_foldl hlevel h.live h.table
  have halive : h.alive = h.live.map Prod.fst := by
    unfold alive
    rw [hconstructed]
    rfl
  -- behind the shutdown no instance is in memory
  have hnone : (h.shutdown savepointLevel).alive = [] := by
    show h.constructed.map Prod.fst ++ [] = []
    rw [hconstructed]
    rfl
  rw [← halive] at hsaves
  constructor
  case rowsNodup => exact hsaves.nodup hinv.rowsNodup
  case givenNodup => exact hinv.givenNodup
  case aliveNodup =>
    rw [hnone]
    exact List.nodup_nil
  case pendingNodup => exact List.nodup_nil
  case rowsGiven => exact fun x hx ↦ (hsaves.ids x hx).elim (hinv.rowsGiven x) (hinv.aliveGiven x)
  case aliveGiven =>
    intro x hx
    rw [hnone] at hx
    cases hx
  case pendingAlive => exact fun x hx ↦ absurd hx List.not_mem_nil
  case pendingRow => exact fun x hx ↦ absurd hx List.not_mem_nil
  -- an instance that had ended was not alive, so its row is not written again
  case ended =>
    intro p hp
    have hold := hinv.ended p hp
    refine ⟨hold.given, ?_, List.not_mem_nil, ?_, ?_⟩
    · rw [hnone]
      exact List.not_mem_nil
    · rcases hold.row with hin | ⟨row, hrow, hid, hstatus⟩
      · exact .inl hin
      · have hnot : row.id ∉ h.alive := by
          rw [hid]
          exact hold.alive
        exact .inr ⟨row, (hsaves.others row hnot).mpr hrow, hid, hstatus⟩
    · intro row hrow hid
      have hnot : row.id ∉ h.alive := by
        rw [hid]
        exact hold.alive
      exact hold.terminated row ((hsaves.others row hnot).mp hrow) hid
  case down => exact fun _ ↦ hnone
  case one =>
    intro hone
    constructor
    case insertable => exact nofun
    case executing => exact nofun
    case aliveExecuting => exact nofun
    case sequence => exact fun hphase ↦ absurd rfl hphase
    case greatest =>
      intro g hg
      rcases (hinv.one hone).greatest g hg with ⟨x, hx, hle⟩
      refine ⟨x, List.mem_append_left _ ?_, hle⟩
      rcases List.mem_append.mp hx with hx | hx
      · exact hsaves.kept x hx
      · exact hsaves.inserted hone x hx
  case two =>
    intro htwo
    constructor
    case aliveRow =>
      intro x hx
      rw [hnone] at hx
      cases hx
    case counted =>
      intro x hx
      show x < HistoryTable.autoIncrement _
      rw [show (h.shutdown savepointLevel).table.autoIncrement = _ from hsaves.counted htwo]
      exact (hinv.two htwo).counted x hx

/-! ## Runs -/

theorem step_inv (hlevel : 1 ≤ savepointLevel) (hinv : Inv savepointLevel h) {action : HistoryAction Node}
    (hok : Guarded savepointLevel h action) (hstep : step savepointLevel h action = some h') :
    Inv savepointLevel h' := by
  cases action with
  | startUp order =>
    unfold step at hstep
    dsimp only at hstep
    split at hstep
    · rename_i hphase
      rw [Option.some.injEq] at hstep
      rw [← hstep]
      exact startUp_inv hinv hphase.1 hphase.2
    · cases hstep
  | resume env order => exact resume_inv hlevel hinv hok hstep
  | purge =>
    unfold step at hstep
    dsimp only at hstep
    split at hstep
    · rename_i hphase
      rw [Option.some.injEq] at hstep
      rw [← hstep]
      exact purge_inv hinv hphase
    · cases hstep
  | construct doc status =>
    unfold step at hstep
    dsimp only at hstep
    split at hstep
    · rename_i hup
      rw [Option.some.injEq] at hstep
      rw [← hstep]
      exact construct_inv hlevel hinv hup doc hok
    · cases hstep
  | start env id => exact start_inv hlevel hinv hstep
  | call id operation =>
    unfold step at hstep
    dsimp only at hstep
    split at hstep
    · rename_i hup
      exact call_inv hlevel hinv hup hstep
    · cases hstep
  | collect ids =>
    unfold step at hstep
    dsimp only at hstep
    split at hstep
    · rename_i hup
      rw [Option.some.injEq] at hstep
      rw [← hstep]
      exact collect_inv hinv hup hok
    · cases hstep
  | shutdown =>
    unfold step at hstep
    dsimp only at hstep
    split at hstep
    · rename_i hphase
      rw [Option.some.injEq] at hstep
      rw [← hstep]
      exact shutdown_inv hlevel hinv hphase.2
    · cases hstep

end History

end EvQueue
