import EvQueue.Base.Descent
import EvQueue.GarbageCollector

/-!
# GarbageCollectorThread — the rounds of `gc_thread`, and how it is shut down

The thread sleeps `gc.interval` seconds and then purges, `gc.limit` rows of a table at a time, until a purge
deletes nothing; between two purges it sleeps `gc.delay` seconds.  It looks at the flag of `Shutdown` before
each second of sleep, and nowhere else.
-/

namespace EvQueue

open Runs

/-- What the thread reads of the configuration. -/
structure GcSettings where
  gc : GarbageCollector
  interval : Int
  delay : Int
  /-- `Logger::log_db`. -/
  logDb : Bool
  utcOffset : Int
deriving DecidableEq, Repr

/-- Where the thread stands. -/
inductive GcPosition where
  /-- In front of the condition of the loop over `iinterval`. -/
  | interval (iinterval : Nat)
  | purging
  /-- In front of the condition of the loop over `idelay`. -/
  | delay (idelay : Nat) (deletedRows : Int)
  | exited
  /-- An exception has left the thread. -/
  | terminated
deriving DecidableEq, Repr

structure GcThread where
  position : GcPosition
  isShuttingDown : Bool
  tables : Tables
  /-- The time of the last purge; for the statements only. -/
  clock : Int

inductive GcAction where
  /-- The condition of the loop that the thread is in, and its body with the `sleep`.  `logged` is the time of
  the message, `none` when `Logger::Log` raises. -/
  | poll (logged : Option DateTime)
  /-- `purge`, and the message about it or about what it has caught. -/
  | purge (now : Int) (raises : PurgeCall → Bool) (logged : Option DateTime)
  | shutdown
  /-- Other threads add rows.  Behind `Shutdown` there are none. -/
  | insert (tables : Tables)

/-- `purge` comes to its `catch`. -/
def GarbageCollector.raised (gc : GarbageCollector) (raises : PurgeCall → Bool) : Bool :=
  raises .connect || raises .deleteInstances || raises .deleteParameters || raises .deleteLogs ||
    decide (gc.limit < 0)

namespace GcThread

/-- `Logger::Log` in front of `position`.  Nothing catches what it raises. -/
def log (c : GcSettings) (logged : Option DateTime) (position : GcPosition) (s : GcThread) : GcThread :=
  if c.logDb then
    match logged with
    | none => { s with position := .terminated }
    | some time =>
        { s with
          tables.logs := s.tables.logs ++ [⟨time⟩]
          position }
  else { s with position }

def step (c : GcSettings) (s : GcThread) : GcAction → Option GcThread
  | .poll logged =>
      match s.position with
      | .interval i =>
          if (i : Int) < c.interval then
            if s.isShuttingDown then some (s.log c logged .exited)
            else some { s with position := .interval (i + 1) }
          else some { s with position := .purging }
      | .delay i deletedRows =>
          if (i : Int) < c.delay then
            if s.isShuttingDown then some (s.log c logged .exited)
            else some { s with position := .delay (i + 1) deletedRows }
          else some { s with position := if deletedRows > 0 then .purging else .interval 0 }
      | _ => none
  | .purge now raises logged =>
      if s.position = .purging then
        let purged := c.gc.purge c.utcOffset now raises s.tables
        let s := { s with
          tables := purged.tables
          clock := now }
        if c.gc.raised raises then some (s.log c logged (.interval 0))
        else if purged.deletedRows = 0 then some { s with position := .interval 0 }
        else some (s.log c logged (.delay 0 purged.deletedRows))
      else none
  | .shutdown => if s.isShuttingDown then none else some { s with isShuttingDown := true }
  | .insert tables =>
      if s.isShuttingDown then none
      else
        some { s with
          tables :=
            { instances := s.tables.instances ++ tables.instances
              parameters := s.tables.parameters ++ tables.parameters
              logs := s.tables.logs ++ tables.logs } }

end GcThread

/-! ## A round -/

section Delete

variable {α : Type} {p q : α → Bool} {n : Nat} {table : List α}

/-- Rows that do not match are left where they are. -/
theorem filter_deleteLimit (hpq : ∀ row, p row = true → q row = false) (n : Nat) (table : List α) :
    (deleteLimit p n table).2.filter q = table.filter q := by
  fun_induction deleteLimit p n table with
  | case1 => rfl
  | case2 => rfl
  | case3 n row rows hp rest ih =>
    rw [ih, List.filter_cons_of_neg (by simp [hpq row hp])]
  | case4 n row rows hp rest ih => rw [List.filter_cons, List.filter_cons, ih]

/-- A statement that deletes nothing leaves nothing that matches. -/
theorem filter_deleteLimit_nil (p : α → Bool) (n : Nat) (table : List α) (hn : 0 < n)
    (hnil : (deleteLimit p n table).1 = []) : (deleteLimit p n table).2.filter p = [] := by
  have hperm := (deleteLimit_perm p n table).filter p
  rw [hnil, List.nil_append] at hperm
  have htake := deleteLimit_fst p n table
  rw [hnil] at htake
  have hfilter : table.filter p = [] := by
    rcases List.take_eq_nil_iff.mp htake.symm with hzero | hfilter
    · omega
    · exact hfilter
  rw [hfilter] at hperm
  exact hperm.eq_nil

end Delete

namespace GarbageCollector

variable {gc : GarbageCollector} {utcOffset now : Int} {tables : Tables}

/-- `workflow_instance_status='TERMINATED' AND workflow_instance_end <= ...`, at this time. -/
def expiredInstance (gc : GarbageCollector) (utcOffset now : Int) (row : InstanceRow) : Bool :=
  row.terminated && row.workflowInstanceEnd.atMost
    (Civil.ofTime utcOffset (cutoff now gc.workflowinstanceRetention))

def expiredLog (gc : GarbageCollector) (utcOffset now : Int) (row : LogRow) : Bool :=
  row.logTimestamp.atMost (Civil.ofTime utcOffset (cutoff now gc.logsRetention))

/-- What is left when everything that has expired is deleted at once. -/
def swept (gc : GarbageCollector) (utcOffset now : Int) (tables : Tables) : Tables :=
  let instances := tables.instances.filter fun row ↦ !gc.expiredInstance utcOffset now row
  { instances
    parameters := tables.parameters.filter fun row ↦
      instances.any (·.workflowInstanceId == row.workflowInstanceId)
    logs := tables.logs.filter fun row ↦ !gc.expiredLog utcOffset now row }

/-- A purge in which nothing raises. -/
theorem purge_eq (hlimit : 0 < gc.limit) : gc.purge utcOffset now (fun _ ↦ false) tables =
    let instances := deleteLimit (gc.expiredInstance utcOffset now) gc.limit.toNat tables.instances
    let logs := deleteLimit (gc.expiredLog utcOffset now) gc.limit.toNat tables.logs
    { instances := instances.1
      logs := logs.1
      tables :=
        { instances := instances.2
          parameters := tables.parameters.filter fun row ↦
            instances.2.any (·.workflowInstanceId == row.workflowInstanceId)
          logs := logs.2 }
      deletedRows := ((instances.1.length + logs.1.length : Nat) : Int).bmod (2 ^ 32) } := by
  have hpos : ¬ (False ∨ gc.limit < 0) := by
    rw [false_or]
    omega
  unfold purge queryDelete expiredInstance expiredLog
  simp only [Bool.or_self, Bool.false_eq_true, if_false, if_neg hpos]

/-- What a purge in which nothing raises does, below a limit for which the number of deleted rows is an
`int`. -/
structure Batch (gc : GarbageCollector) (utcOffset now : Int) (tables : Tables) (purged : Purged) :
    Prop where
  kept : ∀ i ∈ purged.tables.instances, i ∈ tables.instances
  instances : ∀ p : InstanceRow → Bool,
    (∀ row, gc.expiredInstance utcOffset now row = true → p row = false) →
    purged.tables.instances.filter p = tables.instances.filter p
  parameters : purged.tables.parameters = tables.parameters.filter fun row ↦
    purged.tables.instances.any (·.workflowInstanceId == row.workflowInstanceId)
  logs : ∀ p : LogRow → Bool, (∀ row, gc.expiredLog utcOffset now row = true → p row = false) →
    purged.tables.logs.filter p = tables.logs.filter p
  last : purged.deletedRows = 0 →
    (∀ row ∈ purged.tables.instances, gc.expiredInstance utcOffset now row = false) ∧
      ∀ row ∈ purged.tables.logs, gc.expiredLog utcOffset now row = false
  nonneg : 0 ≤ purged.deletedRows

theorem purge_batch (utcOffset now : Int) (tables : Tables) (hlimit : 0 < gc.limit)
    (hsmall : gc.limit < 2 ^ 30) :
    Batch gc utcOffset now tables (gc.purge utcOffset now (fun _ ↦ false) tables) := by
  have hdeleted {x y : Nat} (hx : x ≤ gc.limit.toNat) (hy : y ≤ gc.limit.toNat) :
      ((x + y : Nat) : Int).bmod (2 ^ 32) = x + y := by
    push_cast
    apply Int.bmod_eq_of_le_mul_two
    · push_cast
      omega
    · push_cast
      omega
  have hinstances := List.length_take_le gc.limit.toNat
    (tables.instances.filter (gc.expiredInstance utcOffset now))
  have hlogs := List.length_take_le gc.limit.toNat (tables.logs.filter (gc.expiredLog utcOffset now))
  rw [← deleteLimit_fst] at hinstances hlogs
  rw [purge_eq hlimit]
  constructor
  case kept =>
    intro i hi
    have hperm := deleteLimit_perm (gc.expiredInstance utcOffset now) gc.limit.toNat tables.instances
    exact hperm.mem_iff.mp (List.mem_append_right _ hi)
  case instances => exact fun p hp ↦ filter_deleteLimit hp _ _
  case parameters => rfl
  case logs => exact fun p hp ↦ filter_deleteLimit hp _ _
  case last =>
    intro hzero
    dsimp only at hzero ⊢
    rw [hdeleted hinstances hlogs] at hzero
    have hone := filter_deleteLimit_nil (gc.expiredInstance utcOffset now) gc.limit.toNat tables.instances
      (by omega) (List.eq_nil_of_length_eq_zero (by omega))
    have htwo := filter_deleteLimit_nil (gc.expiredLog utcOffset now) gc.limit.toNat tables.logs
      (by omega) (List.eq_nil_of_length_eq_zero (by omega))
    rw [List.filter_eq_nil_iff] at hone htwo
    exact ⟨fun row hrow ↦ Bool.eq_false_iff.mpr (hone row hrow),
      fun row hrow ↦ Bool.eq_false_iff.mpr (htwo row hrow)⟩
  case nonneg =>
    dsimp only
    rw [hdeleted hinstances hlogs]
    omega

/-- Over the years that a clock shows, a later time has a later cutoff. -/
theorem cutoff_mono {now' retention : Int} (hlow : -2 ^ 62 ≤ now) (hle : now ≤ now')
    (hhigh : now' < 2 ^ 62) : cutoff now retention ≤ cutoff now' retention := by
  have hproduct := product_bounds retention
  unfold cutoff
  rw [difference_eq (by omega) (by omega), difference_eq (by omega) (by omega)]
  split <;> split <;> omega

theorem expiredInstance_mono {now' : Int} (hlow : -2 ^ 62 ≤ now) (hle : now ≤ now')
    (hhigh : now' < 2 ^ 62) {row : InstanceRow} (h : gc.expiredInstance utcOffset now row = true) :
    gc.expiredInstance utcOffset now' row = true := by
  unfold expiredInstance at h ⊢
  rw [Bool.and_eq_true, DateTime.atMost_ofTime_iff] at h ⊢
  exact ⟨h.1, h.2.mono (cutoff_mono hlow hle hhigh)⟩

theorem expiredLog_mono {now' : Int} (hlow : -2 ^ 62 ≤ now) (hle : now ≤ now')
    (hhigh : now' < 2 ^ 62) {row : LogRow} (h : gc.expiredLog utcOffset now row = true) :
    gc.expiredLog utcOffset now' row = true := by
  unfold expiredLog at h ⊢
  rw [DateTime.atMost_ofTime_iff] at h ⊢
  exact h.mono (cutoff_mono hlow hle hhigh)

end GarbageCollector

namespace GcThread

variable {c : GcSettings} {s s' : GcThread} {tables : Tables}

/-- Nothing raises, no rows are added, and the clock shows times that it can show, in their order. -/
def Faultless (s : GcThread) : GcAction → Prop
  | .purge now raises _ => (∀ call, raises call = false) ∧ s.clock ≤ now ∧ now < 2 ^ 62
  | .insert _ => False
  | _ => True

/-- What the purges have left of `tables`: rows that will have expired when the round is over may be gone, and
the parameters of instances that are gone. -/
structure Sweeps (c : GcSettings) (tables : Tables) (s : GcThread) : Prop where
  clock : -2 ^ 62 ≤ s.clock
  instances : ∀ t, s.clock ≤ t → t < 2 ^ 62 →
    s.tables.instances.filter (fun row ↦ !c.gc.expiredInstance c.utcOffset t row) =
      tables.instances.filter fun row ↦ !c.gc.expiredInstance c.utcOffset t row
  logs : ∀ t, s.clock ≤ t → t < 2 ^ 62 →
    s.tables.logs.filter (fun row ↦ !c.gc.expiredLog c.utcOffset t row) =
      tables.logs.filter fun row ↦ !c.gc.expiredLog c.utcOffset t row
  parameters : ∀ kept : List InstanceRow, (∀ i ∈ kept, i ∈ s.tables.instances) →
    s.tables.parameters.filter (fun row ↦ kept.any (·.workflowInstanceId == row.workflowInstanceId)) =
      tables.parameters.filter fun row ↦ kept.any (·.workflowInstanceId == row.workflowInstanceId)
  delay : ∀ i deletedRows, s.position = .delay i deletedRows → 0 < deletedRows
  ended : ∀ i, s.position = .interval i → s.tables = c.gc.swept c.utcOffset s.clock tables

/-- Without `logger.db.enable`, a message changes no table. -/
theorem log_eq (hlog : c.logDb = false) (logged : Option DateTime) (position : GcPosition)
    (s : GcThread) : s.log c logged position = { s with position } := by
  unfold log
  rw [hlog, if_neg Bool.false_ne_true]

theorem poll_sweeps {logged : Option DateTime} (hlog : c.logDb = false) (h : s.Sweeps c tables)
    (hstep : s.step c (.poll logged) = some s') : s'.Sweeps c tables := by
  unfold step at hstep
  dsimp only at hstep
  have hsame {position : GcPosition} (hdelay : ∀ i d, position = .delay i d → 0 < d)
      (hover : ∀ i, position = .interval i → s.tables = c.gc.swept c.utcOffset s.clock tables) :
      Sweeps c tables { s with position } :=
    ⟨h.clock, h.instances, h.logs, h.parameters, hdelay, hover⟩
  split at hstep
  · rename_i i hposition
    split at hstep
    · split at hstep <;> rw [← Option.some.inj hstep]
      · rw [log_eq hlog]
        exact hsame nofun nofun
      · exact hsame nofun fun _ _ ↦ h.ended i hposition
    · rw [← Option.some.inj hstep]
      exact hsame nofun nofun
  · rename_i i deletedRows hposition
    have hpos := h.delay i deletedRows hposition
    split at hstep
    · split at hstep <;> rw [← Option.some.inj hstep]
      · rw [log_eq hlog]
        exact hsame nofun nofun
      · refine hsame ?_ nofun
        intro j d heq
        rw [GcPosition.delay.injEq] at heq
        rw [← heq.2]
        exact hpos
    · rw [← Option.some.inj hstep]
      exact hsame nofun nofun
  · cases hstep

theorem purge_sweeps {now : Int} {raises : PurgeCall → Bool} {logged : Option DateTime}
    (hlimit : 0 < c.gc.limit) (hsmall : c.gc.limit < 2 ^ 30) (hlog : c.logDb = false)
    (h : s.Sweeps c tables) (hok : s.Faultless (.purge now raises logged))
    (hstep : s.step c (.purge now raises logged) = some s') : s'.Sweeps c tables := by
  rcases hok with ⟨hraises, hle, hlt⟩
  have hclock := h.clock
  have hbatch := GarbageCollector.purge_batch c.utcOffset now s.tables hlimit hsmall
  rw [← show raises = fun _ ↦ false from funext hraises] at hbatch
  unfold step at hstep
  dsimp only at hstep
  split at hstep
  case isFalse => cases hstep
  generalize c.gc.purge c.utcOffset now raises s.tables = purged at hstep hbatch
  have hswept {position : GcPosition} (hdelay : ∀ i d, position = .delay i d → 0 < d)
      (hover : ∀ i, position = .interval i → purged.deletedRows = 0) : Sweeps c tables
        { s with
          tables := purged.tables
          clock := now
          position } := by
    -- what has expired now has expired at any later time
    have hrows : ∀ t, now ≤ t → t < 2 ^ 62 →
        purged.tables.instances.filter (fun row ↦ !c.gc.expiredInstance c.utcOffset t row) =
          tables.instances.filter fun row ↦ !c.gc.expiredInstance c.utcOffset t row := by
      intro t hnow ht
      rw [← h.instances t (Int.le_trans hle hnow) ht]
      apply hbatch.instances
      intro row hrow
      rw [GarbageCollector.expiredInstance_mono (Int.le_trans hclock hle) hnow ht hrow]
      rfl
    have hlogs : ∀ t, now ≤ t → t < 2 ^ 62 →
        purged.tables.logs.filter (fun row ↦ !c.gc.expiredLog c.utcOffset t row) =
          tables.logs.filter fun row ↦ !c.gc.expiredLog c.utcOffset t row := by
      intro t hnow ht
      rw [← h.logs t (Int.le_trans hle hnow) ht]
      apply hbatch.logs
      intro row hrow
      rw [GarbageCollector.expiredLog_mono (Int.le_trans hclock hle) hnow ht hrow]
      rfl
    constructor
    case clock => exact Int.le_trans hclock hle
    case instances => exact hrows
    case logs => exact hlogs
    case parameters =>
      intro kept hin
      dsimp only
      rw [← h.parameters kept fun i hi ↦ hbatch.kept i (hin i hi), hbatch.parameters, List.filter_filter]
      apply List.filter_congr
      intro row _
      -- an instance of `kept` is among those that this purge has left
      cases hany : kept.any (·.workflowInstanceId == row.workflowInstanceId) with
      | false => rw [Bool.false_and]
      | true =>
        rcases List.any_eq_true.mp hany with ⟨i, hi, hid⟩
        rw [Bool.true_and, List.any_eq_true]
        exact ⟨i, hin i hi, hid⟩
    case delay => exact hdelay
    case ended =>
      intro i hposition
      -- no rows were deleted, so nothing that had expired is left
      have hlast := hbatch.last (hover i hposition)
      have hone : purged.tables.instances = tables.instances.filter
          fun row ↦ !c.gc.expiredInstance c.utcOffset now row := by
        rw [← hrows now (Int.le_refl _) hlt, List.filter_eq_self.mpr]
        exact fun row hrow ↦ by rw [hlast.1 row hrow]; rfl
      have htwo : purged.tables.logs = tables.logs.filter
          fun row ↦ !c.gc.expiredLog c.utcOffset now row := by
        rw [← hlogs now (Int.le_refl _) hlt, List.filter_eq_self.mpr]
        exact fun row hrow ↦ by rw [hlast.2 row hrow]; rfl
      have hthree := h.parameters purged.tables.instances hbatch.kept
      rw [← hbatch.parameters] at hthree
      show purged.tables = c.gc.swept c.utcOffset now tables
      unfold GarbageCollector.swept
      dsimp only
      rw [← hone, ← htwo, ← hthree]
  -- the positive limit and the faultless statements leave nothing to raise
  have hquiet : c.gc.raised raises = false := by
    unfold GarbageCollector.raised
    rw [hraises, hraises, hraises, hraises, decide_eq_false (by omega)]
    rfl
  rw [hquiet, if_neg Bool.false_ne_true] at hstep
  split at hstep <;> rw [← Option.some.inj hstep]
  · rename_i hzero
    exact hswept nofun fun _ _ ↦ hzero
  · rename_i hnonzero
    have hnonneg := hbatch.nonneg
    rw [log_eq hlog]
    refine hswept ?_ nofun
    intro i d heq
    rw [GcPosition.delay.injEq] at heq
    rw [← heq.2]
    omega

/-- **A round of purges is one purge without a limit.**  In a round without faults, in which nothing is logged to
the database and no rows are added, however a positive limit cuts it into batches, and however long it takes,
what is left behind it is what had not expired at its last purge, with the parameters of the instances that are
left. -/
theorem swept_of_run (c : GcSettings) (s s' : GcThread) (actions : List GcAction) (i : Nat)
    (hlimit : 0 < c.gc.limit) (hsmall : c.gc.limit < 2 ^ 30) (hlog : c.logDb = false)
    (hclock : -2 ^ 62 ≤ s.clock) (hstart : s.position = .purging)
    (hok : Meets (step c) Faultless s actions) (hrun : run (step c) s actions = some s')
    (hend : s'.position = .interval i) :
    s'.tables = c.gc.swept c.utcOffset s'.clock s.tables := by
  have hsweeps : s.Sweeps c s.tables := by
    refine ⟨hclock, fun _ _ _ ↦ rfl, fun _ _ _ ↦ rfl, fun _ _ ↦ rfl, ?_, ?_⟩
    · rw [hstart]
      exact nofun
    · rw [hstart]
      exact nofun
  have hstep : ∀ t a t', Sweeps c s.tables t → Faultless t a → step c t a = some t' →
      Sweeps c s.tables t' := by
    intro t a t' h hguard hstep
    cases a with
    | poll logged => exact poll_sweeps hlog h hstep
    | purge now raises logged => exact purge_sweeps hlimit hsmall hlog h hguard hstep
    | shutdown =>
      unfold step at hstep
      dsimp only at hstep
      split at hstep
      · cases hstep
      · rw [← Option.some.inj hstep]
        exact ⟨h.clock, h.instances, h.logs, h.parameters, h.delay, h.ended⟩
    | insert tables => exact hguard.elim
  exact (run_invariant hstep hsweeps hok hrun).ended i hend

instance (s : GcThread) : (action : GcAction) → Decidable (s.Faultless action)
  | .purge now raises _ =>
      decidable_of_iff ((∀ call ∈ [PurgeCall.connect, .deleteInstances, .deleteParameters, .deleteLogs],
        raises call = false) ∧ s.clock ≤ now ∧ now < 2 ^ 62)
        (and_congr_left' ⟨fun h call ↦ h call (by cases call <;> simp), fun h call _ ↦ h call⟩)
  | .insert _ => .isFalse id
  | .poll _ | .shutdown => .isTrue trivial

/-- Three purges of two rows, and the seconds between them. -/
def twoAtOnce : GcSettings :=
  { gc := { GarbageCollector.defaults with limit := 2 }
    interval := 43200
    delay := 1
    logDb := false
    utcOffset := 0 }

/-- A message that has expired. -/
def oldLog : LogRow := ⟨.date ⟨.ofTime 0 1600000000, Civil.ofTime_valid⟩⟩

def threeOldLogs : GcThread where
  position := .purging
  isShuttingDown := false
  tables :=
    { instances := [⟨1, false, .null⟩]
      parameters := [⟨1⟩, ⟨2⟩]
      logs := [oldLog, oldLog, oldLog] }
  clock := 0

def purgesTwice : List GcAction :=
  [.purge 1700000000 (fun _ ↦ false) none, .poll none, .poll none,
    .purge 1700000001 (fun _ ↦ false) none, .poll none, .poll none,
    .purge 1700000002 (fun _ ↦ false) none]

theorem swept_purgesTwice : ∃ s', run (step twoAtOnce) threeOldLogs purgesTwice = some s' ∧
    s'.tables = twoAtOnce.gc.swept 0 s'.clock threeOldLogs.tables := by
  have hposition : (run (step twoAtOnce) threeOldLogs purgesTwice).map (fun s ↦ s.position) =
      some (.interval 0) := by
    decide +kernel
  rcases Option.map_eq_some_iff.mp hposition with ⟨s', hrun, hend⟩
  have hok : Meets (step twoAtOnce) Faultless threeOldLogs purgesTwice := by
    decide +kernel
  exact ⟨s', hrun, swept_of_run twoAtOnce threeOldLogs s' purgesTwice 0 (by decide) (by decide) rfl
    (by decide) rfl hok hrun hend⟩

/-! ## Shutdown -/

end GcThread

/-- The steps up to the next look at the flag, or up to the next purge. -/
def GcPosition.stepsLeft (c : GcSettings) : GcPosition → Nat
  | .interval i => if (i : Int) < c.interval then 1 else 3
  | .purging => 2
  | .delay i _ => if (i : Int) < c.delay then 1 else 3
  | .exited | .terminated => 0

namespace GcThread

/-- The rows of the tables that a purge counts. -/
def rows (s : GcThread) : Nat := s.tables.instances.length + s.tables.logs.length

/-- The steps that are left to the thread behind `Shutdown`.  Where it sleeps between two purges, it does not
come to the second one. -/
def stepsLeft (c : GcSettings) (s : GcThread) : Nat :=
  (if 0 < c.delay then 0 else 4 * s.rows) + s.position.stepsLeft c

end GcThread

namespace GarbageCollector

variable {gc : GarbageCollector} {utcOffset now : Int} {tables : Tables}

/-- A purge that says that it has deleted rows has deleted some. -/
theorem length_purge (gc : GarbageCollector) (utcOffset now : Int) (raises : PurgeCall → Bool)
    (tables : Tables) :
    let purged := gc.purge utcOffset now raises tables
    let rows := purged.tables.instances.length + purged.tables.logs.length
    rows ≤ tables.instances.length + tables.logs.length ∧
      (purged.deletedRows ≠ 0 → rows < tables.instances.length + tables.logs.length) := by
  have hinstances := (@purge_perm gc utcOffset now raises tables).1.length_eq
  have hlogs := (@purge_perm gc utcOffset now raises tables).2.length_eq
  rw [List.length_append] at hinstances hlogs
  dsimp only
  refine ⟨by omega, fun hdeleted ↦ ?_⟩
  have hsome : (gc.purge utcOffset now raises tables).instances.length +
      (gc.purge utcOffset now raises tables).logs.length ≠ 0 := by
    intro hzero
    apply hdeleted
    unfold purge at hzero ⊢
    dsimp only at hzero ⊢
    split
    · rfl
    · rename_i hquery
      rw [hquery] at hzero
      dsimp only at hzero
      split
      · rfl
      · rename_i hraises
        rw [if_neg hraises] at hzero
        split
        · rfl
        · rename_i hquery'
          rw [hquery'] at hzero
          dsimp only at hzero ⊢
          rw [hzero]
          rfl
  omega

end GarbageCollector

namespace GcThread

variable {c : GcSettings} {s s' : GcThread}

/-- The thread goes on without a purge. -/
theorem stepsLeft_position {position position' : GcPosition} (hposition : s.position = position)
    (hlt : position'.stepsLeft c < position.stepsLeft c) :
    stepsLeft c { s with position := position' } < s.stepsLeft c := by
  unfold stepsLeft
  rw [hposition]
  exact Nat.add_lt_add_left hlt _

/-- A message goes on without a purge too, unless what it raises ends the thread. -/
theorem log_stepsLeft {logged : Option DateTime} {position : GcPosition}
    (hlog : c.logDb = false ∨ 0 < c.delay) (s : GcThread) :
    (s.log c logged position).isShuttingDown = s.isShuttingDown ∧
      (s.log c logged position).stepsLeft c ≤ stepsLeft c { s with position } := by
  rcases hlog with hlog | hdelay
  · rw [log_eq hlog]
    exact ⟨rfl, Nat.le_refl _⟩
  · unfold log
    split
    · split
      · refine ⟨rfl, ?_⟩
        unfold stepsLeft
        exact Nat.add_le_add_left (Nat.zero_le _) _
      · refine ⟨rfl, ?_⟩
        unfold stepsLeft
        rw [if_pos hdelay, if_pos hdelay]
    · exact ⟨rfl, Nat.le_refl _⟩

theorem poll_stepsLeft {logged : Option DateTime} (hinterval : 0 < c.interval)
    (hlog : c.logDb = false ∨ 0 < c.delay) (hdown : s.isShuttingDown = true)
    (hstep : s.step c (.poll logged) = some s') :
    s'.isShuttingDown = true ∧ s'.stepsLeft c < s.stepsLeft c := by
  unfold step at hstep
  dsimp only at hstep
  have hexit := @log_stepsLeft c logged .exited hlog s
  rw [hdown] at hexit
  split at hstep
  · rename_i i hposition
    by_cases hlt : (i : Int) < c.interval
    · have hleft : (GcPosition.interval i).stepsLeft c = 1 := if_pos hlt
      rw [if_pos hlt, if_pos hdown, Option.some.injEq] at hstep
      rw [← hstep]
      refine ⟨hexit.1, Nat.lt_of_le_of_lt hexit.2 (stepsLeft_position hposition ?_)⟩
      rw [hleft]
      exact Nat.one_pos
    · have hleft : (GcPosition.interval i).stepsLeft c = 3 := if_neg hlt
      rw [if_neg hlt, Option.some.injEq] at hstep
      rw [← hstep]
      refine ⟨hdown, stepsLeft_position hposition ?_⟩
      rw [hleft]
      exact Nat.lt_succ_self 2
  · rename_i i deletedRows hposition
    by_cases hlt : (i : Int) < c.delay
    · have hleft : (GcPosition.delay i deletedRows).stepsLeft c = 1 := if_pos hlt
      rw [if_pos hlt, if_pos hdown, Option.some.injEq] at hstep
      rw [← hstep]
      refine ⟨hexit.1, Nat.lt_of_le_of_lt hexit.2 (stepsLeft_position hposition ?_)⟩
      rw [hleft]
      exact Nat.one_pos
    · have hleft : (GcPosition.delay i deletedRows).stepsLeft c = 3 := if_neg hlt
      have hfirst : (GcPosition.interval 0).stepsLeft c = 1 := if_pos hinterval
      rw [if_neg hlt, Option.some.injEq] at hstep
      rw [← hstep]
      refine ⟨hdown, stepsLeft_position hposition ?_⟩
      rw [hleft]
      split
      · exact Nat.lt_succ_self 2
      · rw [hfirst]
        omega
  · cases hstep

theorem purge_stepsLeft {now : Int} {raises : PurgeCall → Bool} {logged : Option DateTime}
    (hinterval : 0 < c.interval) (hlog : c.logDb = false ∨ 0 < c.delay) (hdown : s.isShuttingDown = true)
    (hstep : s.step c (.purge now raises logged) = some s') :
    s'.isShuttingDown = true ∧ s'.stepsLeft c < s.stepsLeft c := by
  unfold step at hstep
  dsimp only at hstep
  split at hstep
  case isFalse => cases hstep
  rename_i hposition
  have hrows := GarbageCollector.length_purge c.gc c.utcOffset now raises s.tables
  dsimp only at hrows
  generalize c.gc.purge c.utcOffset now raises s.tables = purged at hrows hstep
  have hbefore : s.stepsLeft c =
      (if 0 < c.delay then 0 else 4 * (s.tables.instances.length + s.tables.logs.length)) + 2 := by
    unfold stepsLeft rows
    rw [hposition]
    rfl
  -- where the thread goes on without a purge, it has at most one step more than it has rows
  have hnext (position : GcPosition) (hleft : position.stepsLeft c = 1 ∨
      (position.stepsLeft c = 3 ∧ ¬ 0 < c.delay ∧ purged.deletedRows ≠ 0)) : stepsLeft c
        { s with
          tables := purged.tables
          clock := now
          position } < s.stepsLeft c := by
    rw [hbefore]
    unfold stepsLeft rows
    dsimp only
    rcases hleft with hone | ⟨hthree, hdelay, hdeleted⟩
    · rw [hone]
      split <;> omega
    · have hfewer := hrows.2 hdeleted
      rw [hthree, if_neg hdelay, if_neg hdelay]
      omega
  have hfirst : (GcPosition.interval 0).stepsLeft c = 1 := if_pos hinterval
  split at hstep
  · have hmessage := @log_stepsLeft c logged (.interval 0) hlog
      { s with
        tables := purged.tables
        clock := now }
    rw [← Option.some.inj hstep]
    exact ⟨hmessage.1.trans hdown, Nat.lt_of_le_of_lt hmessage.2 (hnext _ (.inl hfirst))⟩
  split at hstep
  · rw [← Option.some.inj hstep]
    exact ⟨hdown, hnext _ (.inl hfirst)⟩
  · rename_i hdeleted
    have hmessage := @log_stepsLeft c logged (.delay 0 purged.deletedRows) hlog
      { s with
        tables := purged.tables
        clock := now }
    have hleft : (GcPosition.delay 0 purged.deletedRows).stepsLeft c = 1 ∨
        ((GcPosition.delay 0 purged.deletedRows).stepsLeft c = 3 ∧ ¬ 0 < c.delay ∧
          purged.deletedRows ≠ 0) := by
      by_cases hdelay : 0 < c.delay
      · exact .inl (if_pos hdelay)
      · exact .inr ⟨if_neg hdelay, hdelay, hdeleted⟩
    rw [← Option.some.inj hstep]
    exact ⟨hmessage.1.trans hdown, Nat.lt_of_le_of_lt hmessage.2 (hnext _ hleft)⟩

/-- Every step behind `Shutdown` is one less. -/
theorem stepsLeft_lt (hinterval : 0 < c.interval) (hlog : c.logDb = false ∨ 0 < c.delay)
    (hdown : s.isShuttingDown = true) {action : GcAction} (hstep : s.step c action = some s') :
    s'.isShuttingDown = true ∧ s'.stepsLeft c < s.stepsLeft c := by
  cases action with
  | poll logged => exact poll_stepsLeft hinterval hlog hdown hstep
  | purge now raises logged => exact purge_stepsLeft hinterval hlog hdown hstep
  | shutdown =>
    unfold step at hstep
    dsimp only at hstep
    rw [hdown, if_pos rfl] at hstep
    cases hstep
  | insert tables =>
    unfold step at hstep
    dsimp only at hstep
    rw [hdown, if_pos rfl] at hstep
    cases hstep

/-- No purge comes through, and the thread does not sleep. -/
def spinning (c : GcSettings) (n : Nat) : GcThread where
  position := if n % 2 = 0 then .purging else .interval 0
  isShuttingDown := true
  tables := ⟨[], [], if c.logDb then List.replicate ((n + 1) / 2) ⟨.null⟩ else []⟩
  clock := 0

def spins (n : Nat) : GcAction :=
  if n % 2 = 0 then .purge 0 (fun _ ↦ true) (some .null) else .poll none

theorem endless_spinning (hinterval : ¬ 0 < c.interval) : Endless (step c) (spinning c) spins := by
  intro n
  have hmod := Nat.mod_two_eq_zero_or_one n
  unfold step spins spinning log
  rcases hmod with hmod | hmod
  · have hnext : (n + 1) % 2 ≠ 0 := by omega
    have hhalf : (n + 1) / 2 = n / 2 := by omega
    have hhalf' : (n + 1 + 1) / 2 = n / 2 + 1 := by omega
    rw [if_pos hmod, if_pos hmod, if_neg hnext, hhalf, hhalf', List.replicate_succ']
    dsimp only
    rw [if_pos rfl]
    cases c.logDb <;> rfl
  · have hnow : n % 2 ≠ 0 := by omega
    have hnext : (n + 1) % 2 = 0 := by omega
    have hhalf : (n + 1 + 1) / 2 = (n + 1) / 2 := by omega
    rw [if_neg hnow, if_neg hnow, if_pos hnext, hhalf]
    dsimp only
    rw [if_neg (by omega)]

/-- **`WaitForShutdown` returns exactly when `gc.interval` is positive.**  A thread that does not sleep
before a round never sees the flag while its purges fail or find nothing to delete.  No rows are added behind
`Shutdown`, and a log that raises ends the thread with the process. -/
theorem endless_iff (c : GcSettings) (hlog : c.logDb = false ∨ 0 < c.delay) :
    (∀ states actions, (states 0).isShuttingDown = true → ¬Endless (step c) states actions) ↔
      0 < c.interval := by
  constructor
  · intro hends
    by_contra hinterval
    exact hends (spinning c) spins rfl (endless_spinning hinterval)
  · intro hinterval states actions hdown hrun
    have hdescends : Descends (step c) (fun _ ↦ False)
        fun s r ↦ s.isShuttingDown = true ∧ s.stepsLeft c = r := by
      constructor
      case keeps => exact fun _ _ _ _ hidle ↦ hidle.elim
      case lowers =>
        intro s a s' r _ hranked hstep
        have hless := stepsLeft_lt hinterval hlog hranked.1 hstep
        rw [hranked.2] at hless
        exact ⟨_, hless.2, hless.1, rfl⟩
    rcases hdescends.eventually_idle hrun ⟨hdown, rfl⟩ with ⟨m, hm⟩
    exact hm m (Nat.le_refl m)

theorem endless_twoAtOnce :
    (∀ states actions, (states 0).isShuttingDown = true → ¬Endless (step twoAtOnce) states actions) ↔
      0 < twoAtOnce.interval :=
  endless_iff twoAtOnce (.inl rfl)

end GcThread

end EvQueue
