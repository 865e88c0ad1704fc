import EvQueue.ScheduleNext

/-!
# GarbageCollector — what a purge deletes

A retention is a number of days.  `purge` multiplies it by 86400 as an `int`, takes the product from the
`time_t` of now, and deletes what the database compares as not later than that local time.  The rows of a
table come in the order in which a statement meets them.
-/

namespace EvQueue

/-- A `DATETIME` column. -/
inductive DateTime where
  | null
  /-- `0000-00-00 00:00:00`, which comes before every date. -/
  | zero
  | date (civil : { c : Civil // c.Valid })
deriving DecidableEq

namespace DateTime

/-- `column <= '...'`: no comparison with `NULL` holds. -/
def atMost (literal : Civil) : DateTime → Bool
  | null => false
  | zero => true
  | date civil => decide (civil.val.rank ≤ literal.rank)

/-- The column has a time, and it is not later than `t`. -/
def NotAfter (utcOffset t : Int) : DateTime → Prop
  | null => False
  | zero => True
  | date civil => civil.val.time utcOffset ≤ t

instance (utcOffset t : Int) : DecidablePred (NotAfter utcOffset t)
  | null => inferInstanceAs (Decidable False)
  | zero => inferInstanceAs (Decidable True)
  | date civil => inferInstanceAs (Decidable (civil.val.time utcOffset ≤ t))

variable {utcOffset t u : Int} {d : DateTime}

/-- The database compares local times as the engine's clock does. -/
theorem atMost_ofTime_iff : d.atMost (.ofTime utcOffset t) = true ↔ d.NotAfter utcOffset t := by
  cases d with
  | null => exact ⟨nofun, nofun⟩
  | zero => exact ⟨fun _ ↦ trivial, fun _ ↦ rfl⟩
  | date civil =>
    rw [atMost, decide_eq_true_iff, NotAfter]
    constructor
    · intro hrank
      have htime := Civil.time_le_time utcOffset civil.property Civil.ofTime_valid.toInRange hrank
      rwa [Civil.time_ofTime] at htime
    · intro htime
      apply Civil.rank_le_of_time_le utcOffset Civil.ofTime_valid civil.property.toInRange
      rwa [Civil.time_ofTime]

theorem NotAfter.mono (h : d.NotAfter utcOffset t) (htu : t ≤ u) : d.NotAfter utcOffset u := by
  cases d with
  | null => exact h
  | zero => trivial
  | date civil => exact Int.le_trans h htu

end DateTime

/-- A row of `t_workflow_instance`. -/
structure InstanceRow where
  workflowInstanceId : Nat
  /-- `workflow_instance_status='TERMINATED'`. -/
  terminated : Bool
  workflowInstanceEnd : DateTime
deriving DecidableEq

/-- A row of `t_log`. -/
structure LogRow where
  logTimestamp : DateTime
deriving DecidableEq

/-- A row of `t_workflow_instance_parameters`. -/
structure ParameterRow where
  workflowInstanceId : Nat
deriving DecidableEq

structure Tables where
  instances : List InstanceRow
  parameters : List ParameterRow
  logs : List LogRow
deriving DecidableEq

/-! ## One statement -/

section Delete

variable {α : Type} {p : α → Bool} {n : Nat} {table : List α} {row : α}

/-- `DELETE ... WHERE p LIMIT n`: the rows deleted, and those that stay. -/
def deleteLimit (p : α → Bool) : Nat → List α → List α × List α
  | _, [] => ([], [])
  | 0, row :: rows => ([], row :: rows)
  | n + 1, row :: rows =>
    if p row then
      let rest := deleteLimit p n rows
      (row :: rest.1, rest.2)
    else
      let rest := deleteLimit p (n + 1) rows
      (rest.1, row :: rest.2)

theorem deleteLimit_fst (p : α → Bool) (n : Nat) (table : List α) :
    (deleteLimit p n table).1 = (table.filter p).take n := by
  fun_induction deleteLimit p n table with
  | case1 => rw [List.filter_nil, List.take_nil]
  | case2 => rw [List.take_zero]
  | case3 n row rows hp rest ih => rw [List.filter_cons_of_pos hp, List.take_succ_cons, ← ih]
  | case4 n row rows hp rest ih => rw [List.filter_cons_of_neg hp, ← ih]

/-- No row is lost or added. -/
theorem deleteLimit_perm (p : α → Bool) (n : Nat) (table : List α) :
    ((deleteLimit p n table).1 ++ (deleteLimit p n table).2).Perm table := by
  fun_induction deleteLimit p n table with
  | case1 => exact .nil
  | case2 => exact .refl _
  | case3 n row rows hp rest ih => exact ih.cons row
  | case4 n row rows hp rest ih => exact List.perm_middle.trans (ih.cons row)

/-- `DB::QueryPrintf` on such a statement: it raises where the connection or the server does, and on a
negative limit, which is no SQL. -/
def queryDelete (raises : Bool) (p : α → Bool) (limit : Int) (table : List α) :
    Option (List α × List α) :=
  if raises ∨ limit < 0 then none else some (deleteLimit p limit.toNat table)

variable {raises : Bool} {limit : Int} {deleted kept : List α}

theorem queryDelete_spec (h : queryDelete raises p limit table = some (deleted, kept)) :
    0 ≤ limit ∧ deleted = (table.filter p).take limit.toNat ∧ (deleted ++ kept).Perm table := by
  unfold queryDelete at h
  split at h
  case isTrue => cases h
  case isFalse hraises =>
    have heq := Option.some.inj h
    have hfst := deleteLimit_fst p limit.toNat table
    have hperm := deleteLimit_perm p limit.toNat table
    rw [heq] at hfst hperm
    exact ⟨by omega, hfst, hperm⟩

/-- What is deleted matches, and the limit lets it be deleted. -/
theorem queryDelete_mem (h : queryDelete raises p limit table = some (deleted, kept))
    (hrow : row ∈ deleted) : p row = true ∧ 0 < limit := by
  obtain ⟨-, hdeleted, -⟩ := queryDelete_spec h
  rw [hdeleted] at hrow
  have hlength := List.length_pos_of_mem hrow
  rw [List.length_take] at hlength
  exact ⟨(List.mem_filter.mp (List.mem_of_mem_take hrow)).2, by omega⟩

/-- A row alone in its table is deleted if it matches. -/
theorem queryDelete_single (hp : p row = true) (hlimit : 0 < limit) :
    queryDelete false p limit [row] = some ([row], []) := by
  obtain ⟨n, hn⟩ : ∃ n : Nat, limit.toNat = n + 1 := ⟨limit.toNat - 1, by omega⟩
  have hpos : ¬ (false = true ∨ limit < 0) := by simp; omega
  rw [queryDelete, if_neg hpos, hn, deleteLimit, if_pos hp, deleteLimit]

end Delete

/-! ## A purge -/

/-- The configuration that `purge` reads. -/
structure GarbageCollector where
  limit : Int
  workflowinstanceRetention : Int
  logsRetention : Int
deriving DecidableEq, Repr

/-- The calls of `purge` that can raise. -/
inductive PurgeCall where
  | connect
  | deleteInstances
  | deleteParameters
  | deleteLogs
deriving DecidableEq, Repr

/-- What one `purge` has deleted, the tables it leaves, and the number it returns. -/
structure Purged where
  instances : List InstanceRow
  logs : List LogRow
  tables : Tables
  deletedRows : Int
deriving DecidableEq

/-- `now - retention*86400`: the product is an `int`, the difference a `time_t`. -/
def cutoff (now retention : Int) : Int :=
  (now - (retention * 86400).bmod (2 ^ 32)).bmod (2 ^ 64)

namespace GarbageCollector

/-- Both retentions are non-negative values of an `int`. -/
structure Configured (gc : GarbageCollector) : Prop where
  instances_nonneg : 0 ≤ gc.workflowinstanceRetention
  instances_lt : gc.workflowinstanceRetention < 2 ^ 31
  logs_nonneg : 0 ≤ gc.logsRetention
  logs_lt : gc.logsRetention < 2 ^ 31

def purge (gc : GarbageCollector) (utcOffset now : Int) (raises : PurgeCall → Bool) (tables : Tables) :
    Purged :=
  let wfi := Civil.ofTime utcOffset (cutoff now gc.workflowinstanceRetention)
  let logs := Civil.ofTime utcOffset (cutoff now gc.logsRetention)
  let expired (row : InstanceRow) := row.terminated && row.workflowInstanceEnd.atMost wfi
  match queryDelete (raises .connect || raises .deleteInstances) expired gc.limit tables.instances with
  | none => ⟨[], [], tables, 0⟩
  | some (instances, kept) =>
    -- every statement commits by itself: what raises later does not bring the rows back
    let tables := { tables with instances := kept }
    if raises .deleteParameters then ⟨instances, [], tables, 0⟩
    else
      let hasInstance (row : ParameterRow) := kept.any (·.workflowInstanceId == row.workflowInstanceId)
      let tables := { tables with parameters := tables.parameters.filter hasInstance }
      match queryDelete (raises .deleteLogs) (·.logTimestamp.atMost logs) gc.limit tables.logs with
      | none => ⟨instances, [], tables, 0⟩
      | some (deletedLogs, keptLogs) =>
        { instances, logs := deletedLogs, tables := { tables with logs := keptLogs },
          deletedRows := ((instances.length + deletedLogs.length : Nat) : Int).bmod (2 ^ 32) }

variable {gc : GarbageCollector} {utcOffset now retention : Int} {raises : PurgeCall → Bool}
variable {tables : Tables}

/-- What a purge deletes, a statement of it has deleted. -/
theorem purge_deleted (gc : GarbageCollector) (utcOffset now : Int) (raises : PurgeCall → Bool)
    (tables : Tables) :
    (∀ row ∈ (gc.purge utcOffset now raises tables).instances,
      (row.terminated = true ∧ row.workflowInstanceEnd.NotAfter utcOffset
        (cutoff now gc.workflowinstanceRetention)) ∧ 0 < gc.limit) ∧
    ∀ row ∈ (gc.purge utcOffset now raises tables).logs,
      row.logTimestamp.NotAfter utcOffset (cutoff now gc.logsRetention) ∧ 0 < gc.limit := by
  unfold purge
  dsimp only
  split
  case h_1 => exact ⟨nofun, nofun⟩
  case h_2 instances kept hinstances =>
    have hmem : ∀ row ∈ instances, (row.terminated = true ∧ row.workflowInstanceEnd.NotAfter utcOffset
        (cutoff now gc.workflowinstanceRetention)) ∧ 0 < gc.limit := by
      intro row hrow
      obtain ⟨hexpired, hlimit⟩ := queryDelete_mem hinstances hrow
      rw [Bool.and_eq_true, DateTime.atMost_ofTime_iff] at hexpired
      exact ⟨hexpired, hlimit⟩
    split
    case isTrue => exact ⟨hmem, nofun⟩
    case isFalse =>
      split
      case h_1 => exact ⟨hmem, nofun⟩
      case h_2 deletedLogs keptLogs hlogs =>
        refine ⟨hmem, fun row hrow ↦ ?_⟩
        obtain ⟨hexpired, hlimit⟩ := queryDelete_mem hlogs hrow
        exact ⟨DateTime.atMost_ofTime_iff.mp hexpired, hlimit⟩

/-- Whatever raises, a row is either among those deleted or still in its table. -/
theorem purge_perm :
    ((gc.purge utcOffset now raises tables).instances ++
      (gc.purge utcOffset now raises tables).tables.instances).Perm tables.instances ∧
    ((gc.purge utcOffset now raises tables).logs ++
      (gc.purge utcOffset now raises tables).tables.logs).Perm tables.logs := by
  unfold purge
  dsimp only
  split
  case h_1 => exact ⟨.refl _, .refl _⟩
  case h_2 instances kept hinstances =>
    obtain ⟨-, -, hperm⟩ := queryDelete_spec hinstances
    split
    case isTrue => exact ⟨hperm, .refl _⟩
    case isFalse =>
      split
      case h_1 => exact ⟨hperm, .refl _⟩
      case h_2 deletedLogs keptLogs hlogs =>
        obtain ⟨-, -, hpermLogs⟩ := queryDelete_spec hlogs
        exact ⟨hperm, hpermLogs⟩

/-- The parameters of an instance that is still there stay. -/
theorem purge_parameters {row : ParameterRow} (hrow : row ∈ tables.parameters)
    (hinstance : ∃ i ∈ (gc.purge utcOffset now raises tables).tables.instances,
      i.workflowInstanceId = row.workflowInstanceId) :
    row ∈ (gc.purge utcOffset now raises tables).tables.parameters := by
  unfold purge at hinstance ⊢
  dsimp only at hinstance ⊢
  split
  case h_1 => exact hrow
  case h_2 instances kept hinstances =>
    rw [hinstances] at hinstance
    split
    case isTrue => exact hrow
    case isFalse hparameters =>
      have hkept : ∃ i ∈ kept, i.workflowInstanceId = row.workflowInstanceId := by
        dsimp only at hinstance
        rw [if_neg hparameters] at hinstance
        split at hinstance <;> exact hinstance
      have hfilter : row ∈ tables.parameters.filter
          fun row ↦ kept.any (·.workflowInstanceId == row.workflowInstanceId) := by
        obtain ⟨i, hi, hid⟩ := hkept
        exact List.mem_filter.mpr ⟨hrow, List.any_eq_true.mpr ⟨i, hi, beq_iff_eq.mpr hid⟩⟩
      split <;> exact hfilter

/-! ## The cutoff -/

/-- The cutoff lies at least the retention back. -/
def Sound (now retention : Int) : Prop :=
  -- the product fits, and the difference does
  (retention ≤ 24855 ∧ -2 ^ 63 ≤ now - retention * 86400) ∨
    -- it does not fit, but now is so late that the difference wraps into the past
    (24855 < retention ∧ 2 ^ 63 ≤ now - (retention * 86400).bmod (2 ^ 32))

theorem product_eq (hretention : 0 ≤ retention) (hle : retention ≤ 24855) :
    (retention * 86400).bmod (2 ^ 32) = retention * 86400 := by
  apply Int.bmod_eq_of_le_mul_two
  · push_cast
    omega
  · push_cast
    omega

theorem product_bounds (retention : Int) :
    -2 ^ 31 ≤ (retention * 86400).bmod (2 ^ 32) ∧ (retention * 86400).bmod (2 ^ 32) < 2 ^ 31 := by
  have hlow := Int.le_bmod (x := retention * 86400) (m := 2 ^ 32) (by decide)
  have hhigh := Int.bmod_lt (x := retention * 86400) (m := 2 ^ 32) (by decide)
  norm_num at hlow hhigh ⊢
  omega

/-- A difference of two `time_t` wraps at most once. -/
theorem difference_eq {x : Int} (hlow : -2 ^ 64 ≤ x) (hhigh : x < 2 ^ 64) :
    x.bmod (2 ^ 64) = if x < -2 ^ 63 then x + 2 ^ 64 else if x < 2 ^ 63 then x else x - 2 ^ 64 := by
  rw [Int.bmod_eq_emod]
  push_cast
  split <;> omega

theorem cutoff_le_iff (hretention : 0 ≤ retention) (hlt : retention < 2 ^ 31)
    (hnow : -2 ^ 63 ≤ now ∧ now < 2 ^ 63) :
    cutoff now retention ≤ now - retention * 86400 ↔ Sound now retention := by
  obtain ⟨hlow, hhigh⟩ := product_bounds retention
  unfold cutoff Sound
  rw [difference_eq (by omega) (by omega)]
  rcases Int.lt_or_le 24855 retention with hlarge | hsmall
  · -- the product is less than it should be, so only a wrap of the difference helps
    have hproduct : (retention * 86400).bmod (2 ^ 32) < retention * 86400 := by omega
    split <;> omega
  · rw [product_eq hretention hsmall]
    split <;> omega

/-! ## What a purge keeps -/

/-- What is deleted is at least as old as the retention of its table. -/
def Retains (gc : GarbageCollector) (utcOffset now : Int) (purged : Purged) : Prop :=
  (∀ row ∈ purged.instances,
    row.workflowInstanceEnd.NotAfter utcOffset (now - gc.workflowinstanceRetention * 86400)) ∧
  ∀ row ∈ purged.logs, row.logTimestamp.NotAfter utcOffset (now - gc.logsRetention * 86400)

/-- One row of either table, as recent as a purge deletes them. -/
def newest (gc : GarbageCollector) (utcOffset now : Int) : Tables :=
  let last (retention : Int) := .date ⟨.ofTime utcOffset (cutoff now retention), Civil.ofTime_valid⟩
  { instances := [⟨0, true, last gc.workflowinstanceRetention⟩], parameters := [],
    logs := [⟨last gc.logsRetention⟩] }

theorem purge_newest (utcOffset now : Int) (hlimit : 0 < gc.limit) :
    (gc.purge utcOffset now (fun _ ↦ false) (gc.newest utcOffset now)).instances =
      (gc.newest utcOffset now).instances ∧
    (gc.purge utcOffset now (fun _ ↦ false) (gc.newest utcOffset now)).logs =
      (gc.newest utcOffset now).logs := by
  unfold purge newest
  simp only [Bool.or_self, Bool.false_eq_true, if_false]
  rw [queryDelete_single (by simp [DateTime.atMost]) hlimit]
  dsimp only
  rw [queryDelete_single (by simp [DateTime.atMost]) hlimit]
  exact ⟨rfl, rfl⟩

/-- **A purge deletes expired rows only, exactly where the cutoffs do not wrap to a time too late.** -/
theorem purge_retains_iff (hgc : gc.Configured) (utcOffset : Int) (hnow : -2 ^ 63 ≤ now ∧ now < 2 ^ 63) :
    (∀ raises tables, gc.Retains utcOffset now (gc.purge utcOffset now raises tables)) ↔
      gc.limit ≤ 0 ∨ (Sound now gc.workflowinstanceRetention ∧ Sound now gc.logsRetention) := by
  rw [← cutoff_le_iff hgc.instances_nonneg hgc.instances_lt hnow,
    ← cutoff_le_iff hgc.logs_nonneg hgc.logs_lt hnow]
  constructor
  · intro h
    rcases Int.lt_or_le 0 gc.limit with hlimit | hlimit
    · -- rows as recent as the cutoffs are deleted
      obtain ⟨hinstances, hlogs⟩ := h (fun _ ↦ false) (gc.newest utcOffset now)
      obtain ⟨heq, heqLogs⟩ := purge_newest utcOffset now hlimit
      rw [heq] at hinstances
      rw [heqLogs] at hlogs
      have hinstance := hinstances _ (List.mem_singleton.mpr rfl)
      have hlog := hlogs _ (List.mem_singleton.mpr rfl)
      simp only [DateTime.NotAfter, Civil.time_ofTime] at hinstance hlog
      exact .inr ⟨hinstance, hlog⟩
    · exact .inl hlimit
  · intro h raises tables
    obtain ⟨hinstances, hlogs⟩ := purge_deleted gc utcOffset now raises tables
    constructor
    · intro row hrow
      obtain ⟨⟨-, hend⟩, hlimit⟩ := hinstances row hrow
      rcases h with hno | ⟨hcutoff, -⟩
      · omega
      · exact hend.mono hcutoff
    · intro row hrow
      obtain ⟨htimestamp, hlimit⟩ := hlogs row hrow
      rcases h with hno | ⟨-, hcutoff⟩
      · omega
      · exact htimestamp.mono hcutoff

/-- The settings of `Configuration`. -/
def defaults : GarbageCollector := { limit := 1000, workflowinstanceRetention := 30, logsRetention := 7 }

theorem purge_retains_defaults : Sound 1700000000 30 ∧ Sound 1700000000 7 ∧
    ∀ raises tables, defaults.Retains 3600 1700000000 (defaults.purge 3600 1700000000 raises tables) := by
  have hinstances : Sound 1700000000 30 := .inl (by decide)
  have hlogs : Sound 1700000000 7 := .inl (by decide)
  refine ⟨hinstances, hlogs, ?_⟩
  exact (purge_retains_iff ⟨by decide, by decide, by decide, by decide⟩ 3600 (by decide)).mpr
    (.inr ⟨hinstances, hlogs⟩)

/-- An instance that has ended within the second is deleted under a retention of 24856 days, of which the
cutoff is in the year 2091. -/
theorem purge_deletes_justEnded :
    let gc := { defaults with workflowinstanceRetention := 24856 }
    let justEnded : InstanceRow := ⟨1, true, .date ⟨.ofTime 0 1700000000, Civil.ofTime_valid⟩⟩
    gc.Configured ∧ (gc.purge 0 1700000000 (fun _ ↦ false) ⟨[justEnded], [], []⟩).instances = [justEnded] ∧
      ¬ justEnded.workflowInstanceEnd.NotAfter 0 (1700000000 - 24856 * 86400) := by
  refine ⟨⟨by decide, by decide, by decide, by decide⟩, ?_, ?_⟩
  · decide
  · decide

end GarbageCollector

end EvQueue
