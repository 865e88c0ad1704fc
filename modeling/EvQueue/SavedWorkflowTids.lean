import EvQueue.EngineLimit
import EvQueue.SavedWorkflow

/-!
# SavedWorkflowTids — which executing tasks `Resume` puts back into the tables of the pool

`main` resumes the saved instances one after the other, before the forker and the gatherer are started;
so nobody else touches the tables of task identifiers meanwhile.  The node of a task is its path in the
document of its instance.
-/

namespace EvQueue

namespace SavedWorkflow

open Cells Xml

/-- The calls that `Resume` makes for all saved instances, each with its instance. -/
abbrev Call (WI : Type) := WI × Found × ResumeStep

/-- A task saved `EXECUTING`, with the queue and the identifier of its attributes. -/
structure Execution (WI : Type) where
  workflowInstance : WI
  task : Path
  queueName : String
  taskId : Int
deriving DecidableEq, Repr

section

variable {WI : Type}

def calls (saved : List (WI × Xml)) : List (Call WI) :=
  saved.flatMap fun x ↦ (resume x.2).map fun call ↦ (x.1, call)

def execution? : Call WI → Option (Execution WI)
  | (wi, task, .executeTask queueName taskId) => some ⟨wi, task.path, queueName, taskId⟩
  | _ => none

def executions (saved : List (WI × Xml)) : List (Execution WI) := (calls saved).filterMap execution?

/-- The effect of one call on the pool.  `none`: the exception leaves `main`, or the tables, which have
`maxpid + 1` entries, are accessed outside their bounds. -/
def perform (A : Allocator (Task WI Path)) (p : QueuePool WI Path) :
    Call WI → Option (QueuePool WI Path)
  | (wi, task, .enqueueTask) =>
      (p.enqueueTask A (getAttribute task.attributes "queue") wi task.path).map Prod.snd
  | (wi, task, .executeTask queueName taskId) =>
      match p.lookup queueName with
      | none => some p
      | some _ =>
          if 0 ≤ taskId ∧ taskId ≤ (p.maxpid : Nat) then
            some (p.executeTask wi task.path queueName taskId.toNat).2
          else none
  | (_, _, .invalidTid) => none
  | (_, _, .retryTask) => some p

def performAll (A : Allocator (Task WI Path)) (p : QueuePool WI Path) :
    List (Call WI) → Option (QueuePool WI Path)
  | [] => some p
  | call :: rest => (perform A p call).bind fun p ↦ performAll A p rest

/-- The pool once all saved instances are resumed. -/
def restart (A : Allocator (Task WI Path)) (p : QueuePool WI Path) (saved : List (WI × Xml)) :
    Option (QueuePool WI Path) :=
  performAll A p (calls saved)

/-- The tables give the task for its saved identifier. -/
def Registered (p : QueuePool WI Path) (x : Execution WI) : Prop :=
  0 ≤ x.taskId ∧ ∃ entry, p.tid x.taskId.toNat = some entry ∧ entry.task = x.task ∧
    entry.workflowInstance = x.workflowInstance ∧ p.lookup x.queueName = some entry.queueIndex

/-- The queues are configured, the identifiers differ, and where one is 0, all others that can be
allocated have been taken by the tasks resumed before. -/
structure Restorable (p : QueuePool WI Path) (xs : List (Execution WI)) : Prop where
  queues : ∀ x ∈ xs, (p.lookup x.queueName).isSome
  nodup : (xs.map Execution.taskId).Nodup
  zero : ∀ before x after, xs = before ++ x :: after → x.taskId = 0 →
    0 < (p.maxpid : Nat) ∧ ∀ t : Nat, 0 < t → t < p.maxpid → (t : Int) ∈ before.map Execution.taskId

/-! ## The tables after one call -/

variable {A : Allocator (Task WI Path)} {p p' p₀ : QueuePool WI Path} {call : Call WI}
  {x : Execution WI}

/-- Enqueueing leaves the tables alone. -/
theorem enqueueTask_tables {queueName : String} {wi : WI} {task : Path} {found : Bool}
    (h : p.enqueueTask A queueName wi task = some (found, p')) :
    p'.name = p.name ∧ p'.maxpid = p.maxpid ∧ p'.lasttid = p.lasttid ∧ p'.tid = p.tid := by
  unfold QueuePool.enqueueTask at h
  cases hlookup : p.lookup queueName with
  | none =>
    simp only [hlookup, Option.some.injEq, Prod.mk.injEq] at h
    rw [← h.2]
    exact ⟨rfl, rfl, rfl, rfl⟩
  | some i =>
    simp only [hlookup] at h
    rcases Option.bind_eq_some_iff.mp h with ⟨q, -, h⟩
    rcases Option.map_eq_some_iff.mp h with ⟨q', -, h⟩
    rw [← (Prod.mk.inj h).2]
    exact ⟨rfl, rfl, rfl, rfl⟩

/-- With `lasttid` 0 the identifiers are tried from 1 on, and 0 at last. -/
theorem candidates_eq (hlast : p.lasttid = 0) (hpos : 0 < (p.maxpid : Nat)) :
    p.candidates = List.range' 1 (p.maxpid - 1) ++ [0] := by
  unfold QueuePool.candidates
  have hsucc : (p.maxpid : Nat) = p.maxpid - 1 + 1 := by omega
  generalize (p.maxpid : Nat) - 1 = n at *
  rw [hlast, hsucc, List.range_succ, List.map_append, List.range'_eq_map_range]
  congr 1
  · apply List.map_congr_left
    intro i hi
    rw [List.mem_range] at hi
    rw [Nat.zero_add, Nat.mod_eq_of_lt (by omega)]
  · rw [List.map_singleton, Nat.zero_add, Nat.add_comm 1 n, Nat.mod_self]

theorem freeTid_eq_zero_iff (hlast : p.lasttid = 0) (hfree : p.tid 0 = none) :
    p.freeTid = some 0 ↔ 0 < (p.maxpid : Nat) ∧ ∀ t : Nat, 0 < t → t < p.maxpid → p.tid t ≠ none := by
  by_cases hpos : 0 < (p.maxpid : Nat)
  · unfold QueuePool.freeTid
    rw [candidates_eq hlast hpos, List.find?_append]
    constructor
    · intro h
      refine ⟨hpos, ?_⟩
      intro t ht hlt htid
      cases hfind : (List.range' 1 (p.maxpid - 1)).find? fun t ↦ (p.tid t).isNone with
      | none =>
        have hin : t ∈ List.range' 1 (p.maxpid - 1) := by
          rw [List.mem_range'_1]
          omega
        have hnot := List.find?_eq_none.mp hfind t hin
        rw [htid] at hnot
        exact hnot rfl
      | some t' =>
        rw [hfind, Option.some_or, Option.some.injEq] at h
        have hin := List.mem_of_find?_eq_some hfind
        rw [List.mem_range'_1] at hin
        omega
    · intro h
      have hnone : (List.range' 1 (p.maxpid - 1)).find? (fun t ↦ (p.tid t).isNone) = none := by
        rw [List.find?_eq_none]
        intro t ht
        rw [List.mem_range'_1] at ht
        have htid := h.2 t (by omega) (by omega)
        simpa using htid
      rw [hnone, Option.none_or]
      simp [hfree]
  · constructor
    · intro h
      have hzero : (p.maxpid : Nat) = 0 := by omega
      simp [QueuePool.freeTid, QueuePool.candidates, hzero] at h
    · intro h
      exact absurd h.1 hpos

/-- What registering a task does to the tables. -/
theorem register_tid (i : Nat) (wi : WI) (task : Path) (taskId : Nat) :
    (p.register i wi task taskId).tid = Function.update p.tid taskId (some ⟨i, task, wi⟩) := rfl

theorem lookup_of_name (h : p'.name = p.name) (queueName : String) :
    p'.lookup queueName = p.lookup queueName := by
  unfold QueuePool.lookup
  rw [h]

/-- A call that resumes an executing task, once its queue is known. -/
theorem perform_execution (hx : execution? call = some x) (h : perform A p call = some p') {i : Nat}
    (hqueue : p.lookup x.queueName = some i) : 0 ≤ x.taskId ∧
      p' = (p.executeTask x.workflowInstance x.task x.queueName x.taskId.toNat).2 := by
  rcases call with ⟨wi, task, step⟩
  cases step with
  | executeTask queueName taskId =>
    obtain rfl : ⟨wi, task.path, queueName, taskId⟩ = x := Option.some.inj hx
    unfold perform at h
    dsimp only at h hqueue ⊢
    rw [hqueue] at h
    dsimp only at h
    by_cases hbounds : 0 ≤ taskId ∧ taskId ≤ (p.maxpid : Nat)
    · rw [if_pos hbounds, Option.some.injEq] at h
      exact ⟨hbounds.1, h.symm⟩
    · rw [if_neg hbounds] at h
      cases h
  | enqueueTask => cases hx
  | invalidTid => cases hx
  | retryTask => cases hx

/-- A task whose queue is unknown, or that is not executing, leaves the tables alone. -/
theorem perform_tables (hx : ∀ x, execution? call = some x → p.lookup x.queueName = none)
    (h : perform A p call = some p') :
    p'.name = p.name ∧ p'.maxpid = p.maxpid ∧ p'.lasttid = p.lasttid ∧ p'.tid = p.tid := by
  rcases call with ⟨wi, task, step⟩
  cases step with
  | executeTask queueName taskId =>
    have hqueue : p.lookup queueName = none := hx _ rfl
    unfold perform at h
    dsimp only at h
    rw [hqueue, Option.some.injEq] at h
    rw [h]
    exact ⟨rfl, rfl, rfl, rfl⟩
  | enqueueTask =>
    rcases Option.map_eq_some_iff.mp h with ⟨⟨found, q⟩, henqueue, heq⟩
    rw [← heq]
    exact enqueueTask_tables henqueue
  | invalidTid => cases h
  | retryTask =>
    obtain rfl : p = p' := Option.some.inj h
    exact ⟨rfl, rfl, rfl, rfl⟩

/-! ## Runs of calls -/

/-- After the tasks of `done` the tables hold these and nothing else. -/
structure Holds (p₀ p : QueuePool WI Path) (done : List (Execution WI)) : Prop where
  name : p.name = p₀.name
  maxpid : p.maxpid = p₀.maxpid
  lasttid : p.lasttid = 0
  free : ∀ t : Nat, (t : Int) ∉ done.map Execution.taskId → p.tid t = none
  registered : ∀ x ∈ done, Registered p x

variable {done before after : List (Execution WI)} {cs : List (Call WI)}

theorem Holds.tid_ne_none (h : Holds p₀ p done) {t : Nat} (ht : (t : Int) ∈ done.map Execution.taskId) :
    p.tid t ≠ none := by
  rcases List.mem_map.mp ht with ⟨x, hx, heq⟩
  rcases h.registered x hx with ⟨-, entry, hentry, -⟩
  rw [heq, Int.toNat_natCast] at hentry
  rw [hentry]
  exact nofun

/-- The table gets one more entry. -/
theorem Holds.register (h : Holds p₀ p done) (hnew : x.taskId ∉ done.map Execution.taskId)
    (hpos : 0 ≤ x.taskId) {i : Nat} (hqueue : p.lookup x.queueName = some i)
    (hname : p'.name = p.name) (hmaxpid : p'.maxpid = p.maxpid) (hlast : p'.lasttid = p.lasttid)
    (htid : p'.tid = Function.update p.tid x.taskId.toNat (some ⟨i, x.task, x.workflowInstance⟩)) :
    Holds p₀ p' (done ++ [x]) := by
  constructor
  case name => rw [hname, h.name]
  case maxpid => rw [hmaxpid, h.maxpid]
  case lasttid => rw [hlast, h.lasttid]
  case free =>
    intro t ht
    rw [List.map_append, List.mem_append, not_or] at ht
    have hne : t ≠ x.taskId.toNat := by
      intro heq
      apply ht.2
      rw [heq, Int.toNat_of_nonneg hpos]
      exact List.mem_singleton.mpr rfl
    rw [htid, Function.update_of_ne hne]
    exact h.free t ht.1
  case registered =>
    intro y hy
    rcases List.mem_append.mp hy with hdone | hlast
    · rcases h.registered y hdone with ⟨hy₀, entry, hentry, htask, hwi, hlookup⟩
      have hne : y.taskId.toNat ≠ x.taskId.toNat := by
        intro heq
        apply hnew
        have hid : y.taskId = x.taskId := by omega
        rw [← hid]
        exact List.mem_map_of_mem hdone
      refine ⟨hy₀, entry, ?_, htask, hwi, ?_⟩
      · rw [htid, Function.update_of_ne hne]
        exact hentry
      · rw [lookup_of_name hname]
        exact hlookup
    · rw [List.mem_singleton.mp hlast]
      refine ⟨hpos, ⟨i, x.task, x.workflowInstance⟩, ?_, rfl, rfl, ?_⟩
      · rw [htid, Function.update_self]
      · rw [lookup_of_name hname]
        exact hqueue

/-- One task more: it gets its own identifier, 0 included when the others are taken. -/
theorem Holds.perform (h : Holds p₀ p done) (hx : execution? call = some x)
    (hqueue : (p₀.lookup x.queueName).isSome) (hnew : x.taskId ∉ done.map Execution.taskId)
    (hzero : x.taskId = 0 → 0 < (p₀.maxpid : Nat) ∧
      ∀ t : Nat, 0 < t → t < p₀.maxpid → (t : Int) ∈ done.map Execution.taskId)
    (hperform : perform A p call = some p') : Holds p₀ p' (done ++ [x]) := by
  rcases Option.isSome_iff_exists.mp hqueue with ⟨i, hi⟩
  rw [← lookup_of_name h.name] at hi
  rcases perform_execution hx hperform hi with ⟨hpos, heq⟩
  unfold QueuePool.executeTask at heq
  simp only [hi] at heq
  by_cases hid : x.taskId = 0
  · have hfree : p.tid 0 = none := by
      apply h.free
      show (0 : Int) ∉ _
      rw [← hid]
      exact hnew
    have htid : p.freeTid = some 0 := by
      rw [freeTid_eq_zero_iff h.lasttid hfree, h.maxpid]
      refine ⟨(hzero hid).1, ?_⟩
      intro t ht hlt
      exact h.tid_ne_none ((hzero hid).2 t ht hlt)
    rw [hid, Int.toNat_zero, if_pos rfl, htid] at heq
    rw [heq]
    refine h.register hnew hpos hi rfl rfl h.lasttid.symm ?_
    rw [hid]
    rfl
  · have hne : x.taskId.toNat ≠ 0 := by omega
    rw [if_neg hne] at heq
    rw [heq]
    exact h.register hnew hpos hi rfl rfl rfl rfl

theorem Holds.of_tables (h : Holds p₀ p done) (hname : p'.name = p.name)
    (hmaxpid : p'.maxpid = p.maxpid) (hlast : p'.lasttid = p.lasttid) (htid : p'.tid = p.tid) :
    Holds p₀ p' done := by
  constructor
  case name => rw [hname, h.name]
  case maxpid => rw [hmaxpid, h.maxpid]
  case lasttid => rw [hlast, h.lasttid]
  case free => rw [htid]; exact h.free
  case registered =>
    intro x hx
    unfold Registered
    rw [htid, lookup_of_name hname]
    exact h.registered x hx

theorem Holds.performAll (h : Holds p₀ p done) (hperform : performAll A p cs = some p')
    (hrestorable : Restorable p₀ (done ++ cs.filterMap execution?)) :
    Holds p₀ p' (done ++ cs.filterMap execution?) := by
  induction cs generalizing p done with
  | nil =>
    obtain rfl : p = p' := Option.some.inj hperform
    rw [List.filterMap_nil, List.append_nil]
    exact h
  | cons call cs ih =>
    rcases Option.bind_eq_some_iff.mp hperform with ⟨q, hq, hrest⟩
    cases hx : execution? call with
    | none =>
      rw [List.filterMap_cons_none hx] at hrestorable ⊢
      rcases perform_tables (by rw [hx]; exact nofun) hq with ⟨hname, hmaxpid, hlast, htid⟩
      exact ih (h.of_tables hname hmaxpid hlast htid) hrest hrestorable
    | some x =>
      have hsplit : done ++ (call :: cs).filterMap execution? =
          (done ++ [x]) ++ cs.filterMap execution? := by
        rw [List.filterMap_cons_some hx, List.append_assoc]
        rfl
      have hqueue := hrestorable.queues x (by rw [hsplit]; simp)
      have hzero := hrestorable.zero done x (cs.filterMap execution?) (by
        rw [List.filterMap_cons_some hx])
      have hnodup := hrestorable.nodup
      rw [hsplit] at hrestorable ⊢
      rw [List.filterMap_cons_some hx, List.map_append, List.nodup_append] at hnodup
      have hnew : x.taskId ∉ done.map Execution.taskId := by
        intro hin
        exact hnodup.2.2 _ hin _ (by simp) rfl
      exact ih (h.perform hx hqueue hnew hzero hq) hrest hrestorable

/-! ## The converse -/

theorem executeTask_name (wi : WI) (task : Path) (queueName : String) (taskId : Nat) :
    (p.executeTask wi task queueName taskId).2.name = p.name := by
  unfold QueuePool.executeTask
  cases p.lookup queueName with
  | none => rfl
  | some i =>
    dsimp only
    by_cases hid : taskId = 0
    · rw [if_pos hid]
      cases p.freeTid <;> rfl
    · rw [if_neg hid]
      rfl

theorem perform_name (h : perform A p call = some p') : p'.name = p.name := by
  cases hx : execution? call with
  | none => exact (perform_tables (by rw [hx]; exact nofun) h).1
  | some x =>
    cases hqueue : p.lookup x.queueName with
    | none =>
      refine (perform_tables ?_ h).1
      intro y hy
      rw [hx, Option.some.injEq] at hy
      rw [← hy]
      exact hqueue
    | some i =>
      rw [(perform_execution hx h hqueue).2]
      exact executeTask_name _ _ _ _

theorem performAll_name (h : performAll A p cs = some p') : p'.name = p.name := by
  induction cs generalizing p with
  | nil => rw [Option.some.inj h]
  | cons call cs ih =>
    rcases Option.bind_eq_some_iff.mp h with ⟨q, hq, hrest⟩
    rw [ih hrest, perform_name hq]

/-- Only a task whose saved identifier is 0 gets the identifier 0. -/
theorem performAll_zero (hne : ∀ x ∈ cs.filterMap execution?, x.taskId ≠ 0)
    (h : performAll A p cs = some p') : p'.tid 0 = p.tid 0 := by
  induction cs generalizing p with
  | nil => rw [Option.some.inj h]
  | cons call cs ih =>
    rcases Option.bind_eq_some_iff.mp h with ⟨q, hq, hrest⟩
    have hcall : ∀ x, execution? call = some x → x.taskId ≠ 0 := by
      intro x hx
      apply hne
      rw [List.filterMap_cons_some hx]
      exact List.mem_cons_self
    have hcs : ∀ x ∈ cs.filterMap execution?, x.taskId ≠ 0 := by
      intro x hx
      apply hne
      rw [List.mem_filterMap] at hx ⊢
      rcases hx with ⟨c, hc, heq⟩
      exact ⟨c, List.mem_cons_of_mem _ hc, heq⟩
    rw [ih hcs hrest]
    by_cases hknown : ∃ x i, execution? call = some x ∧ p.lookup x.queueName = some i
    · rcases hknown with ⟨x, i, hx, hqueue⟩
      rcases perform_execution hx hq hqueue with ⟨hpos, heq⟩
      have hid := hcall x hx
      have hnat : x.taskId.toNat ≠ 0 := by omega
      unfold QueuePool.executeTask at heq
      simp only [hqueue, if_neg hnat] at heq
      rw [heq, register_tid, Function.update_of_ne (Ne.symm hnat)]
    · refine congrFun (perform_tables ?_ hq).2.2.2 0
      intro x hx
      cases hqueue : p.lookup x.queueName with
      | none => rfl
      | some i => exact absurd ⟨x, i, hx, hqueue⟩ hknown

/-- Where a task is registered under its identifier 0, no other one was free. -/
theorem zero_of_registered (hfresh : Holds p₀ p₀ []) {cs' : List (Call WI)}
    (hx : execution? call = some x) (hid : x.taskId = 0)
    (hrestorable : Restorable p₀ (cs.filterMap execution?))
    (hnew : x.taskId ∉ (cs.filterMap execution?).map Execution.taskId)
    (hother : ∀ y ∈ cs'.filterMap execution?, y.taskId ≠ 0)
    (hqueue : (p₀.lookup x.queueName).isSome)
    (hperform : performAll A p₀ (cs ++ call :: cs') = some p') (h : Registered p' x) :
    0 < (p₀.maxpid : Nat) ∧ ∀ t : Nat, 0 < t → t < p₀.maxpid →
      (t : Int) ∈ (cs.filterMap execution?).map Execution.taskId := by
  have happend (cs : List (Call WI)) (p : QueuePool WI Path) :
      performAll A p (cs ++ call :: cs') =
        (performAll A p cs).bind fun p ↦ performAll A p (call :: cs') := by
    induction cs generalizing p with
    | nil => rfl
    | cons c cs ih =>
      rw [List.cons_append]
      unfold performAll
      rw [Option.bind_assoc]
      exact congrArg _ (funext fun p ↦ ih p)
  rw [happend] at hperform
  rcases Option.bind_eq_some_iff.mp hperform with ⟨p₁, hbefore, hrest⟩
  rcases Option.bind_eq_some_iff.mp hrest with ⟨p₂, hcall, hafter⟩
  have h₁ : Holds p₀ p₁ (cs.filterMap execution?) := hfresh.performAll hbefore hrestorable
  rcases Option.isSome_iff_exists.mp hqueue with ⟨i, hi⟩
  rw [← lookup_of_name h₁.name] at hi
  have heq := (perform_execution hx hcall hi).2
  have hfree : p₁.tid 0 = none := by
    apply h₁.free
    show (0 : Int) ∉ _
    rw [← hid]
    exact hnew
  unfold QueuePool.executeTask at heq
  simp only [hi, hid, Int.toNat_zero, if_pos] at heq
  -- the table of the end has an entry for 0, which only this call can have made
  rcases h with ⟨-, entry, hentry, -⟩
  rw [hid, Int.toNat_zero, performAll_zero hother hafter] at hentry
  have htid : p₁.freeTid = some 0 := by
    cases hfound : p₁.freeTid with
    | none =>
      rw [hfound] at heq
      rw [heq, hfree] at hentry
      cases hentry
    | some t =>
      by_cases ht : t = 0
      · rw [ht]
      · rw [hfound] at heq
        rw [heq, register_tid, Function.update_of_ne (Ne.symm ht), hfree] at hentry
        cases hentry
  rw [freeTid_eq_zero_iff h₁.lasttid hfree, h₁.maxpid] at htid
  refine ⟨htid.1, ?_⟩
  intro t ht hlt
  by_contra hnot
  exact htid.2 t ht hlt (h₁.free t hnot)

theorem restorable_of_registered (hfresh : Holds p₀ p₀ [])
    (hkeys : ((cs.filterMap execution?).map fun x ↦ (x.workflowInstance, x.task)).Nodup)
    (hperform : performAll A p₀ cs = some p')
    (h : ∀ x ∈ cs.filterMap execution?, Registered p' x) :
    Restorable p₀ (cs.filterMap execution?) := by
  have hqueues : ∀ x ∈ cs.filterMap execution?, (p₀.lookup x.queueName).isSome := by
    intro x hx
    rcases h x hx with ⟨-, entry, -, -, -, hlookup⟩
    rw [← lookup_of_name (performAll_name hperform), hlookup]
    rfl
  have hnodup : ((cs.filterMap execution?).map Execution.taskId).Nodup := by
    -- two tasks with one identifier would be the same entry
    apply (List.Nodup.of_map _ hkeys).map_on
    intro x hx y hy hid
    rcases h x hx with ⟨-, entry, hentry, htask, hwi, -⟩
    rcases h y hy with ⟨-, entry', hentry', htask', hwi', -⟩
    rw [hid, hentry', Option.some.injEq] at hentry
    rw [hentry] at htask' hwi'
    apply List.inj_on_of_nodup_map hkeys hx hy
    rw [← hwi, ← htask, ← hwi', ← htask']
  constructor
  case queues => exact hqueues
  case nodup => exact hnodup
  case zero =>
    intro before x after hsplit hid
    rcases List.filterMap_eq_append_iff.mp hsplit with ⟨cs₁, cs₂, hcs, hbefore, htail⟩
    rcases List.filterMap_eq_cons_iff.mp htail with ⟨skipped, call, cs₃, hcs₂, hskipped, hcall, hafter⟩
    rw [hsplit, List.map_append, List.nodup_append, List.map_cons, List.nodup_cons] at hnodup
    have hpassed : (cs₁ ++ skipped).filterMap execution? = before := by
      rw [List.filterMap_append, hbefore, List.filterMap_eq_nil_iff.mpr hskipped, List.append_nil]
    have hxnew : x.taskId ∉ before.map Execution.taskId := by
      intro hin
      exact hnodup.2.2 _ hin _ List.mem_cons_self rfl
    have hbeforeOk : Restorable p₀ before := by
      constructor
      case queues =>
        intro y hy
        apply hqueues
        rw [hsplit]
        exact List.mem_append_left _ hy
      case nodup => exact hnodup.1
      case zero =>
        intro b y a heq hy
        apply absurd _ hxnew
        rw [hid, ← hy, heq]
        simp
    rw [← hpassed] at hxnew hbeforeOk ⊢
    rw [hcs, hcs₂, ← List.append_assoc] at hperform
    refine zero_of_registered hfresh hcall hid hbeforeOk hxnew ?_ ?_ hperform ?_
    · intro y hy hzero
      rw [hafter] at hy
      apply hnodup.2.1.1
      rw [hid, ← hzero]
      exact List.mem_map_of_mem hy
    · apply hqueues
      rw [hsplit]
      simp
    · apply h
      rw [hsplit]
      simp

/-! ## Saved instances -/

theorem resumeLoop_sublist (l : List Found) : ((resumeLoop l).map Prod.fst).Sublist l := by
  induction l with
  | nil => exact List.Sublist.slnil
  | cons task rest ih =>
    unfold resumeLoop
    cases resumeStep task.attributes with
    | none => exact ih.cons task
    | some step =>
      cases step with
      | invalidTid => exact List.Sublist.cons_cons task (List.nil_sublist rest)
      | enqueueTask => exact ih.cons_cons task
      | executeTask queueName taskId => exact ih.cons_cons task
      | retryTask => exact ih.cons_cons task

theorem executions_sublist (cs : List (Call WI)) :
    ((cs.filterMap execution?).map fun x ↦ (x.workflowInstance, x.task)).Sublist
      (cs.map fun call ↦ (call.1, call.2.1.path)) := by
  induction cs with
  | nil => exact List.Sublist.slnil
  | cons call cs ih =>
    rcases call with ⟨wi, task, step⟩
    cases step with
    | executeTask queueName taskId => exact ih.cons_cons _
    | enqueueTask => exact ih.cons _
    | invalidTid => exact ih.cons _
    | retryTask => exact ih.cons _

/-- No task is resumed twice. -/
theorem nodup_executions {saved : List (WI × Xml)} (hids : (saved.map Prod.fst).Nodup) :
    ((executions saved).map fun x ↦ (x.workflowInstance, x.task)).Nodup := by
  apply List.Nodup.sublist (executions_sublist (calls saved))
  unfold calls
  rw [List.map_flatMap, List.nodup_flatMap]
  constructor
  · intro y _
    have hpaths : ((resume y.2).map fun call ↦ call.1.path).Nodup := by
      have hsub : ((resume y.2).map Prod.fst).Sublist (tasks y.2) :=
        (resumeLoop_sublist _).trans List.filter_sublist
      have htasks : ((tasks y.2).map Found.path).Nodup := nodup_descendants y.2
      have hnodup := htasks.sublist (hsub.map Found.path)
      rw [List.map_map] at hnodup
      exact hnodup
    rw [List.map_map]
    have hpair := hpaths.map (f := fun path ↦ (y.1, path)) fun _ _ heq ↦ congrArg Prod.snd heq
    rw [List.map_map] at hpair
    exact hpair
  · rw [List.nodup_iff_pairwise_ne, List.pairwise_map] at hids
    apply hids.imp
    intro y z hne key hy hz
    have hfst (y : WI × Xml) (hin : key ∈ ((resume y.2).map fun call ↦ (y.1, call)).map
        fun call : Call WI ↦ (call.1, call.2.1.path)) : key.1 = y.1 := by
      rcases List.mem_map.mp hin with ⟨call, hcall, hkey⟩
      rcases List.mem_map.mp hcall with ⟨step, -, heq⟩
      rw [← hkey, ← heq]
    exact hne ((hfst y hy).symm.trans (hfst z hz))

theorem create_holds {rows : List (String × UInt32 × UInt32)} {maxpid : Fin (2 ^ 31)}
    (hcreate : QueuePool.create rows maxpid = .ok p) : Holds p p [] := by
  constructor
  case name => rfl
  case maxpid => rfl
  case lasttid => exact Engine.create_lasttid hcreate
  case free => exact fun t _ ↦ (Engine.create_queue hcreate).2 t
  case registered => exact nofun

/-- What a pool needs so that no call goes wrong: every name has a queue, and the tail pointers are
right. -/
structure Ready (p : QueuePool WI Path) : Prop where
  length : p.queue.length = p.name.length
  queues : ∀ q ∈ p.queue, ∃ ps, q.Lists ps [] ∧ q.Tracks ps

theorem create_ready {rows : List (String × UInt32 × UInt32)} {maxpid : Fin (2 ^ 31)}
    (hcreate : QueuePool.create rows maxpid = .ok p) : Ready p := by
  have hqueue := (Engine.create_queue hcreate).1
  constructor
  case length => exact Engine.create_length hcreate
  case queues =>
    intro q hq
    rcases hqueue q hq with ⟨name, id, concurrency, heq⟩
    rw [heq]
    exact ⟨[], ⟨rfl, rfl, by simp [addrs]⟩, by simp [Queue.Tracks]⟩

/-- No exception, and no access outside the tables. -/
def Valid (p : QueuePool WI Path) : Call WI → Prop
  | (_, _, .executeTask _ taskId) => 0 ≤ taskId ∧ taskId ≤ (p.maxpid : Nat)
  | (_, _, .invalidTid) => False
  | _ => True

theorem executeTask_ready (h : Ready p) (wi : WI) (task : Path) (queueName : String) (taskId : Nat) :
    Ready (p.executeTask wi task queueName taskId).2 ∧
      (p.executeTask wi task queueName taskId).2.maxpid = p.maxpid := by
  have hregister (p : QueuePool WI Path) (h : Ready p) (i t : Nat) :
      Ready (p.register i wi task t) := by
    constructor
    case length => exact (List.length_modify _ _ _).trans h.length
    case queues =>
      intro q hq
      rcases List.mem_iff_getElem?.mp hq with ⟨j, hj⟩
      have hj : (p.queue.modify i Queue.executeTask)[j]? = some q := hj
      rw [List.getElem?_modify] at hj
      rcases Option.map_eq_some_iff.mp hj with ⟨q₀, hq₀, heq⟩
      rcases h.queues q₀ (List.mem_of_getElem? hq₀) with ⟨ps, hlists, htracks⟩
      refine ⟨ps, ?_⟩
      by_cases hij : i = j
      · rw [if_pos hij] at heq
        rw [← heq]
        exact ⟨⟨hlists.pending, hlists.cancelled, hlists.disjoint⟩, htracks⟩
      · rw [if_neg hij] at heq
        rw [← heq]
        exact ⟨hlists, htracks⟩
  unfold QueuePool.executeTask
  cases p.lookup queueName with
  | none => exact ⟨h, rfl⟩
  | some i =>
    dsimp only
    by_cases hid : taskId = 0
    · rw [if_pos hid]
      cases p.freeTid with
      | none => exact ⟨⟨h.length, h.queues⟩, rfl⟩
      | some t => exact ⟨hregister { p with lasttid := t } ⟨h.length, h.queues⟩ i t, rfl⟩
    · rw [if_neg hid]
      exact ⟨hregister p h i taskId, rfl⟩

theorem Ready.perform (h : Ready p) (hvalid : Valid p call) :
    ∃ p', perform A p call = some p' ∧ Ready p' ∧ p'.maxpid = p.maxpid := by
  rcases call with ⟨wi, task, step⟩
  cases step with
  | invalidTid => exact absurd hvalid id
  | retryTask => exact ⟨p, rfl, h, rfl⟩
  | executeTask queueName taskId =>
    unfold SavedWorkflow.perform
    dsimp only
    cases p.lookup queueName with
    | none => exact ⟨p, rfl, h, rfl⟩
    | some i =>
      refine ⟨_, if_pos hvalid, ?_⟩
      exact executeTask_ready h wi task.path queueName taskId.toNat
  | enqueueTask =>
    unfold SavedWorkflow.perform QueuePool.enqueueTask
    dsimp only
    cases hlookup : p.lookup (getAttribute task.attributes "queue") with
    | none => exact ⟨p, rfl, h, rfl⟩
    | some i =>
      have hlt : i < p.queue.length := by
        rw [h.length]
        exact (List.getElem?_eq_some_iff.mp (QueuePool.lookup_name hlookup)).1
      rcases h.queues _ (List.getElem_mem hlt) with ⟨ps, hlists, htracks⟩
      rcases Queue.enqueueTask_lists A wi task.path hlists htracks with
        ⟨q', b, henqueue, hlists', hlast, -, -⟩
      dsimp only
      rw [List.getElem?_eq_getElem hlt, Option.bind_some, henqueue]
      refine ⟨_, rfl, ?_, rfl⟩
      constructor
      case length => exact (List.length_set).trans h.length
      case queues =>
        intro q hq
        rcases List.mem_or_eq_of_mem_set hq with hin | heq
        · exact h.queues q hin
        · rw [heq]
          refine ⟨_, hlists', ?_⟩
          intro e he
          rw [List.getLast?_concat, Option.some.injEq] at he
          rw [← he]
          exact hlast

/-- `Resume` gets through all saved instances whose executing tasks have identifiers in the bounds of the
tables. -/
theorem restart_isSome (A : Allocator (Task WI Path)) {rows : List (String × UInt32 × UInt32)}
    {maxpid : Fin (2 ^ 31)} {pool : QueuePool WI Path}
    (hcreate : QueuePool.create rows maxpid = .ok pool) (saved : List (WI × Xml))
    (hvalid : ∀ call ∈ calls saved, Valid pool call) : (restart A pool saved).isSome := by
  have hall (cs : List (Call WI)) (p : QueuePool WI Path) (hp : Ready p)
      (hmaxpid : p.maxpid = pool.maxpid) (hcs : ∀ call ∈ cs, Valid pool call) :
      (performAll A p cs).isSome := by
    induction cs generalizing p with
    | nil => rfl
    | cons call cs ih =>
      have hcall : Valid p call := by
        have hpool := hcs call List.mem_cons_self
        unfold Valid at hpool ⊢
        rw [hmaxpid]
        exact hpool
      rcases hp.perform (A := A) hcall with ⟨p', hperform, hp', hsame⟩
      unfold performAll
      rw [hperform]
      exact ih p' hp' (hsame.trans hmaxpid) fun c hc ↦ hcs c (List.mem_cons_of_mem _ hc)
  exact hall _ pool (create_ready hcreate) rfl hvalid

/-- After the restart every task that was saved `EXECUTING` is in the tables under its identifier,
exactly when the queues are configured, the identifiers differ and none of them is 0 (or all others were
taken before that one). -/
theorem registered_iff_restorable (A : Allocator (Task WI Path))
    (rows : List (String × UInt32 × UInt32)) (maxpid : Fin (2 ^ 31)) (pool pool' : QueuePool WI Path)
    (hcreate : QueuePool.create rows maxpid = .ok pool) (saved : List (WI × Xml))
    (hids : (saved.map Prod.fst).Nodup) (hrestart : restart A pool saved = some pool') :
    (∀ x ∈ executions saved, Registered pool' x) ↔ Restorable pool (executions saved) := by
  have hfresh := create_holds hcreate
  constructor
  · intro h
    exact restorable_of_registered hfresh (nodup_executions hids) hrestart h
  · intro h
    exact (hfresh.performAll hrestart h).registered

end

/-- A workflow with one task, which was executing under `tid`. -/
def oneExecuting (tid : String) : Xml :=
  .element "workflow" [("status", "EXECUTING")]
    [.element "subjobs" []
      [.element "job" []
        [.element "tasks" []
          [.element "task" [("name", "list"), ("queue", "default"), ("status", "EXECUTING"),
            ("tid", tid)] []]]]]

/-- A workflow with a task that ended and two jobs at work: one task executes, one waits in its queue and
a third one executes. -/
def manyExecuting : Xml :=
  .element "workflow" [("status", "EXECUTING")]
    [.element "subjobs" []
      [.element "job" []
        [.element "tasks" []
          [.element "task" [("name", "list"), ("queue", "default"), ("status", "TERMINATED"),
              ("retval", "0"), ("tid", "1")] [],
            .element "task" [("name", "copy"), ("queue", "default"), ("status", "EXECUTING"),
              ("tid", "5")] [],
            .element "task" [("name", "copy"), ("queue", "default"), ("status", "QUEUED")] []]],
       .element "job" []
        [.element "tasks" []
          [.element "task" [("name", "pack"), ("queue", "slow"), ("status", "EXECUTING"),
            ("tid", "2")] []]]]]

/-- Two instances come back with three executing tasks in two queues, and one task waits. -/
theorem registered_twoInstances : ∃ pool pool' : QueuePool UInt32 Path,
    QueuePool.create [("default", 1, 2), ("slow", 2, 1)] 8 = .ok pool ∧
      restart (Allocator.bump (Task UInt32 Path)) pool
        [(7, oneExecuting "3"), (9, manyExecuting)] = some pool' ∧
      (executions [((7 : UInt32), oneExecuting "3"), (9, manyExecuting)]).map
        (fun x ↦ (x.workflowInstance, x.taskId)) = [(7, 3), (9, 5), (9, 2)] ∧
      ∀ x ∈ executions [((7 : UInt32), oneExecuting "3"), (9, manyExecuting)],
        Registered pool' x := by
  refine ⟨_, _, rfl, rfl, by decide, ?_⟩
  apply (registered_iff_restorable (Allocator.bump (Task UInt32 Path))
    [("default", 1, 2), ("slow", 2, 1)] 8 _ _ rfl
    [(7, oneExecuting "3"), (9, manyExecuting)] (by decide) rfl).mpr
  constructor
  case queues => decide
  case nodup => decide
  case zero =>
    intro before x after hsplit hid
    have hin : x ∈ executions [((7 : UInt32), oneExecuting "3"), (9, manyExecuting)] := by
      rw [hsplit]
      simp
    have hids : ∀ y ∈ executions [((7 : UInt32), oneExecuting "3"), (9, manyExecuting)],
        y.taskId ≠ 0 := by decide
    exact absurd hid (hids x hin)

/-- A task whose queue was removed, and a task that was given the identifier 0, are counted by `Resume`
but not registered. -/
theorem not_registered_after_restart :
    (∃ pool pool' : QueuePool UInt32 Path, QueuePool.create [] 8 = .ok pool ∧
      restart (Allocator.bump (Task UInt32 Path)) pool [(7, oneExecuting "3")] = some pool' ∧
      ¬∀ x ∈ executions [((7 : UInt32), oneExecuting "3")], Registered pool' x) ∧
    (∃ pool pool' : QueuePool UInt32 Path, QueuePool.create [("default", 1, 1)] 8 = .ok pool ∧
      restart (Allocator.bump (Task UInt32 Path)) pool [(7, oneExecuting "0")] = some pool' ∧
      ¬∀ x ∈ executions [((7 : UInt32), oneExecuting "0")], Registered pool' x) := by
  constructor
  · refine ⟨_, _, rfl, rfl, ?_⟩
    intro h
    rcases h ⟨7, [0, 0, 0, 0], "default", 3⟩ (by decide) with ⟨-, entry, hentry, -⟩
    cases hentry
  · refine ⟨_, _, rfl, rfl, ?_⟩
    intro h
    rcases h ⟨7, [0, 0, 0, 0], "default", 0⟩ (by decide) with ⟨-, entry, hentry, -⟩
    cases hentry

end SavedWorkflow

end EvQueue
