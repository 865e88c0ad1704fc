import EvQueue.EngineLimit

/-!
# QueuePoolTids — the table of task identifiers over runs of any length

`ExecuteTask` enters a task under the identifier that `Resume` gives or under the next free one, in the
cyclic order behind the last one; `TerminateTask` takes it out.  Beside the pool a run keeps what is
entered under each identifier, as a plain function, and the three tables and the counters of the queues
have to agree with it.
-/

namespace EvQueue

open Runs

/-- The pool, with what was registered under each identifier and not terminated since. -/
structure TidRun (WI DOMNode : Type) where
  pool : QueuePool WI DOMNode
  registered : Nat → Option (WI × DOMNode)
  /-- The identifiers that callers have given. -/
  given : List Nat
  /-- Whether an identifier was asked for. -/
  allocated : Bool

inductive TidCall (WI DOMNode : Type) where
  | executeTask (workflowInstance : WI) (task : DOMNode) (queueName : String) (taskId : Nat)
  | terminateTask (taskId : Nat)

/-- What `TerminateTask` returns of an entry. -/
def TidEntry.content {WI DOMNode : Type} (e : TidEntry WI DOMNode) : WI × DOMNode :=
  (e.workflowInstance, e.task)

/-! ## Counting over a range -/

/-- Predicates that differ at one number count differently by that number. -/
theorem countP_range_update {f g : Nat → Bool} {t n : Nat} (ht : t < n) (hsame : ∀ u ≠ t, g u = f u) :
    (List.range n).countP g + (f t).toNat = (List.range n).countP f + (g t).toNat := by
  induction n with
  | zero => omega
  | succ n ih =>
    rw [List.range_succ, List.countP_append, List.countP_append, List.countP_singleton,
      List.countP_singleton]
    by_cases heq : t = n
    · subst heq
      have hbelow : (List.range t).countP g = (List.range t).countP f := by
        apply List.countP_congr
        intro u hu
        rw [hsame u (Nat.ne_of_lt (List.mem_range.mp hu))]
      rw [hbelow]
      cases f t <;> cases g t <;> simp
    · have hlow := ih (by omega)
      rw [hsame n (Ne.symm heq)]
      omega

namespace QueuePool

variable {WI DOMNode : Type} {p p' : QueuePool WI DOMNode} {t i j : Nat}

/-- `tid_workflow_instance[t]` is set, and `tid_queue_index[t]` is `i`. -/
def isRegistered (p : QueuePool WI DOMNode) (i t : Nat) : Bool :=
  (p.tid t).any fun e ↦ e.queueIndex == i

/-- How many identifiers are registered for queue `i`. -/
def registeredTids (p : QueuePool WI DOMNode) (i : Nat) : Nat :=
  (List.range (p.maxpid + 1)).countP (p.isRegistered i)

theorem registeredTids_le (p : QueuePool WI DOMNode) (i : Nat) : p.registeredTids i ≤ p.maxpid + 1 := by
  unfold registeredTids
  have hle := (List.range (p.maxpid + 1)).countP_le_length (p := p.isRegistered i)
  rw [List.length_range] at hle
  exact hle

/-- Every identifier below `maxpid` is tried. -/
theorem mem_candidates {u : Nat} (hu : u < p.maxpid) : u ∈ p.candidates := by
  unfold candidates
  have hpos : 0 < (p.maxpid : Nat) := by omega
  have hlt := Nat.mod_lt (p.lasttid + 1) hpos
  apply List.mem_map.mpr
  refine ⟨(u + (p.maxpid - (p.lasttid + 1) % p.maxpid)) % p.maxpid,
    List.mem_range.mpr (Nat.mod_lt _ hpos), ?_⟩
  calc (p.lasttid + 1 + (u + (p.maxpid - (p.lasttid + 1) % p.maxpid)) % p.maxpid) % p.maxpid
      = ((p.lasttid + 1) % p.maxpid + (u + (p.maxpid - (p.lasttid + 1) % p.maxpid))) % p.maxpid := by
        rw [Nat.add_mod_mod, Nat.mod_add_mod]
    _ = (u + p.maxpid) % p.maxpid := by
        congr 1
        omega
    _ = u := by
        rw [Nat.add_mod_right, Nat.mod_eq_of_lt hu]

/-- No identifier is free exactly when all below `maxpid` are in use. -/
theorem freeTid_eq_none_iff : p.freeTid = none ↔ ∀ u < (p.maxpid : Nat), p.tid u ≠ none := by
  unfold freeTid
  rw [List.find?_eq_none]
  constructor
  · intro h u hu hnone
    have hin := h u (mem_candidates hu)
    rw [hnone] at hin
    exact hin rfl
  · intro h u hu hfree
    unfold candidates at hu
    rcases List.mem_map.mp hu with ⟨k, hk, heq⟩
    rw [List.mem_range] at hk
    have hlt : u < p.maxpid := by
      rw [← heq]
      exact Nat.mod_lt _ (by omega)
    exact h u hlt (Option.isNone_iff_eq_none.mp hfree)

/-- The loop that finds nothing ends where it started. -/
theorem candidates_getLastD (h : p.lasttid ≤ p.maxpid - 1) : p.candidates.getLastD 0 = p.lasttid := by
  unfold candidates
  by_cases hzero : (p.maxpid : Nat) = 0
  · rw [hzero] at h ⊢
    rw [List.range_zero, List.map_nil, List.getLastD_nil]
    omega
  · have hsucc : (p.maxpid : Nat) = p.maxpid - 1 + 1 := by omega
    generalize (p.maxpid : Nat) - 1 = n at *
    rw [hsucc, List.range_succ, List.map_append, List.map_singleton, List.getLastD_concat]
    rw [show p.lasttid + 1 + n = p.lasttid + (n + 1) by omega, Nat.add_mod_right,
      Nat.mod_eq_of_lt (by omega)]

/-! ## The tables and the counters -/

/-- The tables agree with `registered` and the counters with the tables; the loop of `ExecuteTask` starts
inside its range. -/
structure Agrees (p : QueuePool WI DOMNode) (registered : Nat → Option (WI × DOMNode)) : Prop where
  length : p.queue.length = p.name.length
  table : ∀ t, registered t = (p.tid t).map TidEntry.content
  index : ∀ t e, p.tid t = some e → e.queueIndex < p.queue.length
  bound : ∀ t e, p.tid t = some e → t ≤ p.maxpid
  running : ∀ (i : Nat) (q : Queue WI DOMNode), p.queue[i]? = some q →
    q.runningTasks.toNat = p.registeredTids i
  lasttid : p.lasttid ≤ p.maxpid - 1

variable {registered : Nat → Option (WI × DOMNode)} {wi : WI} {task : DOMNode}

/-- One entry of the table changes. -/
theorem registeredTids_update {e : Option (TidEntry WI DOMNode)}
    (htid : p'.tid = Function.update p.tid t e) (hmaxpid : p'.maxpid = p.maxpid) (ht : t ≤ p.maxpid)
    (j : Nat) : p'.registeredTids j + (p.isRegistered j t).toNat =
      p.registeredTids j + (e.any fun e ↦ e.queueIndex == j).toNat := by
  have hself : p'.isRegistered j t = e.any fun e ↦ e.queueIndex == j := by
    unfold isRegistered
    rw [htid, Function.update_self]
  have hother (u : Nat) (hne : u ≠ t) : p'.isRegistered j u = p.isRegistered j u := by
    unfold isRegistered
    rw [htid, Function.update_of_ne hne]
  unfold registeredTids
  rw [← hself, hmaxpid]
  exact countP_range_update (Nat.lt_succ_of_le ht) hother

theorem table_update {e : Option (TidEntry WI DOMNode)}
    (h : ∀ u, registered u = (p.tid u).map TidEntry.content)
    (htid : p'.tid = Function.update p.tid t e) (u : Nat) :
    Function.update registered t (e.map TidEntry.content) u = (p'.tid u).map TidEntry.content := by
  rw [htid]
  by_cases hu : u = t
  · rw [hu, Function.update_self, Function.update_self]
  · rw [Function.update_of_ne hu, Function.update_of_ne hu]
    exact h u

/-- A free identifier is entered. -/
theorem Agrees.register (h : p.Agrees registered) (hfree : p.tid t = none) (ht : t ≤ p.maxpid)
    (hi : i < p.queue.length) (wi : WI) (task : DOMNode) :
    (p.register i wi task t).Agrees (Function.update registered t (some (wi, task))) := by
  have hqueue : (p.register i wi task t).queue = p.queue.modify i Queue.executeTask := rfl
  have htid : (p.register i wi task t).tid = Function.update p.tid t (some ⟨i, task, wi⟩) := rfl
  have hlength : (p.register i wi task t).queue.length = p.queue.length := List.length_modify _ _ _
  refine ⟨hlength.trans h.length, table_update h.table htid, ?_, ?_, ?_, h.lasttid⟩
  · intro u e he
    rw [hlength]
    rw [htid] at he
    by_cases hu : u = t
    · rw [hu, Function.update_self, Option.some.injEq] at he
      rw [← he]
      exact hi
    · rw [Function.update_of_ne hu] at he
      exact h.index u e he
  · intro u e he
    by_cases hu : u = t
    · rw [hu]
      exact ht
    · rw [htid, Function.update_of_ne hu] at he
      exact h.bound u e he
  · intro j q' hq'
    rw [hqueue, List.getElem?_modify] at hq'
    rcases Option.map_eq_some_iff.mp hq' with ⟨q, hq, heq⟩
    have hrunning := h.running j q hq
    have hcount := registeredTids_update htid rfl ht j
    have hle := p.registeredTids_le j
    have hmaxpid := p.maxpid.isLt
    have hold : p.isRegistered j t = false := by
      unfold isRegistered
      rw [hfree]
      rfl
    rw [hold, Option.any_some] at hcount
    rw [← heq]
    by_cases hij : i = j
    · rw [if_pos hij]
      unfold Queue.executeTask
      simp only [hij, beq_self_eq_true, Bool.toNat_true, Bool.toNat_false] at hcount
      dsimp only
      rw [hij, UInt32.toNat_add, hrunning]
      simp only [UInt32.toNat_one]
      omega
    · rw [if_neg hij]
      simp only [beq_eq_false_iff_ne.mpr hij, Bool.toNat_false] at hcount
      omega

/-- A registered identifier is counted by its queue. -/
theorem Agrees.running_pos (h : p.Agrees registered) {e : TidEntry WI DOMNode} (he : p.tid t = some e)
    {q : Queue WI DOMNode} (hq : p.queue[e.queueIndex]? = some q) : 0 < q.runningTasks.toNat := by
  rw [h.running _ q hq]
  unfold registeredTids
  apply List.countP_pos_iff.mpr
  refine ⟨t, List.mem_range.mpr (Nat.lt_succ_of_le (h.bound t e he)), ?_⟩
  unfold isRegistered
  rw [he, Option.any_some]
  exact beq_self_eq_true _

/-- An identifier that is registered is taken out, another one is left as it is. -/
theorem Agrees.terminateTask (h : p.Agrees registered) (t : Nat) :
    (p.terminateTask t).2.Agrees (Function.update registered t none) := by
  cases he : p.tid t with
  | none =>
    have hnone : Function.update registered t none = registered := by
      rw [Function.update_eq_self_iff, h.table, he]
      rfl
    have hsame : (p.terminateTask t).2 = p := by
      unfold QueuePool.terminateTask
      rw [he]
    rw [hnone, hsame]
    exact h
  | some e =>
    have hqueue : (p.terminateTask t).2.queue = p.queue.modify e.queueIndex Queue.terminateTask := by
      unfold QueuePool.terminateTask
      rw [he]
      rfl
    have htid : (p.terminateTask t).2.tid = Function.update p.tid t none := by
      unfold QueuePool.terminateTask
      rw [he]
      rfl
    have hrest : (p.terminateTask t).2.name = p.name ∧ (p.terminateTask t).2.maxpid = p.maxpid ∧
        (p.terminateTask t).2.lasttid = p.lasttid := by
      unfold QueuePool.terminateTask
      rw [he]
      exact ⟨rfl, rfl, rfl⟩
    have hlength : (p.terminateTask t).2.queue.length = p.queue.length := by
      rw [hqueue, List.length_modify]
    have hold (u : Nat) (x : TidEntry WI DOMNode) (hx : (p.terminateTask t).2.tid u = some x) :
        p.tid u = some x := by
      rw [htid] at hx
      by_cases hu : u = t
      · rw [hu, Function.update_self] at hx
        cases hx
      · rw [Function.update_of_ne hu] at hx
        exact hx
    refine ⟨?_, table_update h.table htid, ?_, ?_, ?_, ?_⟩
    · rw [hlength, hrest.1]
      exact h.length
    · intro u x hx
      rw [hlength]
      exact h.index u x (hold u x hx)
    · intro u x hx
      rw [hrest.2.1]
      exact h.bound u x (hold u x hx)
    · intro j q' hq'
      rw [hqueue, List.getElem?_modify] at hq'
      rcases Option.map_eq_some_iff.mp hq' with ⟨q, hq, heq⟩
      have hrunning := h.running j q hq
      have hcount := registeredTids_update htid hrest.2.1 (h.bound t e he) j
      have hin : p.isRegistered j t = (e.queueIndex == j) := by
        unfold isRegistered
        rw [he, Option.any_some]
      rw [hin, Option.any_none, Bool.toNat_false] at hcount
      rw [← heq]
      by_cases hij : e.queueIndex = j
      · rw [if_pos hij]
        -- the counter does not pass below 0
        have hpos := h.running_pos he (hij ▸ hq)
        have hone : (1 : UInt32) ≤ q.runningTasks := UInt32.le_iff_toNat_le.mpr hpos
        unfold Queue.terminateTask
        dsimp only
        rw [UInt32.toNat_sub_of_le _ _ hone, hrunning]
        simp only [hij, beq_self_eq_true, Bool.toNat_true] at hcount
        simp only [UInt32.toNat_one]
        omega
      · rw [if_neg hij]
        simp only [beq_eq_false_iff_ne.mpr hij, Bool.toNat_false] at hcount
        omega
    · rw [hrest.2.2, hrest.2.1]
      exact h.lasttid

/-- Where a new task is registered, when it is: with an identifier of its own, and then the call changes
nothing else. -/
theorem Agrees.allocate (h : p.Agrees registered) {queueName : String} (hi : p.lookup queueName = some i)
    (wi : WI) (task : DOMNode) :
    (p.executeTask wi task queueName 0 = (0, p) ∧ ∀ u < (p.maxpid : Nat), p.tid u ≠ none) ∨
      ∃ t < (p.maxpid : Nat), p.tid t = none ∧
        p.executeTask wi task queueName 0 = (t, QueuePool.register { p with lasttid := t } i wi task t) := by
  unfold QueuePool.executeTask
  simp only [hi, if_pos]
  cases hfree : p.freeTid with
  | none =>
    left
    rw [candidates_getLastD h.lasttid]
    exact ⟨rfl, freeTid_eq_none_iff.mp hfree⟩
  | some t =>
    right
    rcases freeTid_eq_some hfree with ⟨hnone, hlt⟩
    exact ⟨t, hlt, hnone, rfl⟩

end QueuePool

/-! ## Runs -/

namespace TidRun

variable {WI DOMNode : Type} {s s' : TidRun WI DOMNode} {call : TidCall WI DOMNode}

/-- Every identifier that `ExecuteTask` tries is registered. -/
def Full (s : TidRun WI DOMNode) : Prop := ∀ u < (s.pool.maxpid : Nat), (s.registered u).isSome

instance (s : TidRun WI DOMNode) : Decidable s.Full :=
  inferInstanceAs (Decidable (∀ u < (s.pool.maxpid : Nat), (s.registered u).isSome))

def step (s : TidRun WI DOMNode) : TidCall WI DOMNode → Option (TidRun WI DOMNode)
  | .executeTask wi task queueName taskId =>
      let (t, pool) := s.pool.executeTask wi task queueName taskId
      if (s.pool.lookup queueName).isNone then some { s with pool }
      else if taskId ≠ 0 then
        some { s with
          pool
          registered := Function.update s.registered taskId (some (wi, task))
          given := taskId :: s.given }
      else if s.Full then some { s with pool, allocated := true }
      else
        some { s with
          pool
          registered := Function.update s.registered t (some (wi, task))
          allocated := true }
  | .terminateTask taskId =>
      some { s with
        pool := (s.pool.terminateTask taskId).2
        registered := Function.update s.registered taskId none }

def start (pool : QueuePool WI DOMNode) : TidRun WI DOMNode :=
  { pool, registered := fun _ ↦ none, given := [], allocated := false }

/-- The queue is known, a given identifier is new and comes before the first one that is asked for, and
identifiers are inside the tables. -/
def Allowed (s : TidRun WI DOMNode) : TidCall WI DOMNode → Prop
  | .executeTask _ _ queueName taskId => (s.pool.lookup queueName).isSome ∧
      (taskId ≠ 0 → taskId ∉ s.given ∧ taskId ≤ s.pool.maxpid ∧ s.allocated = false)
  | .terminateTask taskId => taskId ≤ s.pool.maxpid

structure Inv (s : TidRun WI DOMNode) : Prop where
  agrees : s.pool.Agrees s.registered
  given : s.allocated = false → ∀ t, s.registered t ≠ none → t ∈ s.given

theorem lookup_lt (h : s.Inv) {queueName : String} {i : Nat} (hi : s.pool.lookup queueName = some i) :
    i < s.pool.queue.length := by
  rw [h.agrees.length]
  exact (SortedLookup.lookup_eq_some hi).2

theorem Inv.tid_eq_none_iff (h : s.Inv) (t : Nat) : s.pool.tid t = none ↔ s.registered t = none := by
  rw [h.agrees.table, Option.map_eq_none_iff]

theorem Inv.full_iff (h : s.Inv) : s.Full ↔ ∀ u < (s.pool.maxpid : Nat), s.pool.tid u ≠ none := by
  unfold Full
  simp only [Option.isSome_iff_ne_none, ne_eq, h.tid_eq_none_iff]

/-- A given identifier is free. -/
theorem given_inv (h : s.Inv) {wi : WI} {task : DOMNode} {queueName : String} {taskId : Nat}
    (hok : s.Allowed (.executeTask wi task queueName taskId)) (hne : taskId ≠ 0)
    (hstep : s.step (.executeTask wi task queueName taskId) = some s') : s'.Inv := by
  rcases Option.isSome_iff_exists.mp hok.1 with ⟨i, hi⟩
  rcases hok.2 hne with ⟨hnew, hle, hnone⟩
  have hcall : s.pool.executeTask wi task queueName taskId =
      (taskId, s.pool.register i wi task taskId) := by
    unfold QueuePool.executeTask
    simp only [hi, if_neg hne]
  unfold step at hstep
  simp only [hcall, hi, Option.isNone_some, Bool.false_eq_true, if_false, ne_eq, hne, not_false_eq_true,
    if_true, Option.some.injEq] at hstep
  rw [← hstep]
  have hfree : s.pool.tid taskId = none := by
    rw [h.tid_eq_none_iff]
    by_contra hin
    exact hnew (h.given hnone taskId hin)
  refine ⟨h.agrees.register hfree hle (lookup_lt h hi) wi task, ?_⟩
  intro _ t ht
  dsimp only at ht ⊢
  by_cases heq : t = taskId
  · rw [heq]
    exact List.mem_cons_self
  · rw [Function.update_of_ne heq] at ht
    exact List.mem_cons_of_mem _ (h.given hnone t ht)

/-- An identifier that is asked for is free, or the call changes nothing. -/
theorem allocate_inv (h : s.Inv) {wi : WI} {task : DOMNode} {queueName : String}
    (hok : s.Allowed (.executeTask wi task queueName 0))
    (hstep : s.step (.executeTask wi task queueName 0) = some s') : s'.Inv := by
  rcases Option.isSome_iff_exists.mp hok.1 with ⟨i, hi⟩
  unfold step at hstep
  rcases h.agrees.allocate hi wi task with ⟨hcall, hall⟩ | ⟨t, hlt, hfree, hcall⟩
  · simp only [hcall, hi, Option.isNone_some, Bool.false_eq_true, if_false, ne_eq, not_true_eq_false,
      h.full_iff.mpr hall, if_true, Option.some.injEq] at hstep
    rw [← hstep]
    exact ⟨h.agrees, nofun⟩
  · have hnot : ¬ s.Full := by
      intro hfull
      exact h.full_iff.mp hfull t hlt hfree
    simp only [hcall, hi, Option.isNone_some, Bool.false_eq_true, if_false, ne_eq, not_true_eq_false,
      hnot, Option.some.injEq] at hstep
    rw [← hstep]
    refine ⟨?_, nofun⟩
    have hmoved : QueuePool.Agrees { s.pool with lasttid := t } s.registered :=
      { h.agrees with lasttid := by dsimp only; omega }
    exact hmoved.register hfree (Nat.le_of_lt hlt) (lookup_lt h hi) wi task

theorem step_inv (h : s.Inv) (hok : s.Allowed call) (hstep : s.step call = some s') : s'.Inv := by
  cases call with
  | executeTask wi task queueName taskId =>
    by_cases hzero : taskId = 0
    · rw [hzero] at hok hstep
      exact allocate_inv h hok hstep
    · exact given_inv h hok hzero hstep
  | terminateTask taskId =>
    cases hstep
    refine ⟨h.agrees.terminateTask taskId, ?_⟩
    intro hallocated t ht
    apply h.given hallocated t
    by_cases heq : t = taskId
    · rw [heq] at ht
      exact absurd (Function.update_self _ _ _) ht
    · dsimp only at ht
      rw [Function.update_of_ne heq] at ht
      exact ht

theorem start_inv {rows : List (String × UInt32 × UInt32)} {maxpid : Fin (2 ^ 31)}
    {pool : QueuePool WI DOMNode} (hcreate : QueuePool.create rows maxpid = .ok pool) :
    (start pool).Inv := by
  rcases Engine.create_queue hcreate with ⟨hfresh, htid⟩
  refine ⟨⟨Engine.create_length hcreate, ?_, ?_, ?_, ?_, ?_⟩, fun _ _ hne ↦ absurd rfl hne⟩
  · intro t
    show none = (pool.tid t).map TidEntry.content
    rw [htid]
    rfl
  · intro t e he
    rw [show (start pool).pool.tid t = none from htid t] at he
    cases he
  · intro t e he
    rw [show (start pool).pool.tid t = none from htid t] at he
    cases he
  · intro i q hq
    rcases hfresh q (List.mem_of_getElem? hq) with ⟨name, id, concurrency, heq⟩
    have hzero : pool.registeredTids i = 0 := by
      unfold QueuePool.registeredTids
      rw [List.countP_eq_zero]
      intro t _
      unfold QueuePool.isRegistered
      rw [htid]
      exact nofun
    rw [heq]
    exact hzero.symm
  · rw [show (start pool).pool.lasttid = 0 from Engine.create_lasttid hcreate]
    exact Nat.zero_le _

/-- In every state of a run, the counter of each queue is the number of identifiers registered for it.
`ExecuteTask` hands out an identifier that is free, or changes nothing because all are in use.
`TerminateTask` returns the task that was registered last under the identifier, if it is registered, and
frees it; the counter of its queue was not 0. -/
theorem tids_of_run (rows : List (String × UInt32 × UInt32)) (maxpid : Fin (2 ^ 31))
    (pool : QueuePool WI DOMNode) (hcreate : QueuePool.create rows maxpid = .ok pool)
    (calls : List (TidCall WI DOMNode)) (s : TidRun WI DOMNode)
    (hok : Meets step Allowed (start pool) calls) (hrun : run step (start pool) calls = some s) :
    (∀ i q, s.pool.queue[i]? = some q → q.runningTasks.toNat = s.pool.registeredTids i) ∧
      (∀ wi task queueName, (s.pool.lookup queueName).isSome →
        (s.Full → s.pool.executeTask wi task queueName 0 = (0, s.pool)) ∧
        (¬ s.Full → ∃ t < (s.pool.maxpid : Nat),
          (s.pool.executeTask wi task queueName 0).1 = t ∧ s.registered t = none ∧
            ((s.pool.executeTask wi task queueName 0).2.tid t).map TidEntry.content =
              some (wi, task))) ∧
      ∀ t, (s.pool.terminateTask t).1 = s.registered t ∧ (s.pool.terminateTask t).2.tid t = none ∧
        ∀ e q, s.pool.tid t = some e → s.pool.queue[e.queueIndex]? = some q →
          0 < q.runningTasks.toNat := by
  have hinv : s.Inv :=
    run_invariant (fun _ _ _ h hok hstep ↦ step_inv h hok hstep) (start_inv hcreate) hok hrun
  refine ⟨hinv.agrees.running, ?_, ?_⟩
  · intro wi task queueName hknown
    rcases Option.isSome_iff_exists.mp hknown with ⟨i, hi⟩
    rcases hinv.agrees.allocate hi wi task with ⟨hcall, hall⟩ | ⟨t, hlt, hfree, hcall⟩
    · exact ⟨fun _ ↦ hcall, fun hnot ↦ absurd (hinv.full_iff.mpr hall) hnot⟩
    · refine ⟨fun hfull ↦ absurd hfree (hinv.full_iff.mp hfull t hlt), fun _ ↦ ⟨t, hlt, ?_⟩⟩
      rw [hcall]
      refine ⟨rfl, (hinv.tid_eq_none_iff t).mp hfree, ?_⟩
      show (Function.update s.pool.tid t (some ⟨i, task, wi⟩) t).map TidEntry.content = some (wi, task)
      rw [Function.update_self]
      rfl
  · intro t
    refine ⟨?_, ?_, fun e q he hq ↦ hinv.agrees.running_pos he hq⟩
    · rw [hinv.agrees.table]
      unfold QueuePool.terminateTask
      cases s.pool.tid t <;> rfl
    · unfold QueuePool.terminateTask
      cases he : s.pool.tid t with
      | none => exact he
      | some e => exact Function.update_self _ _ _

instance (s : TidRun WI DOMNode) : (call : TidCall WI DOMNode) → Decidable (s.Allowed call)
  | .executeTask _ _ queueName taskId => inferInstanceAs (Decidable ((s.pool.lookup queueName).isSome ∧
      (taskId ≠ 0 → taskId ∉ s.given ∧ taskId ≤ s.pool.maxpid ∧ s.allocated = false)))
  | .terminateTask taskId => inferInstanceAs (Decidable (taskId ≤ s.pool.maxpid))

/-- `Resume` gives 2, above `lasttid`; the identifiers behind it are asked for until 0 is the last one. -/
def resumedAndFull : List (TidCall UInt32 Nat) :=
  [.executeTask 1 10 "default" 2, .executeTask 1 11 "default" 0, .executeTask 1 12 "default" 0,
    .terminateTask 1, .terminateTask 1, .executeTask 1 13 "default" 0]

theorem tids_resumedAndFull : ∃ (pool : QueuePool UInt32 Nat) (s : TidRun UInt32 Nat),
    QueuePool.create [("default", 1, 4)] 3 = .ok pool ∧ run step (start pool) resumedAndFull = some s ∧
      s.registered 1 = some (1, 13) ∧ (s.pool.terminateTask 1).1 = some (1, 13) ∧
      s.pool.executeTask 1 14 "default" 0 = (0, s.pool) := by
  refine ⟨_, _, rfl, rfl, rfl, ?_, ?_⟩
  · exact ((tids_of_run [("default", 1, 4)] 3 _ rfl resumedAndFull _ (by decide) rfl).2.2 1).1
  · exact ((tids_of_run [("default", 1, 4)] 3 _ rfl resumedAndFull _ (by decide) rfl).2.1 1 14 "default"
      (by decide)).1 (by decide)

end TidRun

end EvQueue
