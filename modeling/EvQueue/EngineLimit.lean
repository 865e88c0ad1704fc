import Mathlib.Data.List.Perm.Basic
import EvQueue.Engine

/-!
# EngineLimit — no queue runs more tasks than its concurrency

The limit is checked when a task leaves its queue and counted when the task is registered, and tasks of
cancelled instances pass the check unseen.  The invariant therefore counts, beside the forked tasks, the
one that the forker is about to fork.
-/

namespace EvQueue

open Cells Runs

/-! ## The table of identifiers and the running counters -/

namespace QueuePool

variable {WI DOMNode : Type} {p p' : QueuePool WI DOMNode} {held held' : List (Nat × Nat)} {t i : Nat}

/-- `held` lists the identifiers in use, each with its queue: the table has exactly these, and every
queue counts its own. -/
structure Registered (p : QueuePool WI DOMNode) (held : List (Nat × Nat)) : Prop where
  nodup : (held.map Prod.fst).Nodup
  table : ∀ t i, (t, i) ∈ held ↔ (p.tid t).map TidEntry.queueIndex = some i
  bound : ∀ x ∈ held, x.1 < p.maxpid
  running : ∀ (i : Nat) (q : Queue WI DOMNode), p.queue[i]? = some q →
    q.runningTasks.toNat = held.countP fun x ↦ x.2 == i

/-- The queues of `p'` are those of `p` with other lists. -/
def SameQueueLimits (p p' : QueuePool WI DOMNode) : Prop :=
  ∀ (i : Nat) (q' : Queue WI DOMNode), p'.queue[i]? = some q' →
    ∃ q, p.queue[i]? = some q ∧ q.SameLimits q'

theorem Registered.length_le (hr : p.Registered held) : held.length ≤ p.maxpid := by
  have hsub : held.map Prod.fst ⊆ List.range p.maxpid := by
    intro t ht
    obtain ⟨x, hx, rfl⟩ := List.mem_map.mp ht
    exact List.mem_range.mpr (hr.bound x hx)
  simpa using (List.subperm_of_subset hr.nodup hsub).length_le

theorem Registered.perm (hr : p.Registered held) (hp : held.Perm held') : p.Registered held' where
  nodup := (hp.map Prod.fst).nodup_iff.mp hr.nodup
  table t i := by rw [← hp.mem_iff, hr.table]
  bound x hx := hr.bound x (hp.mem_iff.mpr hx)
  running i q hq := by rw [hr.running i q hq, hp.countP_eq]

theorem Registered.of_sameTables (hr : p.Registered held) (hs : SameTables p p')
    (hq : SameQueueLimits p p') : p'.Registered held where
  nodup := hr.nodup
  table t i := by rw [hs.tid, hr.table]
  bound x hx := by rw [hs.maxpid]; exact hr.bound x hx
  running i q' hq' := by
    obtain ⟨q, hget, hlim⟩ := hq i q' hq'
    rw [hlim.runningTasks, hr.running i q hget]

theorem Registered.register {wi : WI} {task : DOMNode} (hr : p.Registered held)
    (hfree : p.tid t = none) (ht : t < p.maxpid) :
    (p.register i wi task t).Registered ((t, i) :: held) := by
  have hnew : ∀ j, (t, j) ∉ held := fun j hin ↦ by
    have := (hr.table t j).mp hin
    simp [hfree] at this
  refine ⟨?_, ?_, ?_, ?_⟩
  · refine List.nodup_cons.mpr ⟨fun hin ↦ ?_, hr.nodup⟩
    obtain ⟨x, hx, hxt⟩ := List.mem_map.mp hin
    have hxt' : x.1 = t := hxt
    exact hnew x.2 (by rw [← hxt']; exact hx)
  · intro s j
    by_cases hst : s = t
    · subst hst
      simp [QueuePool.register, hnew]
      exact eq_comm
    · simp [QueuePool.register, hst, hr.table]
  · intro x hx
    rcases List.mem_cons.mp hx with rfl | hx
    · exact ht
    · exact hr.bound x hx
  · intro j q' hq'
    have hlen := hr.length_le
    have hmax := p.maxpid.isLt
    simp only [QueuePool.register, updateForkPossible_queue, List.getElem?_modify] at hq'
    obtain ⟨q, hq, rfl⟩ := Option.map_eq_some_iff.mp hq'
    have hcount : held.countP (fun x ↦ x.2 == j) ≤ held.length := List.countP_le_length
    rw [List.countP_cons, ← hr.running j q hq] at *
    by_cases hij : i = j
    · subst hij
      simp [Queue.executeTask, UInt32.toNat_add]
      omega
    · simp [hij]

theorem Registered.terminate (hr : p.Registered ((t, i) :: held)) :
    (p.terminateTask t).2.Registered held := by
  obtain ⟨entry, hentry, hidx⟩ := Option.map_eq_some_iff.mp ((hr.table t i).mp (by simp))
  have hnd := hr.nodup
  simp only [List.map_cons, List.nodup_cons] at hnd
  have hgone : ∀ j, (t, j) ∉ held := fun j hin ↦ hnd.1 (List.mem_map_of_mem hin)
  unfold terminateTask
  rw [hentry]
  refine ⟨hnd.2, ?_, fun x hx ↦ hr.bound x (by simp [hx]), ?_⟩
  · intro s j
    by_cases hst : s = t
    · subst hst
      simp [hgone]
    · simp [hst, ← hr.table]
  · intro j q' hq'
    simp only [updateForkPossible_queue, List.getElem?_modify, hidx] at hq'
    obtain ⟨q, hq, rfl⟩ := Option.map_eq_some_iff.mp hq'
    have hrun := hr.running j q hq
    rw [List.countP_cons] at hrun
    by_cases hij : i = j
    · subst hij
      simp only [beq_self_eq_true, if_true] at hrun ⊢
      have hone : (1 : UInt32) ≤ q.runningTasks := by
        rw [UInt32.le_iff_toNat_le, hrun]
        simp
      simp only [Queue.terminateTask]
      rw [UInt32.toNat_sub_of_le _ _ hone, hrun]
      simp
    · simpa [hij] using hrun

end QueuePool

/-! ## The invariant -/

/-- The identifiers the forker holds for a task that is not running. -/
def Forker.held {WI DOMNode : Type} : Forker WI DOMNode → List (Nat × Nat)
  | .registered i _ tid => [(tid, i)]
  | .releasing i tid => [(tid, i)]
  | _ => []

/-- The queue and the task that the forker is about to fork. -/
def Forker.task? {WI DOMNode : Type} : Forker WI DOMNode → Option (Nat × Task WI DOMNode)
  | .dequeued i _ t => some (i, t)
  | .registered i t _ => some (i, t)
  | _ => none

namespace Engine

variable {WI DOMNode : Type} {A : Allocator (Task WI DOMNode)} {getInstanceID : WI → UInt32}
  {e e' : Engine WI DOMNode} {i : Nat} {q q' : Queue WI DOMNode}

def held (e : Engine WI DOMNode) : List (Nat × Nat) :=
  e.forker.held ++ e.processes.map fun x ↦ (x.tid, x.queue)

/-- 1 while the forker is about to fork a task of queue `i` whose instance is not cancelled. -/
def launching (getInstanceID : WI → UInt32) (e : Engine WI DOMNode) (i : Nat) : Nat :=
  match e.forker.task? with
  | some (j, t) => if j = i ∧ e.isCancelling (getInstanceID t.workflowInstance) = false then 1 else 0
  | none => 0

/-- What holds of queue `i`: both lists are well formed, only tasks of cancelled instances are on the
cancelled one, and a queue that holds tasks is found under its name. -/
def QueueInv (getInstanceID : WI → UInt32) (e : Engine WI DOMNode) (i : Nat) (q : Queue WI DOMNode) :
    Prop :=
  ∃ ps cs, q.Lists ps cs ∧
    (∀ c ∈ cs, e.isCancelling (getInstanceID c.2.workflowInstance) = true) ∧
    (ps ≠ [] ∨ cs ≠ [] → ∃ s, e.pool.lookup s = some i)

structure Inv (getInstanceID : WI → UInt32) (e : Engine WI DOMNode) : Prop where
  lists : ∀ i q, e.pool.queue[i]? = some q → QueueInv getInstanceID e i q
  named : ∀ i s t, e.forker = .dequeued i s t → e.pool.lookup s = some i
  registered : e.pool.Registered e.held
  limit : ∀ i q, e.pool.queue[i]? = some q →
    e.forked i + e.launching getInstanceID i ≤ q.concurrency.toNat

theorem Inv.withinLimits (hinv : Inv getInstanceID e) : e.WithinLimits := fun i q hq ↦ by
  have := hinv.limit i q hq
  omega

theorem lookup_congr {p p' : QueuePool WI DOMNode} (hname : p'.name = p.name) {s : String} :
    p'.lookup s = p.lookup s := by
  unfold QueuePool.lookup
  rw [hname]

theorem getElem?_set_cases {l : List (Queue WI DOMNode)} {j : Nat} {x : Queue WI DOMNode}
    (h : (l.set i q')[j]? = some x) : (j = i ∧ x = q') ∨ (j ≠ i ∧ l[j]? = some x) := by
  rw [List.getElem?_set] at h
  by_cases hij : i = j
  · rw [if_pos hij] at h
    split at h
    · exact .inl ⟨hij.symm, (Option.some.inj h).symm⟩
    · cases h
  · rw [if_neg hij] at h
    exact .inr ⟨Ne.symm hij, h⟩

/-- Replacing the lists of one queue keeps what the other fields say. -/
theorem sameQueueLimits_set {p p' : QueuePool WI DOMNode} (hq : p.queue[i]? = some q)
    (hset : p'.queue = p.queue.set i q') (hlim : q.SameLimits q') :
    QueuePool.SameQueueLimits p p' := by
  intro j x hx
  rw [hset] at hx
  rcases getElem?_set_cases hx with ⟨rfl, rfl⟩ | ⟨-, hx⟩
  · exact ⟨q, hq, hlim⟩
  · exact ⟨x, hx, ⟨rfl, rfl, rfl⟩⟩

/-- What holds of a queue only depends on the flags, which are never reset, and on the names. -/
theorem QueueInv.mono (h : QueueInv getInstanceID e i q)
    (hflags : ∀ id, e.isCancelling id = true → e'.isCancelling id = true)
    (hname : e'.pool.name = e.pool.name) : QueueInv getInstanceID e' i q := by
  obtain ⟨ps, cs, hl, hcanc, hnamed⟩ := h
  refine ⟨ps, cs, hl, fun c hc ↦ hflags _ (hcanc c hc), fun hne ↦ ?_⟩
  obtain ⟨s, hlook⟩ := hnamed hne
  exact ⟨s, by rw [lookup_congr hname, hlook]⟩

theorem launching_le_one (i : Nat) : e.launching getInstanceID i ≤ 1 := by
  unfold launching
  split
  · split <;> omega
  · omega

/-- The forker takes a step that keeps the queues as they are, holds the same identifiers and is
about to fork nothing it was not about to fork. -/
theorem Inv.of_forker (hinv : Inv getInstanceID e) {forker : Forker WI DOMNode}
    (hheld : forker.held = e.forker.held) (hnamed : ∀ i s t, forker ≠ .dequeued i s t)
    (htask : forker.task? = none ∨ forker.task? = e.forker.task?) :
    Inv getInstanceID { e with forker } where
  lists := hinv.lists
  named i s t h := absurd h (hnamed i s t)
  registered := by
    have hsame : held { e with forker } = e.held := by simp only [held, hheld]
    rw [hsame]
    exact hinv.registered
  limit i q hq := by
    have hl := hinv.limit i q hq
    have hle : launching getInstanceID { e with forker } i ≤ e.launching getInstanceID i := by
      unfold launching
      rcases htask with h | h <;> simp [h]
    show e.forked i + _ ≤ _
    omega

theorem enqueueTask_inv {queueName : String} {wi : WI} {task : DOMNode} (hinv : Inv getInstanceID e)
    (hok : e.Guarded (.enqueueTask queueName wi task))
    (hstep : e.step A getInstanceID (.enqueueTask queueName wi task) = some e') :
    Inv getInstanceID e' := by
  obtain ⟨⟨found, pool⟩, hcall, rfl⟩ := Option.map_eq_some_iff.mp hstep
  rcases QueuePool.enqueueTask_cases hcall with ⟨rfl, -⟩ | ⟨i, q, q', hlook, hq, henq, hset, hs⟩
  · exact ⟨hinv.lists, hinv.named, hinv.registered, hinv.limit⟩
  · obtain ⟨ps, cs, hl, hcanc, -⟩ := hinv.lists i q hq
    obtain ⟨q'', b, henq', hl', -, -, hlim⟩ :=
      Queue.enqueueTask_lists A wi task hl (hok i q ps cs hlook hq hl)
    obtain rfl : q'' = q' := Option.some.inj (henq'.symm.trans henq)
    have hsame := sameQueueLimits_set hq hset hlim
    refine ⟨?_, ?_, hinv.registered.of_sameTables hs hsame, ?_⟩
    · intro j x hx
      dsimp only at hx
      rw [hset] at hx
      rcases getElem?_set_cases hx with ⟨rfl, rfl⟩ | ⟨-, hx⟩
      · exact ⟨_, cs, hl', hcanc, fun _ ↦ ⟨queueName, by rw [lookup_congr hs.name, hlook]⟩⟩
      · exact (hinv.lists j x hx).mono (fun _ h ↦ h) hs.name
    · intro j s t hf
      rw [lookup_congr hs.name]
      exact hinv.named j s t hf
    · intro j x hx
      obtain ⟨y, hy, hlim⟩ := hsame j x hx
      rw [hlim.concurrency]
      exact hinv.limit j y hy

theorem cancel_inv {id : UInt32} (hinv : Inv getInstanceID e) :
    Inv getInstanceID { e with isCancelling := Function.update e.isCancelling id true } where
  lists i q hq := (hinv.lists i q hq).mono (fun id' h ↦ by
    by_cases hid : id' = id <;> simp [hid, h]) rfl
  named := hinv.named
  registered := hinv.registered
  limit i q hq := by
    have hl := hinv.limit i q hq
    -- a raised flag can only keep the forker from forking
    have hle : launching getInstanceID { e with isCancelling := Function.update e.isCancelling id true }
        i ≤ e.launching getInstanceID i := by
      unfold launching
      cases e.forker.task? with
      | none => exact Nat.le_refl 0
      | some x =>
        by_cases hid : getInstanceID x.2.workflowInstance = id <;> simp [hid]
    show e.forked i + _ ≤ _
    omega

theorem cancelTasks_inv {id : UInt32} (hinv : Inv getInstanceID e)
    (hstep : e.step A getInstanceID (.cancelTasks id) = some e') : Inv getInstanceID e' := by
  unfold step at hstep
  dsimp only at hstep
  split at hstep
  · rename_i hflag
    obtain ⟨pool, hcall, rfl⟩ := Option.map_eq_some_iff.mp hstep
    obtain ⟨hs, hqueues⟩ := QueuePool.cancelTasks_cases hcall
    -- every moved task belongs to the flagged instance
    have hmoved : ∀ j x, pool.queue[j]? = some x → ∃ y ps cs, e.pool.queue[j]? = some y ∧
        y.SameLimits x ∧ x.Lists ps cs ∧
        (∀ c ∈ cs, e.isCancelling (getInstanceID c.2.workflowInstance) = true) ∧
        (ps ≠ [] ∨ cs ≠ [] → ∃ s, e.pool.lookup s = some j) := by
      intro j x hx
      obtain ⟨y, hy, hcan⟩ := hqueues j x hx
      obtain ⟨ps, cs, hl, hcanc, hnamed⟩ := hinv.lists j y hy
      obtain ⟨x', hcan', hl', -, -, hlim⟩ := Queue.cancelTasks_lists getInstanceID id hl
      obtain rfl : x' = x := Option.some.inj (hcan'.symm.trans hcan)
      refine ⟨y, _, _, hy, hlim, hl', ?_, ?_⟩
      · intro c hc
        rcases List.mem_append.mp hc with hm | hc
        · unfold Queue.moved at hm
          have hhit := (List.mem_filter.mp (List.mem_reverse.mp hm)).2
          have hid : getInstanceID c.2.workflowInstance = id := by simpa [Queue.hit] using hhit
          rw [hid, hflag]
        · exact hcanc c hc
      · intro hne
        refine hnamed ?_
        rcases hne with h | h
        · refine .inl fun hnil ↦ h ?_
          simp [Queue.kept, hnil]
        · by_contra hno
          simp only [not_or, not_not] at hno
          simp [hno.1, hno.2, Queue.moved] at h
    have hsame : QueuePool.SameQueueLimits e.pool pool := fun j x hx ↦ by
      obtain ⟨y, -, -, hy, hlim, -⟩ := hmoved j x hx
      exact ⟨y, hy, hlim⟩
    refine ⟨?_, ?_, hinv.registered.of_sameTables hs hsame, ?_⟩
    · intro j x hx
      obtain ⟨y, ps, cs, hy, hlim, hl, hcanc, hnamed⟩ := hmoved j x hx
      refine ⟨ps, cs, hl, hcanc, fun hne ↦ ?_⟩
      obtain ⟨s, hlook⟩ := hnamed hne
      exact ⟨s, by rw [lookup_congr hs.name, hlook]⟩
    · intro j s t hf
      rw [lookup_congr hs.name]
      exact hinv.named j s t hf
    · intro j x hx
      obtain ⟨y, hy, hlim⟩ := hsame j x hx
      rw [hlim.concurrency]
      exact hinv.limit j y hy
  · cases hstep

theorem forked_eq_countP_held (hheld : e.forker.held = []) :
    e.held.countP (fun x ↦ x.2 == i) = e.forked i := by
  unfold held forked
  rw [hheld, List.nil_append, List.countP_map]
  rfl

/-- A task that leaves a well-formed queue was cancelled, or found the concurrency not reached. -/
theorem dequeueTask_open {ps cs : List (Addr × Task WI DOMNode)} {t : Task WI DOMNode}
    (hl : q.Lists ps cs) (hdeq : q.dequeueTask = some (some t, q')) :
    ∃ ps' cs', q'.Lists ps' cs' ∧ q.SameLimits q' ∧ (∀ c ∈ cs', c ∈ cs) ∧ (ps ≠ [] ∨ cs ≠ []) ∧
      ((∃ c ∈ cs, c.2 = t) ∨ q.runningTasks < q.concurrency) := by
  cases cs with
  | cons c cs =>
    obtain ⟨q'', hdeq', hl', -, -, hlim⟩ := Queue.dequeueTask_cancelled hl
    obtain ⟨ht, rfl⟩ := Prod.mk.inj (Option.some.inj (hdeq'.symm.trans hdeq))
    exact ⟨ps, cs, hl', hlim, fun c hc ↦ by simp [hc], .inr (by simp),
      .inl ⟨c, by simp, Option.some.inj ht⟩⟩
  | nil =>
    have hnone : q.cancelledTasks = none := hl.cancelled
    cases hlock : q.isLocked with
    | true =>
      rw [Queue.dequeueTask_locked hlock] at hdeq
      cases (Prod.mk.inj (Option.some.inj hdeq)).1
    | false =>
      have hrun : q.runningTasks < q.concurrency := by
        by_contra hno
        simp [Queue.isLocked, hnone, hno] at hlock
      cases ps with
      | nil =>
        -- nothing is pending, whatever `size` says: the null head would be followed
        have hfirst : q.firstTask = none := hl.pending
        simp [Queue.dequeueTask, hlock, hnone, hfirst] at hdeq
      | cons x ps =>
        obtain ⟨q'', hdeq', hl', -, -, hlim⟩ := Queue.dequeueTask_pending hl hlock
        obtain ⟨-, rfl⟩ := Prod.mk.inj (Option.some.inj (hdeq'.symm.trans hdeq))
        exact ⟨ps, [], hl', hlim, by simp, .inl (by simp), .inr hrun⟩

theorem finishDequeue_inv (hinv : Inv getInstanceID e) (hheld : e.forker.held = [])
    (hstep : e.finishDequeue e.pool = some e') : Inv getInstanceID e' := by
  unfold finishDequeue at hstep
  obtain ⟨⟨found, pool⟩, hbody, hstep⟩ := Option.map_eq_some_iff.mp hstep
  rcases QueuePool.dequeueBody_cases hbody with ⟨rfl, hqueue, hs⟩ | ⟨i, q, t, q', rfl, hq, hdeq, hset, hs⟩
  · subst hstep
    have hsame : QueuePool.SameQueueLimits e.pool pool := fun j x hx ↦
      ⟨x, by rwa [← hqueue], ⟨rfl, rfl, rfl⟩⟩
    have hreg := hinv.registered.of_sameTables hs hsame
    unfold held at hreg
    rw [hheld] at hreg
    refine ⟨fun j x hx ↦ ?_, by simp, hreg, fun j x hx ↦ ?_⟩
    · exact (hinv.lists j x (by rwa [← hqueue])).mono (fun _ h ↦ h) hs.name
    · have hl := hinv.limit j x (by rwa [← hqueue])
      exact Nat.le_trans (Nat.add_le_add_left (Nat.zero_le _) _) hl
  · subst hstep
    obtain ⟨ps, cs, hl, hcanc, hnamed⟩ := hinv.lists i q hq
    obtain ⟨ps', cs', hl', hlim, hsub, hne, hwhy⟩ := dequeueTask_open hl hdeq
    obtain ⟨s, hlook⟩ := hnamed hne
    have hsame := sameQueueLimits_set hq hset hlim
    have hreg := hinv.registered.of_sameTables hs hsame
    unfold held at hreg
    rw [hheld] at hreg
    refine ⟨?_, ?_, hreg, ?_⟩
    · intro j x hx
      dsimp only at hx
      rw [hset] at hx
      rcases getElem?_set_cases hx with ⟨rfl, rfl⟩ | ⟨-, hx⟩
      · exact ⟨ps', cs', hl', fun c hc ↦ hcanc c (hsub c hc),
          fun _ ↦ ⟨s, by rw [lookup_congr hs.name, hlook]⟩⟩
      · exact (hinv.lists j x hx).mono (fun _ h ↦ h) hs.name
    · -- the name copied to the forker finds the queue again
      intro j s' t' hf
      obtain ⟨rfl, rfl, rfl⟩ := by simpa using hf
      dsimp only
      rw [lookup_congr hs.name, hs.name, QueuePool.lookup_name hlook, Option.getD_some, hlook]
    · intro j x hx
      obtain ⟨y, hy, hlim'⟩ := hsame j x hx
      rw [hlim'.concurrency]
      have hl := hinv.limit j y hy
      by_cases hji : j = i
      · subst hji
        obtain rfl : y = q := by simpa [hq] using hy.symm
        rcases hwhy with ⟨c, hc, rfl⟩ | hrun
        · simp only [launching, Forker.task?, hcanc c hc]
          show e.forked j + _ ≤ _
          simp
          omega
        · have hcount := hinv.registered.running j y hy
          rw [forked_eq_countP_held hheld] at hcount
          rw [UInt32.lt_iff_toNat_lt, hcount] at hrun
          exact Nat.le_trans (Nat.add_le_add_left (launching_le_one j) _) hrun
      · have hzero : launching getInstanceID
            { e with pool := pool, forker := .dequeued i (pool.name[i]?.getD "") t } j = 0 := by
          simp [launching, Forker.task?, Ne.symm hji]
        rw [hzero]
        show e.forked j + 0 ≤ _
        omega

/-- The pool changes its wait and signal flags only. -/
theorem Inv.of_flags {pool : QueuePool WI DOMNode} (hinv : Inv getInstanceID e)
    (hqueue : pool.queue = e.pool.queue) (hs : QueuePool.SameTables e.pool pool) :
    Inv getInstanceID { e with pool } where
  lists i q hq := (hinv.lists i q (by rwa [← hqueue])).mono (fun _ h ↦ h) hs.name
  named i s t hf := by
    rw [lookup_congr hs.name]
    exact hinv.named i s t hf
  registered := hinv.registered.of_sameTables hs fun i q hq ↦
    ⟨q, by rwa [← hqueue], ⟨rfl, rfl, rfl⟩⟩
  limit i q hq := hinv.limit i q (by rwa [← hqueue])

theorem dequeueTask_inv (hinv : Inv getInstanceID e)
    (hstep : e.step A getInstanceID .dequeueTask = some e') : Inv getInstanceID e' := by
  unfold step at hstep
  cases hf : e.forker with
  | idle =>
    have hheld : e.forker.held = [] := by rw [hf]; rfl
    simp only [hf, QueuePool.dequeueEnter] at hstep
    by_cases hshut : e.pool.isShuttingDown = true
    · simp only [hshut, if_true] at hstep
      obtain rfl := Option.some.inj hstep
      exact hinv.of_forker hheld.symm (by simp) (.inl rfl)
    · by_cases hposs : e.pool.forkPossible = true
      · simp only [hshut, hposs] at hstep
        exact finishDequeue_inv hinv hheld hstep
      · simp only [hshut, hposs] at hstep
        obtain rfl := Option.some.inj hstep
        have hwait : Inv getInstanceID { e with forker := .waiting } :=
          hinv.of_forker hheld.symm (by simp) (.inl rfl)
        exact hwait.of_flags rfl ⟨rfl, rfl, rfl⟩
  | _ => simp [hf] at hstep

theorem wakeUp_inv (hinv : Inv getInstanceID e) (hstep : e.step A getInstanceID .wakeUp = some e') :
    Inv getInstanceID e' := by
  unfold step at hstep
  cases hf : e.forker with
  | waiting =>
    simp only [hf] at hstep
    exact finishDequeue_inv hinv (by rw [hf]; rfl) hstep
  | _ => simp [hf] at hstep

/-- The counter of one queue changes: neither the lists nor the concurrency do. -/
theorem Inv.of_modify (hinv : Inv getInstanceID e) {f : Queue WI DOMNode → Queue WI DOMNode}
    (hf : ∀ q, (f q).concurrency = q.concurrency ∧
      ∀ ps cs, q.Lists ps cs → (f q).Lists ps cs)
    (hqueue : e'.pool.queue = e.pool.queue.modify i f) (hname : e'.pool.name = e.pool.name)
    (hcanc : e'.isCancelling = e.isCancelling)
    (hnamed : ∀ i s t, e'.forker = .dequeued i s t → e.forker = .dequeued i s t)
    (hreg : e'.pool.Registered e'.held)
    (hle : ∀ j, e'.forked j + e'.launching getInstanceID j ≤
      e.forked j + e.launching getInstanceID j) : Inv getInstanceID e' := by
  have hget : ∀ (j : Nat) (x : Queue WI DOMNode), e'.pool.queue[j]? = some x →
      ∃ y, e.pool.queue[j]? = some y ∧ (x = y ∨ x = f y) := by
    intro j x hx
    rw [hqueue, List.getElem?_modify] at hx
    rcases Option.map_eq_some_iff.mp hx with ⟨y, hy, hxy⟩
    refine ⟨y, hy, ?_⟩
    split at hxy
    · exact .inr hxy.symm
    · exact .inl hxy.symm
  refine ⟨?_, ?_, hreg, ?_⟩
  · intro j x hx
    rcases hget j x hx with ⟨y, hy, hxy⟩
    have hq : QueueInv getInstanceID e' j y :=
      (hinv.lists j y hy).mono (fun id h ↦ by rw [hcanc]; exact h) hname
    rcases hxy with rfl | rfl
    · exact hq
    · rcases hq with ⟨ps, cs, hl, hrest⟩
      exact ⟨ps, cs, (hf y).2 ps cs hl, hrest⟩
  · intro j s t h
    rw [lookup_congr hname]
    exact hinv.named j s t (hnamed j s t h)
  · intro j x hx
    rcases hget j x hx with ⟨y, hy, hxy⟩
    have hconc : x.concurrency = y.concurrency := by
      rcases hxy with rfl | rfl
      · rfl
      · exact (hf y).1
    rw [hconc]
    exact Nat.le_trans (hle j) (hinv.limit j y hy)

theorem executeTask_inv (hinv : Inv getInstanceID e) (hok : e.Guarded .executeTask)
    (hstep : e.step A getInstanceID .executeTask = some e') : Inv getInstanceID e' := by
  unfold step at hstep
  cases hf : e.forker with
  | dequeued i queueName t =>
    have hlook := hinv.named i queueName t hf
    rcases Option.ne_none_iff_exists'.mp hok with ⟨tid, htid⟩
    have hfree := QueuePool.freeTid_eq_some htid
    have hreg : ({ e.pool with lasttid := tid } : QueuePool WI DOMNode).Registered e.held :=
      hinv.registered.of_sameTables ⟨rfl, rfl, rfl⟩ fun j x hx ↦ ⟨x, hx, ⟨rfl, rfl, rfl⟩⟩
    simp only [hf, QueuePool.executeTask, hlook, htid, if_true] at hstep
    obtain rfl := Option.some.inj hstep
    apply hinv.of_modify (i := i) (f := Queue.executeTask)
    · intro q
      exact ⟨rfl, fun ps cs hl ↦ ⟨hl.pending, hl.cancelled, hl.disjoint⟩⟩
    · rfl
    · rfl
    · rfl
    · simp
    · have hheld : e.held = e.processes.map fun x ↦ (x.tid, x.queue) := by simp [held, hf, Forker.held]
      rw [hheld] at hreg
      exact hreg.register hfree.1 hfree.2
    · intro j
      simp only [forked, launching, Forker.task?, hf]
      exact Nat.le_refl _
  | _ => simp [hf] at hstep

theorem taskExecute_inv {known : Bool} {fork : Option Nat} (hinv : Inv getInstanceID e)
    (hstep : e.step A getInstanceID (.taskExecute known fork) = some e') : Inv getInstanceID e' := by
  unfold step at hstep
  cases hf : e.forker with
  | registered i t tid =>
    simp only [hf] at hstep
    cases hres : taskExecuteResult (e.isCancelling (getInstanceID t.workflowInstance)) known fork with
    | none =>
      -- the identifier is still held, the task will not be forked
      simp only [hres] at hstep
      obtain rfl := Option.some.inj hstep
      exact hinv.of_forker (by simp [hf, Forker.held]) (by simp) (.inl rfl)
    | some pid =>
      simp only [hres] at hstep
      obtain rfl := Option.some.inj hstep
      have hflag : e.isCancelling (getInstanceID t.workflowInstance) = false := by
        by_contra hno
        simp [taskExecuteResult, hno] at hres
      have hreg := hinv.registered
      simp only [held, hf] at hreg
      refine ⟨fun j x hx ↦ (hinv.lists j x hx).mono (fun _ h ↦ h) rfl, by simp, hreg, ?_⟩
      intro j x hx
      have hl := hinv.limit j x hx
      -- the task was counted as about to be forked, and now as forked
      have hsame : forked { e with forker := .idle, processes := ⟨pid, tid, i⟩ :: e.processes } j =
          e.forked j + e.launching getInstanceID j := by
        simp [forked, launching, hf, Forker.task?, hflag, List.countP_cons]
      rw [hsame]
      simpa [launching, Forker.task?] using hl
  | _ => simp [hf] at hstep

/-- An identifier is released, by the forker or by the gatherer. -/
theorem Inv.of_terminate {tid : Nat} {rest : List (Nat × Nat)} (hinv : Inv getInstanceID e)
    (hperm : e.held.Perm ((tid, i) :: rest)) (hpool : e'.pool = (e.pool.terminateTask tid).2)
    (hheld : e'.held = rest) (hcanc : e'.isCancelling = e.isCancelling)
    (hnamed : ∀ i s t, e'.forker = .dequeued i s t → e.forker = .dequeued i s t)
    (hle : ∀ j, e'.forked j + e'.launching getInstanceID j ≤
      e.forked j + e.launching getInstanceID j) : Inv getInstanceID e' := by
  have hreg := hinv.registered.perm hperm
  have hmem : (tid, i) ∈ (tid, i) :: rest := by simp
  rcases Option.map_eq_some_iff.mp ((hreg.table tid i).mp hmem) with ⟨entry, hentry, hidx⟩
  apply hinv.of_modify (i := i) (f := Queue.terminateTask)
  · intro q
    exact ⟨rfl, fun ps cs hl ↦ ⟨hl.pending, hl.cancelled, hl.disjoint⟩⟩
  · simp [hpool, QueuePool.terminateTask, hentry, hidx]
  · simp [hpool, QueuePool.terminateTask, hentry]
  · exact hcanc
  · exact hnamed
  · rw [hpool, hheld]
    exact hreg.terminate
  · exact hle

theorem terminateFailed_inv (hinv : Inv getInstanceID e)
    (hstep : e.step A getInstanceID .terminateFailed = some e') : Inv getInstanceID e' := by
  unfold step at hstep
  cases hf : e.forker with
  | releasing i tid =>
    simp only [hf] at hstep
    obtain rfl := Option.some.inj hstep
    have hheld : e.held = (tid, i) :: e.processes.map fun x ↦ (x.tid, x.queue) := by
      simp [held, hf, Forker.held]
    apply hinv.of_terminate (List.Perm.of_eq hheld)
    · rfl
    · simp [held, Forker.held]
    · rfl
    · simp
    · intro j
      simp only [forked, launching, Forker.task?]
      omega
  | _ => simp [hf] at hstep

theorem gather_inv {pid tid : Nat} (hinv : Inv getInstanceID e) (hok : e.Guarded (.gather pid tid))
    (hstep : e.step A getInstanceID (.gather pid tid) = some e') : Inv getInstanceID e' := by
  unfold step at hstep
  obtain rfl := Option.some.inj hstep
  by_cases hex : ∃ x ∈ e.processes, x.pid = pid ∧ x.tid = tid
  · rcases hex with ⟨x, hx, hpid, htid⟩
    have hmatch : (x.pid == pid && x.tid == tid) = true := by simp [hpid, htid]
    rcases List.exists_of_eraseP (p := fun x ↦ x.pid == pid && x.tid == tid) hx hmatch with
      ⟨y, l₁, l₂, -, hy, hl, herase⟩
    have hytid : y.tid = tid := by
      simp only [Bool.and_eq_true, beq_iff_eq] at hy
      exact hy.2
    rw [herase]
    have hperm : e.held.Perm ((tid, y.queue) ::
        (e.forker.held ++ (l₁ ++ l₂).map fun x ↦ (x.tid, x.queue))) := by
      unfold held
      rw [hl]
      simp only [List.map_append, List.map_cons, hytid, ← List.append_assoc]
      exact List.perm_middle
    apply hinv.of_terminate hperm
    · rfl
    · rfl
    · rfl
    · exact fun _ _ _ h ↦ h
    · intro j
      apply Nat.add_le_add_right
      simp only [forked]
      rw [hl, List.countP_append, List.countP_append, List.countP_cons]
      omega
  · -- an exit message of a task that is not registered changes nothing
    have hnone : e.pool.tid tid = none := hok.resolve_left hex
    have herase : e.processes.eraseP (fun x ↦ x.pid == pid && x.tid == tid) = e.processes := by
      apply List.eraseP_of_forall_not
      intro x hx hmatch
      apply hex
      simp only [Bool.and_eq_true, beq_iff_eq] at hmatch
      exact ⟨x, hx, hmatch⟩
    rw [herase]
    simp only [QueuePool.terminateTask, hnone]
    exact hinv

/-- Every step that meets the condition keeps the invariant. -/
theorem step_inv {a : EngineAction WI DOMNode} (hinv : Inv getInstanceID e) (hok : e.Guarded a)
    (hstep : e.step A getInstanceID a = some e') : Inv getInstanceID e' := by
  cases a with
  | enqueueTask queueName wi task => exact enqueueTask_inv hinv hok hstep
  | cancel id =>
    obtain rfl := Option.some.inj hstep
    exact cancel_inv hinv
  | cancelTasks id => exact cancelTasks_inv hinv hstep
  | dequeueTask => exact dequeueTask_inv hinv hstep
  | wakeUp => exact wakeUp_inv hinv hstep
  | executeTask => exact executeTask_inv hinv hok hstep
  | taskExecute known fork => exact taskExecute_inv hinv hstep
  | terminateFailed => exact terminateFailed_inv hinv hstep
  | gather pid tid => exact gather_inv hinv hok hstep

theorem mapM_create {rows : List (String × UInt32 × UInt32)} {queues : List (Queue WI DOMNode)}
    (h : (rows.mapM fun (name, row) ↦ Queue.create name (some row)) = .ok queues) :
    ∀ q ∈ queues, ∃ name id concurrency, q = Queue.fresh name id concurrency := by
  induction rows generalizing queues with
  | nil =>
    obtain rfl : [] = queues := by simpa [pure, Except.pure] using h
    simp
  | cons row rows ih =>
    simp only [List.mapM_cons, bind, Except.bind, pure, Except.pure] at h
    split at h
    · cases h
    · rename_i x hx
      split at h
      · cases h
      · rename_i xs hxs
        cases h
        intro q hq
        rcases List.mem_cons.mp hq with rfl | hq
        · unfold Queue.create at hx
          split at hx
          · cases hx
          · cases hx
            exact ⟨_, _, _, rfl⟩
        · exact ih hxs q hq

theorem mapM_length {rows : List (String × UInt32 × UInt32)} {queues : List (Queue WI DOMNode)}
    (h : (rows.mapM fun (name, row) ↦ Queue.create name (some row)) = .ok queues) :
    queues.length = rows.length := by
  induction rows generalizing queues with
  | nil =>
    cases h
    rfl
  | cons row rows ih =>
    simp only [List.mapM_cons, bind, Except.bind, pure, Except.pure] at h
    split at h
    · cases h
    · split at h
      · cases h
      · rename_i xs hxs
        cases h
        rw [List.length_cons, List.length_cons, ih hxs]

theorem create_eq {rows : List (String × UInt32 × UInt32)} {maxpid : Fin (2 ^ 31)}
    {pool : QueuePool WI DOMNode} (hcreate : QueuePool.create rows maxpid = .ok pool) :
    ∃ queue, (rows.mapM fun (name, row) ↦ Queue.create name (some row)) = .ok queue ∧
      pool = { name := rows.map Prod.fst, queue, tid := fun _ ↦ none, maxpid, lasttid := 0,
               forkLocked := false, forkPossible := !queue.all Queue.isLocked, forkSignal := false,
               isShuttingDown := false } := by
  unfold QueuePool.create at hcreate
  cases hmap : rows.mapM fun (name, row) ↦
      (Queue.create name (some row) : Except String (Queue WI DOMNode)) with
  | error msg =>
    rw [hmap] at hcreate
    cases hcreate
  | ok queue =>
    rw [hmap] at hcreate
    cases hcreate
    exact ⟨queue, rfl, rfl⟩

/-- There is one queue for each name. -/
theorem create_length {rows : List (String × UInt32 × UInt32)} {maxpid : Fin (2 ^ 31)}
    {pool : QueuePool WI DOMNode} (hcreate : QueuePool.create rows maxpid = .ok pool) :
    pool.queue.length = pool.name.length := by
  rcases create_eq hcreate with ⟨queue, hmap, heq⟩
  rw [heq]
  show queue.length = (rows.map Prod.fst).length
  rw [mapM_length hmap, List.length_map]

theorem create_lasttid {rows : List (String × UInt32 × UInt32)} {maxpid : Fin (2 ^ 31)}
    {pool : QueuePool WI DOMNode} (hcreate : QueuePool.create rows maxpid = .ok pool) :
    pool.lasttid = 0 := by
  rcases create_eq hcreate with ⟨queue, -, heq⟩
  rw [heq]

/-- Every queue of a pool that was created is a fresh one. -/
theorem create_queue {rows : List (String × UInt32 × UInt32)} {maxpid : Fin (2 ^ 31)}
    {pool : QueuePool WI DOMNode} (hcreate : QueuePool.create rows maxpid = .ok pool) :
    (∀ q ∈ pool.queue, ∃ name id concurrency, q = Queue.fresh name id concurrency) ∧
      ∀ t, pool.tid t = none := by
  rcases create_eq hcreate with ⟨queue, hmap, heq⟩
  rw [heq]
  exact ⟨mapM_create hmap, fun _ ↦ rfl⟩

theorem start_inv {rows : List (String × UInt32 × UInt32)} {maxpid : Fin (2 ^ 31)}
    {pool : QueuePool WI DOMNode} (hcreate : QueuePool.create rows maxpid = .ok pool) :
    Inv getInstanceID (start pool) := by
  rcases create_queue hcreate with ⟨hfresh, htid⟩
  refine ⟨?_, by simp [start], ?_, ?_⟩
  · intro i q hq
    rcases hfresh q (List.mem_of_getElem? hq) with ⟨name, id, concurrency, rfl⟩
    exact ⟨[], [], ⟨rfl, rfl, by simp [addrs]⟩, by simp, by simp⟩
  · refine ⟨by simp [held, start, Forker.held], ?_, by simp [held, start, Forker.held], ?_⟩
    · intro t i
      simp [held, start, Forker.held, htid]
    · intro i q hq
      rcases hfresh q (List.mem_of_getElem? hq) with ⟨name, id, concurrency, rfl⟩
      rfl
  · intro i q hq
    exact Nat.zero_le _

/-- No queue ever runs more tasks than its concurrency, as long as no task is enqueued while
`lastTask` is off the pending list, an identifier is free for every task that is registered and no
foreign exit message carries an identifier in use. -/
theorem withinLimits_of_guarded (A : Allocator (Task WI DOMNode)) (getInstanceID : WI → UInt32)
    (rows : List (String × UInt32 × UInt32)) (maxpid : Fin (2 ^ 31)) (pool : QueuePool WI DOMNode)
    (hcreate : QueuePool.create rows maxpid = .ok pool)
    (actions : List (EngineAction WI DOMNode))
    (hok : Meets (step A getInstanceID) Guarded (start pool) actions)
    (hrun : run (step A getInstanceID) (start pool) actions = some e) : e.WithinLimits := by
  have hinv : Inv getInstanceID e :=
    run_invariant (fun _ _ _ hinv hok hstep ↦ step_inv hinv hok hstep) (start_inv hcreate) hok hrun
  exact hinv.withinLimits

theorem guarded_of_empty {queueName : String} {wi : WI} {task : DOMNode}
    (h : ∀ q ∈ e.pool.queue, q.firstTask = none) : e.Guarded (.enqueueTask queueName wi task) := by
  intro i q ps cs _ hq hl
  have hnil : ps = [] := by
    by_contra hne
    have hsome := hl.pending_ne_nil.mp hne
    rw [h q (List.mem_of_getElem? hq)] at hsome
    cases hsome
  simp [Queue.Tracks, hnil]

theorem guarded_of_lists {queueName : String} {wi : WI} {task : DOMNode} {i : Nat}
    {q : Queue WI DOMNode} (ps cs : List (Addr × Task WI DOMNode))
    (hlookup : e.pool.lookup queueName = some i) (hq : e.pool.queue[i]? = some q)
    (hl : q.Lists ps cs) (ht : q.Tracks ps) : e.Guarded (.enqueueTask queueName wi task) := by
  intro i' q' ps' cs' hlookup' hq' hl'
  obtain rfl : i' = i := Option.some.inj (hlookup'.symm.trans hlookup)
  obtain rfl : q' = q := Option.some.inj (hq'.symm.trans hq)
  obtain ⟨rfl, -⟩ := hl'.unique hl
  exact ht

/-- At concurrency 2 two tasks of instance 1 run, task 20 is cancelled while the forker waits, and
tasks 30 and 31 come behind it.  Task 20 is taken past the limit and not forked, task 30 runs when the
first task has ended, and task 31 is left waiting. -/
def crowded : List (EngineAction UInt32 Nat) :=
  [.enqueueTask "default" 1 10, .enqueueTask "default" 1 11, .enqueueTask "default" 2 20,
    .enqueueTask "default" 3 30,
    .dequeueTask, .executeTask, .taskExecute true (some 100),
    .dequeueTask, .executeTask, .taskExecute true (some 101),
    .dequeueTask, .cancel 2, .cancelTasks 2, .enqueueTask "default" 3 31,
    .wakeUp, .executeTask, .taskExecute true none, .terminateFailed,
    .gather 100 1, .dequeueTask, .executeTask, .taskExecute true (some 102), .dequeueTask]

/-- `crowded` keeps to the condition: at each enqueue `lastTask` is on the last pending cell, also
behind the cancelled one. -/
theorem withinLimits_crowded :
    ∃ (pool : QueuePool UInt32 Nat) (e : Engine UInt32 Nat),
      QueuePool.create [("default", 1, 2)] 8 = .ok pool ∧
      run (step (Allocator.bump (Task UInt32 Nat)) id) (start pool) crowded = some e ∧
      e.forked 0 = 2 ∧ e.WithinLimits := by
  refine ⟨_, _, rfl, rfl, rfl, ?_⟩
  apply withinLimits_of_guarded (Allocator.bump (Task UInt32 Nat)) id [("default", 1, 2)] 8 _ rfl
    crowded ?_ rfl
  -- four tasks come while nothing runs
  refine .cons (guarded_of_empty (by decide)) rfl ?_
  refine .cons (guarded_of_lists [(1, ⟨1, 10⟩)] [] rfl rfl
    ⟨⟨rfl, _, rfl, rfl⟩, rfl, List.disjoint_nil_right _⟩ (by rintro _ ⟨⟩; rfl)) rfl ?_
  refine .cons (guarded_of_lists [(1, ⟨1, 10⟩), (2, ⟨1, 11⟩)] [] rfl rfl
    ⟨⟨rfl, _, rfl, rfl, _, rfl, rfl⟩, rfl, List.disjoint_nil_right _⟩ (by rintro _ ⟨⟩; rfl)) rfl ?_
  refine .cons (guarded_of_lists [(1, ⟨1, 10⟩), (2, ⟨1, 11⟩), (3, ⟨2, 20⟩)] [] rfl rfl
    ⟨⟨rfl, _, rfl, rfl, _, rfl, rfl, _, rfl, rfl⟩, rfl, List.disjoint_nil_right _⟩
    (by rintro _ ⟨⟩; rfl)) rfl ?_
  -- tasks 10 and 11 are forked
  refine .cons trivial rfl ?_
  refine .cons (show QueuePool.freeTid _ ≠ none by decide) rfl ?_
  refine .cons trivial rfl ?_
  refine .cons trivial rfl ?_
  refine .cons (show QueuePool.freeTid _ ≠ none by decide) rfl ?_
  refine .cons trivial rfl ?_
  -- the forker waits, instance 2 is cancelled and task 31 comes
  refine .cons trivial rfl ?_
  refine .cons trivial rfl ?_
  refine .cons trivial rfl ?_
  refine .cons (guarded_of_lists [(4, ⟨3, 30⟩)] [(3, ⟨2, 20⟩)] rfl rfl
    ⟨⟨rfl, _, rfl, rfl⟩, ⟨rfl, _, rfl, rfl⟩, List.disjoint_left.mpr (by decide)⟩
    (by rintro _ ⟨⟩; rfl)) rfl ?_
  -- task 20 is taken and its identifier given back
  refine .cons trivial rfl ?_
  refine .cons (show QueuePool.freeTid _ ≠ none by decide) rfl ?_
  refine .cons trivial rfl ?_
  refine .cons trivial rfl ?_
  -- task 10 ends and task 30 is forked
  refine .cons (.inl (by decide)) rfl ?_
  refine .cons trivial rfl ?_
  refine .cons (show QueuePool.freeTid _ ≠ none by decide) rfl ?_
  refine .cons trivial rfl ?_
  exact .cons trivial rfl trivial

/-- Behind the cancelled task 20, which `lastTask` still points to, tasks 30 and 31 are enqueued.
They leave the queue like cancelled tasks, past its concurrency, but their instance runs. -/
theorem two_forked_at_concurrency_one :
    ∃ (pool : QueuePool UInt32 Nat) (e : Engine UInt32 Nat),
      QueuePool.create [("default", 1, 1)] 8 = .ok pool ∧
      run (step (Allocator.bump (Task UInt32 Nat)) id) (start pool)
        [.enqueueTask "default" 1 10, .enqueueTask "default" 2 20, .cancel 2, .cancelTasks 2,
          .enqueueTask "default" 3 30, .enqueueTask "default" 3 31,
          .dequeueTask, .executeTask, .taskExecute true none, .terminateFailed,
          .dequeueTask, .executeTask, .taskExecute true (some 100),
          .dequeueTask, .executeTask, .taskExecute true (some 101)] = some e ∧
      ¬ e.WithinLimits := by
  refine ⟨_, _, rfl, rfl, ?_⟩
  intro h
  have hle := h 0 _ rfl
  exact absurd hle (by decide)

end Engine

end EvQueue
