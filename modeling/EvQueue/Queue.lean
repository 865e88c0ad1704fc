import Mathlib.Algebra.Group.Nat.Defs
import Mathlib.Tactic.Common
import EvQueue.Base.Cells

/-!
# Queue — the task queue as the engine keeps it

`Queue` holds two null-terminated lists of `Task` cells, the pending one behind `firstTask` and the
cancelled one behind `cancelledTasks`, a tail pointer `lastTask` and two unsigned counters.  The
operations below do what `Queue.cpp` does, pointer write by pointer write.  `none` is undefined
behaviour: a null pointer or a released cell is followed.
-/

namespace EvQueue

open Cells

def queueNameMaxLen : Nat := 64

/-- The payload of `Queue::Task`; its `next_task` is the cell's `next`. -/
structure Task (WI DOMNode : Type) where
  workflowInstance : WI
  task : DOMNode
deriving DecidableEq, Repr

structure Queue (WI DOMNode : Type) where
  name : String
  id : UInt32
  concurrency : UInt32
  size : UInt32
  runningTasks : UInt32
  firstTask : Option Addr
  lastTask : Option Addr
  cancelledTasks : Option Addr
  heap : Heap (Task WI DOMNode)
deriving DecidableEq, Repr

namespace Queue

variable {WI DOMNode : Type}

/-- `isalnum` of the C locale. -/
def isAlnum (c : Char) : Bool := c.isAlphanum

def checkQueueName (queueName : String) : Bool :=
  if queueName.utf8ByteSize > queueNameMaxLen then false
  else queueName.toList.all fun c ↦ !(!isAlnum c && c != '_' && c != '-')

def fresh (name : String) (id concurrency : UInt32) : Queue WI DOMNode :=
  { name, id, concurrency, size := 0, runningTasks := 0, firstTask := none, lastTask := none,
    cancelledTasks := none, heap := [] }

/-- The constructor; `row` is what `t_queue` holds for the name: its id and its concurrency. -/
def create (name : String) (row : Option (UInt32 × UInt32)) : Except String (Queue WI DOMNode) :=
  if !checkQueueName name then .error "Invalid queue name"
  else match row with
    | none => .error "Unknown queue"
    | some (id, concurrency) => .ok (fresh name id concurrency)

def enqueueTask (A : Allocator (Task WI DOMNode)) (q : Queue WI DOMNode) (workflowInstance : WI)
    (task : DOMNode) : Option (Queue WI DOMNode) :=
  let newTask := A.new q.heap
  let heap := q.heap.write newTask ⟨⟨workflowInstance, task⟩, none⟩
  match q.firstTask with
  | none =>
      some { q with heap, lastTask := some newTask, firstTask := some newTask, size := q.size + 1 }
  | some _ =>
      q.lastTask.bind fun lastTask ↦
        (heap.setNext lastTask (some newTask)).map fun heap ↦
          { q with heap, lastTask := some newTask, size := q.size + 1 }

/-- Cancelled tasks are always returned, new ones only while the concurrency is not reached. -/
def isLocked (q : Queue WI DOMNode) : Bool :=
  if q.cancelledTasks.isSome then false
  else if q.size > 0 && q.runningTasks < q.concurrency then false
  else true

/-- The task taken, if the queue is not locked, and the queue after it. -/
def dequeueTask (q : Queue WI DOMNode) :
    Option (Option (Task WI DOMNode) × Queue WI DOMNode) :=
  if q.isLocked then some (none, q)
  else match q.cancelledTasks with
    | some tmp =>
        (q.heap.read tmp).map fun cell ↦
          (some cell.val, { q with cancelledTasks := cell.next, heap := q.heap.free tmp })
    | none =>
        q.firstTask.bind fun tmp ↦ (q.heap.read tmp).map fun cell ↦
          (some cell.val,
            { q with firstTask := cell.next, size := q.size - 1, heap := q.heap.free tmp })

def executeTask (q : Queue WI DOMNode) : Queue WI DOMNode :=
  { q with runningTasks := q.runningTasks + 1 }

def terminateTask (q : Queue WI DOMNode) : Queue WI DOMNode :=
  { q with runningTasks := q.runningTasks - 1 }

/-- The loop of `CancelTasks`: `task` is the `Task **` that walks along the pending list. -/
def cancelLoop (getInstanceID : WI → UInt32) (workflowInstanceId : UInt32) :
    Nat → Link → Queue WI DOMNode → Option (Queue WI DOMNode)
  | 0, _, _ => none
  | fuel + 1, task, q =>
      (task.read q.heap q.firstTask).bind fun
      | none => some q
      | some tmp =>
          (q.heap.read tmp).bind fun cell ↦
            if getInstanceID cell.val.workflowInstance = workflowInstanceId then
              (task.write q.heap q.firstTask cell.next).bind fun (heap, firstTask) ↦
                (heap.setNext tmp q.cancelledTasks).bind fun heap ↦
                  cancelLoop getInstanceID workflowInstanceId fuel task
                    { q with heap, firstTask, cancelledTasks := some tmp, size := q.size - 1 }
            else cancelLoop getInstanceID workflowInstanceId fuel (.next tmp) q

/-- A scan visits each allocated cell at most once, unless the list has become cyclic, in which
case it does not return. -/
def cancelTasks (getInstanceID : WI → UInt32) (q : Queue WI DOMNode) (workflowInstanceId : UInt32) :
    Option (Queue WI DOMNode) :=
  cancelLoop getInstanceID workflowInstanceId (q.heap.length + 1) .head q

/-! ## The two lists -/

/-- `ps` and `cs` are the cells behind `firstTask` and `cancelledTasks`, and no cell is in both. -/
structure Lists (q : Queue WI DOMNode) (ps cs : List (Addr × Task WI DOMNode)) : Prop where
  pending : Chain q.heap q.firstTask ps
  cancelled : Chain q.heap q.cancelledTasks cs
  disjoint : (addrs ps).Disjoint (addrs cs)

/-- The tail pointer is right: `lastTask` is the last pending cell when there is one. -/
def Tracks (q : Queue WI DOMNode) (ps : List (Addr × Task WI DOMNode)) : Prop :=
  ∀ e, ps.getLast? = some e → q.lastTask = some e.1

/-- The fields that no list operation touches. -/
structure SameLimits (q q' : Queue WI DOMNode) : Prop where
  name : q'.name = q.name
  concurrency : q'.concurrency = q.concurrency
  runningTasks : q'.runningTasks = q.runningTasks

section Operations

variable {q q' : Queue WI DOMNode} {ps cs : List (Addr × Task WI DOMNode)}
  {getInstanceID : WI → UInt32}

theorem Lists.unique {ps' cs' : List (Addr × Task WI DOMNode)} (hl : q.Lists ps cs)
    (hl' : q.Lists ps' cs') : ps = ps' ∧ cs = cs' :=
  ⟨hl.pending.unique hl'.pending, hl.cancelled.unique hl'.cancelled⟩

theorem Lists.pending_ne_nil (hl : q.Lists ps cs) : ps ≠ [] ↔ q.firstTask.isSome := by
  cases ps with
  | nil =>
    have hnone : q.firstTask = none := hl.pending
    simp [hnone]
  | cons e ps =>
    have hsome : q.firstTask = some e.1 := hl.pending.1
    simp [hsome]

theorem Lists.cancelled_ne_nil (hl : q.Lists ps cs) : cs ≠ [] ↔ q.cancelledTasks.isSome := by
  cases cs with
  | nil =>
    have hnone : q.cancelledTasks = none := hl.cancelled
    simp [hnone]
  | cons e cs =>
    have hsome : q.cancelledTasks = some e.1 := hl.cancelled.1
    simp [hsome]

/-- `EnqueueTask` appends one cell to the pending list, provided the tail pointer is right. -/
theorem enqueueTask_lists (A : Allocator (Task WI DOMNode)) (wi : WI) (task : DOMNode)
    (hl : q.Lists ps cs) (ht : q.Tracks ps) :
    ∃ q' b, q.enqueueTask A wi task = some q' ∧ q'.Lists (ps ++ [(b, ⟨wi, task⟩)]) cs ∧
      q'.lastTask = some b ∧ q'.size = q.size + 1 ∧ SameLimits q q' := by
  have hfresh := A.fresh q.heap
  have hpend := Seg.not_mem_of_fresh hl.pending hfresh
  have hcanc := Seg.not_mem_of_fresh hl.cancelled hfresh
  have hdisj : (addrs (ps ++ [(A.new q.heap, (⟨wi, task⟩ : Task WI DOMNode))])).Disjoint
      (addrs cs) := by
    rw [addrs, List.map_append, List.disjoint_append_left]
    exact ⟨hl.disjoint, by simpa using hcanc⟩
  rcases List.eq_nil_or_concat ps with rfl | ⟨ps, ⟨a, v⟩, rfl⟩
  · have hfirst : q.firstTask = none := hl.pending
    refine ⟨{ q with
      heap := q.heap.write (A.new q.heap) ⟨⟨wi, task⟩, none⟩, lastTask := some (A.new q.heap),
      firstTask := some (A.new q.heap), size := q.size + 1 }, A.new q.heap,
      by simp [enqueueTask, hfirst], ⟨?_, ?_, hdisj⟩, rfl, rfl, ⟨rfl, rfl, rfl⟩⟩
    · exact ⟨rfl, none, by simp, rfl⟩
    · exact hl.cancelled.write _ hcanc
  · rw [List.concat_eq_append] at *
    have hlast : q.lastTask = some a := ht (a, v) (by simp)
    obtain ⟨r, -, -, n, hcell, -⟩ := seg_append.mp hl.pending
    have hsome := hl.pending_ne_nil.mp (by simp)
    obtain ⟨f, hfirst⟩ := Option.isSome_iff_exists.mp hsome
    have hne : a ≠ A.new q.heap := fun h ↦ hpend (by simp [h])
    have ha : a ∉ addrs cs := fun hin ↦ hl.disjoint (by simp) hin
    have hset := Heap.setNext_eq_some (h := q.heap.write (A.new q.heap) ⟨⟨wi, task⟩, none⟩)
      (some (A.new q.heap)) ((Heap.read_write_of_ne _ _ hne).trans hcell)
    refine ⟨{ q with
      heap := (q.heap.write (A.new q.heap) ⟨⟨wi, task⟩, none⟩).write a ⟨v, some (A.new q.heap)⟩,
      lastTask := some (A.new q.heap), size := q.size + 1 }, A.new q.heap, ?_, ⟨?_, ?_, hdisj⟩,
      rfl, rfl, ⟨rfl, rfl, rfl⟩⟩
    · rw [enqueueTask, hfirst, hlast]
      simp [hset]
    · simpa using Chain.push hl.pending hfresh
    · exact (hl.cancelled.write _ hcanc).write _ ha

/-- `DequeueTask` on a locked queue gives nothing. -/
theorem dequeueTask_locked (hlock : q.isLocked) : q.dequeueTask = some (none, q) := by
  rw [dequeueTask, if_pos hlock]

/-- A queue that hands nothing out is not changed. -/
theorem dequeueTask_none (h : q.dequeueTask = some (none, q')) : q' = q := by
  unfold dequeueTask at h
  split at h
  · exact (Prod.mk.inj (Option.some.inj h)).2.symm
  · split at h
    · obtain ⟨_, _, h⟩ := Option.map_eq_some_iff.mp h
      cases (Prod.mk.inj h).1
    · obtain ⟨_, _, h⟩ := Option.bind_eq_some_iff.mp h
      obtain ⟨_, _, h⟩ := Option.map_eq_some_iff.mp h
      cases (Prod.mk.inj h).1

/-- A cancelled task is handed out first, whatever the concurrency. -/
theorem dequeueTask_cancelled {c : Addr × Task WI DOMNode} (hl : q.Lists ps (c :: cs)) :
    ∃ q', q.dequeueTask = some (some c.2, q') ∧ q'.Lists ps cs ∧ q'.lastTask = q.lastTask ∧
      q'.size = q.size ∧ SameLimits q q' := by
  obtain ⟨hc, n, hcell, hrest⟩ := hl.cancelled
  have hnd := hl.cancelled.nodup
  have hlock : q.isLocked = false := by simp [isLocked, hc]
  refine ⟨{ q with cancelledTasks := n, heap := q.heap.free c.1 }, ?_, ⟨?_, ?_, ?_⟩,
    rfl, rfl, ⟨rfl, rfl, rfl⟩⟩
  · rw [dequeueTask, hlock, hc]
    simp [hcell]
  · exact hl.pending.free fun hin ↦ hl.disjoint hin (by simp)
  · exact hrest.free (List.nodup_cons.mp hnd).1
  · exact fun a ha hb ↦ hl.disjoint ha (by simp [hb])

/-- Without a cancelled task the oldest pending one is handed out. -/
theorem dequeueTask_pending {e : Addr × Task WI DOMNode} (hl : q.Lists (e :: ps) [])
    (hlock : q.isLocked = false) :
    ∃ q', q.dequeueTask = some (some e.2, q') ∧ q'.Lists ps [] ∧ q'.lastTask = q.lastTask ∧
      q'.size = q.size - 1 ∧ SameLimits q q' := by
  obtain ⟨he, n, hcell, hrest⟩ := hl.pending
  have hnd := hl.pending.nodup
  have hc : q.cancelledTasks = none := hl.cancelled
  refine ⟨{ q with firstTask := n, size := q.size - 1, heap := q.heap.free e.1 }, ?_,
    ⟨?_, ?_, ?_⟩, rfl, rfl, ⟨rfl, rfl, rfl⟩⟩
  · rw [dequeueTask, hlock, hc, he]
    simp [hcell]
  · exact hrest.free (List.nodup_cons.mp hnd).1
  · exact hc
  · simp

/-- Does the task belong to the instance that is being cancelled? -/
def hit (getInstanceID : WI → UInt32) (workflowInstanceId : UInt32) (t : Task WI DOMNode) : Bool :=
  decide (getInstanceID t.workflowInstance = workflowInstanceId)

/-- The cells that a cancel leaves on the pending list. -/
def kept (getInstanceID : WI → UInt32) (id : UInt32) (l : List (Addr × Task WI DOMNode)) :
    List (Addr × Task WI DOMNode) := l.filter fun e ↦ !hit getInstanceID id e.2

/-- The cells that a cancel moves, the last one first, as the cancelled list is a stack. -/
def moved (getInstanceID : WI → UInt32) (id : UInt32) (l : List (Addr × Task WI DOMNode)) :
    List (Addr × Task WI DOMNode) := (l.filter fun e ↦ hit getInstanceID id e.2).reverse

/-- One relinking step of the scan: the cell behind the kept prefix goes onto the cancelled stack. -/
theorem unlink_lists {ks l : List (Addr × Task WI DOMNode)} {e : Addr × Task WI DOMNode}
    (hl : q.Lists (ks ++ e :: l) cs) :
    ∃ n h₁ first h₂, (Link.after ks).read q.heap q.firstTask = some (some e.1) ∧
      q.heap.read e.1 = some ⟨e.2, n⟩ ∧
      (Link.after ks).write q.heap q.firstTask n = some (h₁, first) ∧
      h₁.setNext e.1 q.cancelledTasks = some h₂ ∧
      Lists { q with heap := h₂, firstTask := first, cancelledTasks := some e.1, size := q.size - 1 }
        (ks ++ l) (e :: cs) := by
  have hnd := hl.pending.nodup
  simp only [addrs, List.map_append, List.map_cons, List.nodup_append, List.nodup_cons] at hnd
  obtain ⟨hks, ⟨hel, -⟩, hcross⟩ := hnd
  have heks : e.1 ∉ addrs ks := fun hin ↦ hcross _ hin _ (by simp) rfl
  have hecs : e.1 ∉ addrs cs := fun hin ↦ hl.disjoint (by simp) hin
  obtain ⟨p, hfront, hrest⟩ := Chain.suffix hl.pending
  obtain ⟨rfl, n, hcell, hback⟩ := hrest
  obtain ⟨h₁, first, hwrite, hseg, hframe⟩ := Link.write_after hfront hks n
  have hcell₁ : h₁.read e.1 = some ⟨e.2, n⟩ := by rw [hframe _ heks, hcell]
  refine ⟨n, h₁, first, h₁.write e.1 ⟨e.2, q.cancelledTasks⟩, Link.read_after hfront, hcell, hwrite,
    Heap.setNext_eq_some _ hcell₁, ⟨?_, ?_, ?_⟩⟩
  · refine seg_append.mpr ⟨n, hseg.write _ heks, ?_⟩
    have hback₁ : Seg h₁ n l none := hback.congr fun a ha ↦
      hframe a fun hin ↦ hcross _ hin _ (List.mem_cons_of_mem _ ha) rfl
    exact hback₁.write _ hel
  · refine ⟨rfl, q.cancelledTasks, by simp, ?_⟩
    have hcs₁ : Seg h₁ q.cancelledTasks cs none := hl.cancelled.congr fun a ha ↦
      hframe a fun hin ↦ hl.disjoint (by simp [addrs, hin]) ha
    exact hcs₁.write _ hecs
  · intro a ha hb
    simp only [addrs, List.map_append, List.mem_append] at ha
    rcases List.mem_cons.mp hb with rfl | hb
    · exact ha.elim heks hel
    · refine hl.disjoint ?_ hb
      rcases ha with ha | ha <;> simp [addrs, ha]

/-- The scan from behind the kept prefix `ks`, by induction on the cells still ahead of it. -/
theorem cancelLoop_lists {id : UInt32} {fuel : Nat} {ks l : List (Addr × Task WI DOMNode)}
    (hl : q.Lists (ks ++ l) cs) (hfuel : l.length < fuel) :
    ∃ q', cancelLoop getInstanceID id fuel (Link.after ks) q = some q' ∧
      q'.Lists (ks ++ kept getInstanceID id l) (moved getInstanceID id l ++ cs) ∧
      q'.lastTask = q.lastTask ∧ q'.size = q.size - UInt32.ofNat (moved getInstanceID id l).length ∧
      SameLimits q q' := by
  induction l generalizing fuel ks cs q with
  | nil =>
    obtain ⟨fuel, rfl⟩ := Nat.exists_eq_succ_of_ne_zero (Nat.ne_of_gt hfuel)
    obtain ⟨p, hfront, hend⟩ := Chain.suffix hl.pending
    obtain rfl : p = none := hend
    refine ⟨q, ?_, by simpa [kept, moved] using hl, rfl, by simp [moved], ⟨rfl, rfl, rfl⟩⟩
    rw [cancelLoop, Link.read_after hfront]
    rfl
  | cons e l ih =>
    obtain ⟨fuel, rfl⟩ := Nat.exists_eq_succ_of_ne_zero (Nat.ne_of_gt (Nat.zero_lt_of_lt hfuel))
    have hfuel' : l.length < fuel := Nat.lt_of_succ_lt_succ hfuel
    obtain ⟨n, h₁, first, h₂, hread, hcell, hwrite, hset, hnext⟩ := unlink_lists hl
    by_cases hhit : getInstanceID e.2.workflowInstance = id
    · obtain ⟨q', hloop, hlists, hlast, hsize, hlim⟩ := ih hnext hfuel'
      refine ⟨q', ?_, ?_, hlast, ?_, ⟨hlim.name, hlim.concurrency, hlim.runningTasks⟩⟩
      · rw [cancelLoop, hread]
        simpa [hcell, hhit, hwrite, hset] using hloop
      · simpa [kept, moved, hit, hhit] using hlists
      · rw [hsize]
        simp only [moved, hit, hhit, List.filter_cons, decide_true, if_true, List.length_reverse,
          List.length_cons, UInt32.ofNat_add]
        grind
    · obtain ⟨q', hloop, hlists, hlast, hsize, hlim⟩ := ih (by simpa using hl : q.Lists ((ks ++ [e]) ++ l) cs) hfuel'
      refine ⟨q', ?_, ?_, hlast, ?_, hlim⟩
      · rw [cancelLoop, hread]
        simpa [hcell, hhit] using hloop
      · simpa [kept, moved, hit, hhit] using hlists
      · simpa [moved, hit, hhit] using hsize

/-- `CancelTasks` moves exactly the tasks of the instance and keeps the order of the others.  It does
not look at `lastTask`. -/
theorem cancelTasks_lists (getInstanceID : WI → UInt32) (id : UInt32) (hl : q.Lists ps cs) :
    ∃ q', q.cancelTasks getInstanceID id = some q' ∧
      q'.Lists (kept getInstanceID id ps) (moved getInstanceID id ps ++ cs) ∧
      q'.lastTask = q.lastTask ∧
      q'.size = q.size - UInt32.ofNat (moved getInstanceID id ps).length ∧ SameLimits q q' := by
  have hlen := hl.pending.length_le
  have hl' : q.Lists ([] ++ ps) cs := hl
  exact cancelLoop_lists hl' (Nat.lt_succ_of_le hlen)

end Operations

end Queue

end EvQueue
