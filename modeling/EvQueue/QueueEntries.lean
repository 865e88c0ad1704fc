import Mathlib.Data.List.Perm.Subperm
import EvQueue.QueuePool

/-!
# QueueEntries — what the queues hold, wherever their tail pointers point

A cancelled cell may still be what `lastTask` points to, and the next task is then linked behind it: the
cancelled list is cut there, and the task is not on the pending one.  What the lists hold therefore never
grows by more than the task that is enqueued, and the pending list by nothing else.
-/

namespace EvQueue

open Cells

namespace Queue

variable {WI DOMNode : Type} {q q' : Queue WI DOMNode} {ps cs : List (Addr × Task WI DOMNode)}

/-- The lists are well formed, and `lastTask` is the last pending cell or none of them. -/
structure Holds (q : Queue WI DOMNode) (ps cs : List (Addr × Task WI DOMNode)) : Prop where
  lists : q.Lists ps cs
  tail : q.Tracks ps ∨ ∀ a, q.lastTask = some a → a ∉ addrs ps

/-- What both lists hold. -/
def payloads (ps cs : List (Addr × Task WI DOMNode)) : List (Task WI DOMNode) :=
  (ps ++ cs).map Prod.snd

theorem holds_fresh (name : String) (id concurrency : UInt32) :
    Holds (fresh name id concurrency : Queue WI DOMNode) [] [] where
  lists := ⟨rfl, rfl, by simp⟩
  tail := .inl (by simp [Tracks])

/-- The task is linked behind a cell that is not pending. -/
theorem enqueueTask_astray {A : Allocator (Task WI DOMNode)} {wi : WI} {task : DOMNode} {f : Addr}
    (hl : q.Lists ps cs) (hfirst : q.firstTask = some f)
    (htail : ∀ a, q.lastTask = some a → a ∉ addrs ps) (h : q.enqueueTask A wi task = some q') :
    ∃ cs', q'.Holds ps cs' ∧ (payloads ps cs').Subperm (⟨wi, task⟩ :: payloads ps cs) := by
  have hfresh := A.fresh q.heap
  have hpending := Seg.not_mem_of_fresh hl.pending hfresh
  have hcancelled := Seg.not_mem_of_fresh hl.cancelled hfresh
  unfold enqueueTask at h
  simp only [hfirst] at h
  rcases Option.bind_eq_some_iff.mp h with ⟨a, hlast, h⟩
  rcases Option.map_eq_some_iff.mp h with ⟨heap, hset, heq⟩
  rcases Option.map_eq_some_iff.mp hset with ⟨cell, hcell, hheap⟩
  subst heq hheap
  have hps := htail a hlast
  -- the pending list is not written to, and `lastTask` stays off it
  have hsame := (hl.pending.write ⟨⟨wi, task⟩, none⟩ hpending).write
    ⟨cell.val, some (A.new q.heap)⟩ hps
  rw [hfirst] at hsame
  have htail' (b : Addr) (hb : some (A.new q.heap) = some b) : b ∉ addrs ps := by
    rw [← Option.some.inj hb]
    exact hpending
  by_cases hin : a ∈ addrs cs
  · -- the cancelled list is cut behind the cell
    rcases List.mem_map.mp hin with ⟨⟨x, v⟩, he, hxa⟩
    have hxa : x = a := hxa
    subst hxa
    rcases List.append_of_mem he with ⟨front, back, hcs⟩
    have hchain := hl.cancelled
    have hdisjoint := hl.disjoint
    rw [hcs] at hchain hdisjoint ⊢
    rcases seg_append.mp hchain with ⟨r, -, -, n, hread, -⟩
    have hne : x ≠ A.new q.heap := by
      intro hx
      rw [hx, hfresh] at hread
      cases hread
    rw [Heap.read_write_of_ne _ _ hne, hread, Option.some.injEq] at hcell
    refine ⟨front ++ [(x, v), (A.new q.heap, ⟨wi, task⟩)], ⟨⟨hsame, ?_, ?_⟩, .inr htail'⟩, ?_⟩
    · rw [← hcell]
      exact Chain.cut hchain hfresh
    · intro b hb hb'
      simp only [addrs, List.map_append, List.map_cons, List.map_nil, List.mem_append, List.mem_cons,
        List.not_mem_nil, or_false] at hb'
      rcases hb' with hb' | hb' | hb'
      · exact hdisjoint hb (by simp [addrs, hb'])
      · exact hdisjoint hb (by simp [addrs, hb'])
      · rw [hb'] at hb
        exact hpending hb
    · unfold payloads
      simp only [List.map_append, List.map_cons, List.map_nil]
      have hperm : (ps.map Prod.snd ++ (front.map Prod.snd ++ [v, ⟨wi, task⟩])).Perm
          (⟨wi, task⟩ :: (ps.map Prod.snd ++ (front.map Prod.snd ++ [v]))) := by
        have hlast := List.perm_append_singleton (⟨wi, task⟩ : Task WI DOMNode)
          (ps.map Prod.snd ++ (front.map Prod.snd ++ [v]))
        simpa using hlast
      apply hperm.subperm.trans
      apply List.Sublist.subperm
      apply List.Sublist.cons_cons
      apply List.Sublist.append_left
      apply List.Sublist.append_left
      exact List.Sublist.cons_cons _ (List.nil_sublist _)
  · refine ⟨cs, ⟨⟨hsame, ?_, hl.disjoint⟩, .inr htail'⟩, ?_⟩
    · exact (hl.cancelled.write _ hcancelled).write _ hin
    · exact (List.sublist_cons_self _ _).subperm

/-- The pending list is at most extended by the task. -/
theorem Holds.enqueueTask {A : Allocator (Task WI DOMNode)} {wi : WI} {task : DOMNode}
    (hq : q.Holds ps cs) (h : q.enqueueTask A wi task = some q') :
    ∃ ps' cs', q'.Holds ps' cs' ∧ (payloads ps' cs').Subperm (⟨wi, task⟩ :: payloads ps cs) ∧
      ∀ e ∈ ps', e ∈ ps ∨ e.2 = ⟨wi, task⟩ := by
  by_cases htracks : q.Tracks ps
  · rcases enqueueTask_lists A wi task hq.lists htracks with ⟨q'', b, heq, hl, hlast, -⟩
    rw [h, Option.some.injEq] at heq
    subst heq
    refine ⟨ps ++ [(b, ⟨wi, task⟩)], cs, ⟨hl, .inl ?_⟩, ?_, ?_⟩
    · intro e he
      rw [List.getLast?_concat, Option.some.injEq] at he
      rw [hlast, ← he]
    · apply List.Perm.subperm
      unfold payloads
      simp only [List.map_append, List.map_cons, List.append_assoc, List.singleton_append]
      exact List.perm_middle
    · intro e he
      rcases List.mem_append.mp he with he | he
      · exact .inl he
      · rw [List.mem_singleton.mp he]
        exact .inr rfl
  · have hne : ps ≠ [] := by
      intro hnil
      apply htracks
      simp [Tracks, hnil]
    rcases Option.isSome_iff_exists.mp (hq.lists.pending_ne_nil.mp hne) with ⟨f, hfirst⟩
    rcases enqueueTask_astray hq.lists hfirst (hq.tail.resolve_left htracks) h with ⟨cs', hq', hsub⟩
    exact ⟨ps, cs', hq', hsub, fun e he ↦ .inl he⟩

/-- A task leaves one of the lists. -/
theorem Holds.dequeueTask {t : Task WI DOMNode} (hq : q.Holds ps cs)
    (h : q.dequeueTask = some (some t, q')) :
    ∃ ps' cs', q'.Holds ps' cs' ∧ (t :: payloads ps' cs').Perm (payloads ps cs) ∧
      ∀ e ∈ ps', e ∈ ps := by
  cases cs with
  | cons c cs =>
    rcases dequeueTask_cancelled hq.lists with ⟨q'', heq, hl, hlast, -⟩
    rw [h, Option.some.injEq, Prod.mk.injEq, Option.some.injEq] at heq
    rw [heq.1, heq.2]
    refine ⟨ps, cs, ⟨hl, ?_⟩, ?_, fun e he ↦ he⟩
    · unfold Tracks
      rw [hlast]
      exact hq.tail
    · unfold payloads
      rw [List.map_append, List.map_append, List.map_cons]
      exact List.perm_middle.symm
  | nil =>
    have hlock : q.isLocked = false := by
      by_contra hlock
      rw [Bool.not_eq_false] at hlock
      rw [dequeueTask_locked hlock] at h
      cases h
    cases ps with
    | nil =>
      have hfirst : q.firstTask = none := hq.lists.pending
      have hcancelled : q.cancelledTasks = none := hq.lists.cancelled
      unfold Queue.dequeueTask at h
      simp [hlock, hfirst, hcancelled] at h
    | cons e ps =>
      rcases dequeueTask_pending hq.lists hlock with ⟨q'', heq, hl, hlast, -⟩
      rw [h, Option.some.injEq, Prod.mk.injEq, Option.some.injEq] at heq
      rw [heq.1, heq.2]
      refine ⟨ps, [], ⟨hl, ?_⟩, List.Perm.refl _, fun x hx ↦ List.mem_cons_of_mem _ hx⟩
      unfold Tracks
      rw [hlast]
      rcases hq.tail with htracks | hout
      · apply Or.inl
        intro x hx
        apply htracks
        rw [List.getLast?_cons, hx, Option.getD_some]
      · exact .inr fun a ha hin ↦ hout a ha (List.mem_cons_of_mem _ hin)

/-- The tasks of the instance move, and none of them is pending any more. -/
theorem Holds.cancelTasks {getInstanceID : WI → UInt32} {id : UInt32} (hq : q.Holds ps cs)
    (h : q.cancelTasks getInstanceID id = some q') :
    ∃ ps' cs', q'.Holds ps' cs' ∧ (payloads ps' cs').Perm (payloads ps cs) ∧
      ∀ e ∈ ps', e ∈ ps ∧ getInstanceID e.2.workflowInstance ≠ id := by
  rcases cancelTasks_lists getInstanceID id hq.lists with ⟨q'', heq, hl, hlast, -⟩
  rw [h, Option.some.injEq] at heq
  subst heq
  refine ⟨kept getInstanceID id ps, moved getInstanceID id ps ++ cs, ⟨hl, ?_⟩, ?_, ?_⟩
  · have hnodup := hq.lists.pending.nodup
    have hsub (a : Addr) (ha : a ∈ addrs (kept getInstanceID id ps)) : a ∈ addrs ps :=
      (List.filter_sublist.map _).subset ha
    unfold Tracks
    rw [hlast]
    rcases hq.tail with htracks | hout
    · rcases List.eq_nil_or_concat ps with hnil | ⟨front, e, hps⟩
      · left
        simp [hnil, kept]
      · rw [List.concat_eq_append] at hps
        subst hps
        have hlast' : q.lastTask = some e.1 := htracks e (by simp)
        by_cases hhit : hit getInstanceID id e.2 = true
        · -- the last task is moved: `lastTask` points to a cancelled cell now
          right
          intro a ha hin
          rw [hlast', Option.some.injEq] at ha
          have hkept : kept getInstanceID id (front ++ [e]) = kept getInstanceID id front := by
            simp [kept, hhit]
          rw [hkept, ← ha] at hin
          simp only [addrs, List.map_append, List.nodup_append] at hnodup
          have hfront : e.1 ∈ front.map Prod.fst := (List.filter_sublist.map _).subset hin
          exact hnodup.2.2 _ hfront e.1 (by simp) rfl
        · left
          have hkept : kept getInstanceID id (front ++ [e]) = kept getInstanceID id front ++ [e] := by
            simp [kept, hhit]
          rw [hkept]
          intro x hx
          rw [List.getLast?_concat, Option.some.injEq] at hx
          rw [hlast', hx]
    · exact .inr fun a ha hin ↦ hout a ha (hsub a hin)
  · unfold payloads kept moved
    apply List.Perm.map
    rw [← List.append_assoc]
    apply List.Perm.append_right
    apply (List.Perm.append_left _ (List.reverse_perm _)).trans
    have hperm := List.filter_append_perm (fun e : Addr × Task WI DOMNode ↦ !hit getInstanceID id e.2) ps
    simpa using hperm
  · intro e he
    rcases List.mem_filter.mp he with ⟨hin, hhit⟩
    exact ⟨hin, by simpa [hit] using hhit⟩

end Queue

namespace QueuePool

variable {WI DOMNode : Type} {p p' : QueuePool WI DOMNode}

/-- The two lists of a queue. -/
abbrev Cells (WI DOMNode : Type) := List (Addr × Task WI DOMNode) × List (Addr × Task WI DOMNode)

/-- The lists of all queues. -/
def Holds (p : QueuePool WI DOMNode) (ls : List (Cells WI DOMNode)) : Prop :=
  List.Forall₂ (fun q l ↦ q.Holds l.1 l.2) p.queue ls

/-- What all queues hold. -/
def entries (ls : List (Cells WI DOMNode)) : List (Task WI DOMNode) :=
  ls.flatMap fun l ↦ Queue.payloads l.1 l.2

/-- The tasks reachable from a `first_task`. -/
def pending (ls : List (Cells WI DOMNode)) : List (Task WI DOMNode) :=
  ls.flatMap fun l ↦ l.1.map Prod.snd

variable {ls : List (Cells WI DOMNode)} {t : Task WI DOMNode}

theorem mem_pending : t ∈ pending ls ↔ ∃ l ∈ ls, ∃ e ∈ l.1, e.2 = t := by
  unfold pending
  simp only [List.mem_flatMap, List.mem_map]

theorem Holds.get (h : p.Holds ls) {i : Nat} {q : Queue WI DOMNode} (hq : p.queue[i]? = some q) :
    ∃ l, ls[i]? = some l ∧ q.Holds l.1 l.2 := by
  have hi := (List.getElem?_eq_some_iff.mp hq).1
  have hlength : p.queue.length = ls.length := List.Forall₂.length_eq h
  have hi' : i < ls.length := by omega
  refine ⟨ls[i], List.getElem?_eq_getElem hi', ?_⟩
  have hget := List.Forall₂.get h hi hi'
  rw [List.get_eq_getElem, List.get_eq_getElem, (List.getElem?_eq_some_iff.mp hq).2] at hget
  exact hget

/-- The lists of one queue are replaced. -/
theorem Holds.set (h : p.Holds ls) {i : Nat} {q' : Queue WI DOMNode} {l' : Cells WI DOMNode}
    (hq : p'.queue = p.queue.set i q') (hl : q'.Holds l'.1 l'.2) : p'.Holds (ls.set i l') := by
  unfold Holds at h ⊢
  rw [hq]
  clear hq
  generalize p.queue = qs at h
  induction h generalizing i with
  | nil => exact List.Forall₂.nil
  | cons hhead htail ih =>
    cases i with
    | zero => exact List.Forall₂.cons hl htail
    | succ i => exact List.Forall₂.cons hhead ih

/-- What the other queues hold is the same before and after. -/
theorem flatMap_set {α β : Type} (f : α → List β) {xs : List α} {i : Nat} {x : α}
    (hx : xs[i]? = some x) : ∃ rest, (xs.flatMap f).Perm (f x ++ rest) ∧
      ∀ y, ((xs.set i y).flatMap f).Perm (f y ++ rest) := by
  induction xs generalizing i with
  | nil => cases hx
  | cons z xs ih =>
    cases i with
    | zero =>
      have hz : z = x := by simpa using hx
      rw [← hz]
      exact ⟨xs.flatMap f, List.Perm.refl _, fun y ↦ List.Perm.refl _⟩
    | succ i =>
      rcases ih (i := i) (by simpa using hx) with ⟨rest, hold, hnew⟩
      have hcomm (l : List β) : (f z ++ (l ++ rest)).Perm (l ++ (f z ++ rest)) := by
        rw [← List.append_assoc, ← List.append_assoc]
        exact List.perm_append_comm.append_right _
      refine ⟨f z ++ rest, ?_, ?_⟩
      · exact (hold.append_left (f z)).trans (hcomm _)
      · intro y
        exact ((hnew y).append_left (f z)).trans (hcomm _)

theorem Holds.enqueueTask {A : Allocator (Task WI DOMNode)} {queueName : String} {found : Bool}
    (h : p.Holds ls)
    (hcall : p.enqueueTask A queueName t.workflowInstance t.task = some (found, p')) :
    ∃ ls', p'.Holds ls' ∧ (entries ls').Subperm (t :: entries ls) ∧
      ∀ x ∈ pending ls', x ∈ pending ls ∨ x = t := by
  rcases enqueueTask_cases hcall with ⟨heq, -⟩ | ⟨i, q, q', -, hq, henqueue, hset, -⟩
  · rw [heq]
    exact ⟨ls, h, (List.sublist_cons_self _ _).subperm, fun x hx ↦ .inl hx⟩
  · rcases h.get hq with ⟨l, hl, hholds⟩
    rcases hholds.enqueueTask henqueue with ⟨ps', cs', hholds', hsub, hpending⟩
    refine ⟨ls.set i (ps', cs'), h.set hset hholds', ?_, ?_⟩
    · rcases flatMap_set (fun l : Cells WI DOMNode ↦ Queue.payloads l.1 l.2) hl with ⟨rest, hold, hnew⟩
      have hrest := (List.subperm_append_right rest).mpr hsub
      exact (hnew (ps', cs')).subperm.trans (hrest.trans (hold.symm.cons t).subperm)
    · intro x hx
      rcases mem_pending.mp hx with ⟨l', hl', e, he, hex⟩
      rcases List.mem_or_eq_of_mem_set hl' with hl' | hl'
      · exact .inl (mem_pending.mpr ⟨l', hl', e, he, hex⟩)
      · rw [hl'] at he
        rcases hpending e he with he | he
        · exact .inl (mem_pending.mpr ⟨l, List.mem_of_getElem? hl, e, he, hex⟩)
        · exact .inr (hex.symm.trans he)

theorem Holds.dequeueBody {found : Option (Nat × Task WI DOMNode)} (h : p.Holds ls)
    (hcall : p.dequeueBody = some (found, p')) :
    ∃ ls', p'.Holds ls' ∧ ((found.map Prod.snd).toList ++ entries ls').Perm (entries ls) ∧
      ∀ x ∈ pending ls', x ∈ pending ls := by
  rcases dequeueBody_cases hcall with ⟨hfound, hqueue, -⟩ | ⟨i, q, t, q', hfound, hq, hdequeue, hset, -⟩
  · subst hfound
    refine ⟨ls, ?_, List.Perm.refl _, fun x hx ↦ hx⟩
    unfold Holds
    rw [hqueue]
    exact h
  · subst hfound
    rcases h.get hq with ⟨l, hl, hholds⟩
    rcases hholds.dequeueTask hdequeue with ⟨ps', cs', hholds', hperm, hpending⟩
    refine ⟨ls.set i (ps', cs'), h.set hset hholds', ?_, ?_⟩
    · rcases flatMap_set (fun l : Cells WI DOMNode ↦ Queue.payloads l.1 l.2) hl with ⟨rest, hold, hnew⟩
      have hrest := hperm.append_right rest
      exact ((hnew (ps', cs')).cons t).trans (hrest.trans hold.symm)
    · intro x hx
      rcases mem_pending.mp hx with ⟨l', hl', e, he, hex⟩
      rcases List.mem_or_eq_of_mem_set hl' with hl' | hl'
      · exact mem_pending.mpr ⟨l', hl', e, he, hex⟩
      · rw [hl'] at he
        exact mem_pending.mpr ⟨l, List.mem_of_getElem? hl, e, hpending e he, hex⟩

theorem Holds.cancelTasks {getInstanceID : WI → UInt32} {id : UInt32} (h : p.Holds ls)
    (hcall : p.cancelTasks getInstanceID id = some p') :
    ∃ ls', p'.Holds ls' ∧ (entries ls').Perm (entries ls) ∧
      ∀ x ∈ pending ls', x ∈ pending ls ∧ getInstanceID x.workflowInstance ≠ id := by
  unfold QueuePool.cancelTasks at hcall
  rcases Option.map_eq_some_iff.mp hcall with ⟨queue, hloop, heq⟩
  subst heq
  unfold Holds at h ⊢
  rw [updateForkPossible_queue]
  dsimp only
  clear hcall
  generalize p.queue = qs at h hloop
  -- the queues are swept one after the other
  induction h generalizing queue with
  | nil =>
    rw [cancelLoop, Option.some.injEq] at hloop
    rw [← hloop]
    exact ⟨[], List.Forall₂.nil, List.Perm.refl _, by simp [pending]⟩
  | @cons q l qs ls hhead htail ih =>
    rcases Option.bind_eq_some_iff.mp hloop with ⟨q', hcancel, hrest⟩
    rcases Option.map_eq_some_iff.mp hrest with ⟨queue', hloop', heq⟩
    rcases hhead.cancelTasks hcancel with ⟨ps', cs', hholds', hperm, hpending⟩
    rcases ih queue' hloop' with ⟨ls', hls', hperm', hpending'⟩
    rw [← heq]
    refine ⟨(ps', cs') :: ls', List.Forall₂.cons hholds' hls', hperm.append hperm', ?_⟩
    intro x hx
    rcases mem_pending.mp hx with ⟨l', hl', e, he, hex⟩
    rcases List.mem_cons.mp hl' with hl' | hl'
    · rw [hl'] at he
      rw [← hex]
      exact ⟨mem_pending.mpr ⟨l, List.mem_cons_self, e, (hpending e he).1, rfl⟩, (hpending e he).2⟩
    · have hold := hpending' x (mem_pending.mpr ⟨l', hl', e, he, hex⟩)
      refine ⟨?_, hold.2⟩
      rcases mem_pending.mp hold.1 with ⟨y, hy, e', he', hex'⟩
      exact mem_pending.mpr ⟨y, List.mem_cons_of_mem _ hy, e', he', hex'⟩

/-- The running counters and the table of identifiers are kept beside the lists. -/
theorem Holds.modify (h : p.Holds ls) {i : Nat} {f : Queue WI DOMNode → Queue WI DOMNode}
    (hf : ∀ q ps cs, q.Holds ps cs → (f q).Holds ps cs) (hqueue : p'.queue = p.queue.modify i f) :
    p'.Holds ls := by
  unfold Holds at h ⊢
  rw [hqueue]
  clear hqueue
  generalize p.queue = qs at h
  induction h generalizing i with
  | nil => cases i <;> exact List.Forall₂.nil
  | cons hhead htail ih =>
    cases i with
    | zero => exact List.Forall₂.cons (hf _ _ _ hhead) htail
    | succ i => exact List.Forall₂.cons hhead ih

theorem Holds.executeTask (h : p.Holds ls) (wi : WI) (task : DOMNode) (queueName : String)
    (taskId : Nat) : (p.executeTask wi task queueName taskId).2.Holds ls := by
  have hregister (p' : QueuePool WI DOMNode) (hqueue : p'.queue = p.queue) (i tid : Nat) :
      (p'.register i wi task tid).Holds ls := by
    apply h.modify (i := i) (f := Queue.executeTask)
    · intro q ps cs hq
      exact ⟨⟨hq.lists.pending, hq.lists.cancelled, hq.lists.disjoint⟩, hq.tail⟩
    · show p'.queue.modify i Queue.executeTask = _
      rw [hqueue]
  unfold QueuePool.executeTask
  cases p.lookup queueName with
  | none => exact h
  | some i =>
    dsimp only
    by_cases hzero : taskId = 0
    · rw [if_pos hzero]
      cases p.freeTid with
      | none => exact h
      | some tid => exact hregister { p with lasttid := tid } rfl i tid
    · rw [if_neg hzero]
      exact hregister p rfl i taskId

theorem Holds.terminateTask (h : p.Holds ls) (taskId : Nat) : (p.terminateTask taskId).2.Holds ls := by
  unfold QueuePool.terminateTask
  cases p.tid taskId with
  | none => exact h
  | some e =>
    apply h.modify (i := e.queueIndex) (f := Queue.terminateTask)
    · intro q ps cs hq
      exact ⟨⟨hq.lists.pending, hq.lists.cancelled, hq.lists.disjoint⟩, hq.tail⟩
    · rfl

/-- Queues that were just created hold nothing. -/
theorem holds_of_fresh (hfresh : ∀ q ∈ p.queue, ∃ name id concurrency,
    q = Queue.fresh name id concurrency) : p.Holds (p.queue.map fun _ ↦ ([], [])) := by
  unfold Holds
  generalize p.queue = qs at hfresh
  induction qs with
  | nil => exact List.Forall₂.nil
  | cons q qs ih =>
    rcases hfresh q List.mem_cons_self with ⟨name, id, concurrency, heq⟩
    refine List.Forall₂.cons ?_ (ih fun x hx ↦ hfresh x (List.mem_cons_of_mem _ hx))
    rw [heq]
    exact Queue.holds_fresh name id concurrency

end QueuePool

end EvQueue
