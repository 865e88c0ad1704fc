import EvQueue.Base.Runs
import EvQueue.Queue

/-!
# The queue refines a FIFO list and a stack

`TaskQueue` says what a queue is for: pending tasks leave in the order they came, cancelled tasks
leave first and regardless of the concurrency.  `Queue.Represents` ties the pointer structure of
`EvQueue.Queue` to it.  The two agree along a run exactly as long as no cancel takes the last pending
task away from under `lastTask` while others stay.
-/

namespace EvQueue

open Cells Runs

/-- The abstract queue: a FIFO list of pending tasks and a stack of cancelled ones. -/
structure TaskQueue (WI DOMNode : Type) where
  pending : List (Task WI DOMNode)
  cancelled : List (Task WI DOMNode)
  running : UInt32
  concurrency : UInt32

inductive QueueCall (WI DOMNode : Type) where
  | enqueueTask (workflowInstance : WI) (task : DOMNode)
  | dequeueTask
  | executeTask
  | terminateTask
  | cancelTasks (workflowInstanceId : UInt32)
deriving DecidableEq

variable {WI DOMNode : Type}

namespace TaskQueue

def fresh (concurrency : UInt32) : TaskQueue WI DOMNode := ⟨[], [], 0, concurrency⟩

/-- One call, with the task it hands out. -/
def step (getInstanceID : WI → UInt32) (s : TaskQueue WI DOMNode) :
    QueueCall WI DOMNode → Option (Task WI DOMNode) × TaskQueue WI DOMNode
  | .enqueueTask wi task => (none, { s with pending := s.pending ++ [⟨wi, task⟩] })
  | .dequeueTask =>
      match s.cancelled, s.pending with
      | t :: cs, _ => (some t, { s with cancelled := cs })
      | [], t :: ps =>
          if s.running < s.concurrency then (some t, { s with pending := ps }) else (none, s)
      | [], [] => (none, s)
  | .executeTask => (none, { s with running := s.running + 1 })
  | .terminateTask => (none, { s with running := s.running - 1 })
  | .cancelTasks id =>
      (none, { s with
        pending := s.pending.filter fun t ↦ !Queue.hit getInstanceID id t
        cancelled := (s.pending.filter fun t ↦ Queue.hit getInstanceID id t).reverse ++ s.cancelled })

/-- The tasks handed out along a run, and the queue after it. -/
def run (getInstanceID : WI → UInt32) (s : TaskQueue WI DOMNode) :
    List (QueueCall WI DOMNode) → List (Task WI DOMNode) × TaskQueue WI DOMNode
  | [] => ([], s)
  | c :: cs =>
      let (out, s') := s.step getInstanceID c
      let (outs, s'') := s'.run getInstanceID cs
      (out.toList ++ outs, s'')

/-- The last pending task does not belong to the instance, unless every pending task does. -/
def KeepsTail (getInstanceID : WI → UInt32) (s : TaskQueue WI DOMNode) (id : UInt32) : Prop :=
  (∀ t, s.pending.getLast? = some t → Queue.hit getInstanceID id t = false) ∨
    ∀ t ∈ s.pending, Queue.hit getInstanceID id t = true

/-- When a call keeps the pointer structure and the abstract queue together: a cancel does not take
the last of several pending tasks only, and the pending tasks can be counted in an `unsigned int`. -/
def Fits (getInstanceID : WI → UInt32) (s : TaskQueue WI DOMNode) : QueueCall WI DOMNode → Prop
  | .enqueueTask _ _ => s.pending.length + 1 < 2 ^ 32
  | .cancelTasks id => s.KeepsTail getInstanceID id
  | _ => True

end TaskQueue

namespace Queue

/-- One call on the pointer structure, with the task it hands out. -/
def step (A : Allocator (Task WI DOMNode)) (getInstanceID : WI → UInt32) (q : Queue WI DOMNode) :
    QueueCall WI DOMNode → Option (Option (Task WI DOMNode) × Queue WI DOMNode)
  | .enqueueTask wi task => (q.enqueueTask A wi task).map fun q' ↦ (none, q')
  | .dequeueTask => q.dequeueTask
  | .executeTask => some (none, q.executeTask)
  | .terminateTask => some (none, q.terminateTask)
  | .cancelTasks id => (q.cancelTasks getInstanceID id).map fun q' ↦ (none, q')

def run (A : Allocator (Task WI DOMNode)) (getInstanceID : WI → UInt32) (q : Queue WI DOMNode) :
    List (QueueCall WI DOMNode) → Option (List (Task WI DOMNode) × Queue WI DOMNode)
  | [] => some ([], q)
  | c :: cs =>
      (q.step A getInstanceID c).bind fun (out, q') ↦
        (q'.run A getInstanceID cs).map fun (outs, q'') ↦ (out.toList ++ outs, q'')

/-- The pointer structure holds the abstract queue: the cells behind `firstTask` are the pending
tasks in order, those behind `cancelledTasks` the cancelled ones, no cell is in both lists, `size`
counts the pending ones and `lastTask` is the last of them. -/
def Represents (q : Queue WI DOMNode) (s : TaskQueue WI DOMNode) : Prop :=
  ∃ ps cs, q.Lists ps cs ∧ q.Tracks ps ∧ ps.map Prod.snd = s.pending ∧
    cs.map Prod.snd = s.cancelled ∧ q.size.toNat = s.pending.length ∧
    q.runningTasks = s.running ∧ q.concurrency = s.concurrency

end Queue

/-! ## One call -/

section Calls

variable {q : Queue WI DOMNode} {s : TaskQueue WI DOMNode} {A : Allocator (Task WI DOMNode)}
  {getInstanceID : WI → UInt32}

theorem Queue.fresh_represents (name : String) (id concurrency : UInt32) :
    (Queue.fresh name id concurrency : Queue WI DOMNode).Represents (.fresh concurrency) :=
  ⟨[], [], ⟨rfl, rfl, by simp⟩, by intro e he; simp at he, rfl, rfl, rfl, rfl, rfl⟩

theorem Queue.Represents.isLocked_iff (hr : q.Represents s) :
    q.isLocked = true ↔
      s.cancelled = [] ∧ (s.pending = [] ∨ ¬ s.running < s.concurrency) := by
  obtain ⟨ps, cs, hl, -, hps, hcs, hsize, hrun, hconc⟩ := hr
  have hcanc : q.cancelledTasks.isSome = true ↔ s.cancelled ≠ [] := by
    rw [← hl.cancelled_ne_nil, ← hcs]
    simp
  have hpos : (0 < q.size) ↔ s.pending ≠ [] := by
    rw [UInt32.lt_iff_toNat_lt, hsize]
    exact List.length_pos_iff
  unfold Queue.isLocked
  by_cases hc : s.cancelled = []
  · have hno : q.cancelledTasks.isSome = false := by
      rw [← Bool.not_eq_true, hcanc]
      simp [hc]
    by_cases hp : s.pending = [] <;> by_cases hlt : s.running < s.concurrency <;>
      simp [hno, hc, hp, hlt, hpos, hrun, hconc]
  · simp [hcanc.mpr hc, hc]

theorem enqueueTask_represents {wi : WI} {task : DOMNode} (hr : q.Represents s)
    (hfit : s.pending.length + 1 < 2 ^ 32) :
    ∃ q', q.enqueueTask A wi task = some q' ∧
      q'.Represents { s with pending := s.pending ++ [⟨wi, task⟩] } := by
  obtain ⟨ps, cs, hl, ht, hps, hcs, hsize, hrun, hconc⟩ := hr
  obtain ⟨q', b, henq, hl', hlast, hsize', hlim⟩ :=
    Queue.enqueueTask_lists A wi task hl ht
  refine ⟨q', henq, _, cs, hl', ?_, by simp [hps], hcs, ?_, by rw [hlim.runningTasks, hrun],
    by rw [hlim.concurrency, hconc]⟩
  · intro e he
    obtain rfl : (b, (⟨wi, task⟩ : Task WI DOMNode)) = e := by simpa using he
    exact hlast
  · rw [hsize', UInt32.toNat_add, hsize]
    simpa using Nat.mod_eq_of_lt hfit

theorem dequeueTask_represents (hr : q.Represents s) :
    ∃ q', q.dequeueTask = some ((s.step getInstanceID .dequeueTask).1, q') ∧
      q'.Represents (s.step getInstanceID .dequeueTask).2 := by
  have hlock := hr.isLocked_iff
  obtain ⟨ps, cs, hl, ht, hps, hcs, hsize, hrun, hconc⟩ := hr
  obtain ⟨pending, cancelled, running, concurrency⟩ := s
  dsimp only at hps hcs hsize hrun hconc hlock
  subst hps hcs hrun hconc
  cases cs with
  | cons c cs =>
    obtain ⟨q', hdeq, hl', hlast, hsize', hlim⟩ := Queue.dequeueTask_cancelled hl
    refine ⟨q', hdeq, ps, cs, hl', ?_, rfl, rfl, ?_, hlim.runningTasks, hlim.concurrency⟩
    · intro e he
      rw [hlast, ht e he]
    · rw [hsize', hsize]
      rfl
  | nil =>
    cases ps with
    | nil =>
      refine ⟨q, ?_, [], [], hl, ht, rfl, rfl, hsize, rfl, rfl⟩
      exact Queue.dequeueTask_locked (hlock.mpr ⟨rfl, .inl rfl⟩)
    | cons e ps =>
      by_cases hlt : q.runningTasks < q.concurrency
      · -- the concurrency is not reached: the oldest pending task leaves
        have hstep : TaskQueue.step getInstanceID
            ⟨(e :: ps).map Prod.snd, [], q.runningTasks, q.concurrency⟩ .dequeueTask =
            (some e.2, ⟨ps.map Prod.snd, [], q.runningTasks, q.concurrency⟩) := by
          simp [TaskQueue.step, hlt]
        have hopen : q.isLocked = false := by
          rw [← Bool.not_eq_true, hlock]
          simp [hlt]
        obtain ⟨q', hdeq, hl', hlast, hsize', hlim⟩ := Queue.dequeueTask_pending hl hopen
        rw [List.map_nil, hstep]
        refine ⟨q', hdeq, ps, [], hl', ?_, rfl, rfl, ?_, hlim.runningTasks, hlim.concurrency⟩
        · intro x hx
          have hne : ps ≠ [] := by
            rintro rfl
            simp at hx
          rw [hlast]
          exact ht x (by rw [List.getLast?_cons_of_ne_nil hne, hx])
        · have hone : (1 : UInt32) ≤ q.size := by
            rw [UInt32.le_iff_toNat_le, hsize]
            simp
          rw [hsize', UInt32.toNat_sub_of_le _ _ hone, hsize]
          simp
      · have hstep : TaskQueue.step getInstanceID
            ⟨(e :: ps).map Prod.snd, [], q.runningTasks, q.concurrency⟩ .dequeueTask =
            (none, ⟨(e :: ps).map Prod.snd, [], q.runningTasks, q.concurrency⟩) := by
          simp [TaskQueue.step, hlt]
        rw [List.map_nil, hstep]
        refine ⟨q, ?_, e :: ps, [], hl, ht, rfl, rfl, hsize, rfl, rfl⟩
        exact Queue.dequeueTask_locked (hlock.mpr ⟨rfl, .inr hlt⟩)

theorem map_kept (getInstanceID : WI → UInt32) (id : UInt32) (l : List (Addr × Task WI DOMNode)) :
    (Queue.kept getInstanceID id l).map Prod.snd =
      (l.map Prod.snd).filter fun t ↦ !Queue.hit getInstanceID id t := by
  unfold Queue.kept
  rw [List.filter_map]
  rfl

theorem map_moved {id : UInt32} (l : List (Addr × Task WI DOMNode)) :
    (Queue.moved getInstanceID id l).map Prod.snd =
      ((l.map Prod.snd).filter fun t ↦ Queue.hit getInstanceID id t).reverse := by
  unfold Queue.moved
  rw [List.filter_map, List.map_reverse]
  rfl

theorem kept_length_add_moved_length (getInstanceID : WI → UInt32) (id : UInt32)
    (l : List (Addr × Task WI DOMNode)) :
    (Queue.kept getInstanceID id l).length + (Queue.moved getInstanceID id l).length = l.length := by
  have hsplit := List.length_eq_length_filter_add (l := l) fun e ↦ Queue.hit getInstanceID id e.2
  unfold Queue.kept Queue.moved
  rw [List.length_reverse]
  omega

theorem cancelTasks_represents {id : UInt32} (hr : q.Represents s)
    (hfit : s.KeepsTail getInstanceID id) :
    ∃ q', q.cancelTasks getInstanceID id = some q' ∧
      q'.Represents (s.step getInstanceID (.cancelTasks id)).2 := by
  obtain ⟨ps, cs, hl, ht, hps, hcs, hsize, hrun, hconc⟩ := hr
  obtain ⟨q', hcan, hl', hlast, hsize', hlim⟩ :=
    Queue.cancelTasks_lists getInstanceID id hl
  refine ⟨q', hcan, _, _, hl', ?_, ?_, ?_, ?_, by rw [hlim.runningTasks, hrun]; rfl,
    by rw [hlim.concurrency, hconc]; rfl⟩
  · -- the last pending cell stays the last one, or none stays
    intro e he
    rcases List.eq_nil_or_concat ps with rfl | ⟨front, x, rfl⟩
    · simp [Queue.kept] at he
    · rw [List.concat_eq_append] at *
      rcases hfit with hkeep | hall
      · have hx : Queue.hit getInstanceID id x.2 = false := hkeep x.2 (by simp [← hps])
        have hxe : x = e := by simpa [Queue.kept, hx] using he
        rw [hlast]
        exact ht e (by simp [hxe])
      · have hmem := List.mem_of_getLast? he
        unfold Queue.kept at hmem
        obtain ⟨hin, hno⟩ := List.mem_filter.mp hmem
        have hyes := hall e.2 (by rw [← hps]; exact List.mem_map_of_mem hin)
        simp [hyes] at hno
  · rw [map_kept, hps]
    rfl
  · rw [List.map_append, map_moved, hps, hcs]
    rfl
  · have hsplit := kept_length_add_moved_length getInstanceID id ps
    have hlen : ps.length = s.pending.length := by rw [← hps, List.length_map]
    have hlt : q.size.toNat < 2 ^ 32 := q.size.toNat_lt
    have hk := congrArg List.length (map_kept getInstanceID id ps)
    rw [List.length_map, hps] at hk
    have hle : UInt32.ofNat (Queue.moved getInstanceID id ps).length ≤ q.size := by
      rw [UInt32.le_iff_toNat_le, UInt32.toNat_ofNat']
      exact Nat.le_trans (Nat.mod_le _ _) (by omega)
    rw [hsize', UInt32.toNat_sub_of_le _ _ hle, UInt32.toNat_ofNat', Nat.mod_eq_of_lt (by omega)]
    show _ = (s.pending.filter _).length
    omega

theorem Queue.Represents.step (hr : q.Represents s) {c : QueueCall WI DOMNode}
    (hfit : s.Fits getInstanceID c) :
    ∃ q', q.step A getInstanceID c = some ((s.step getInstanceID c).1, q') ∧
      q'.Represents (s.step getInstanceID c).2 := by
  cases c with
  | enqueueTask wi task =>
    obtain ⟨q', henq, hr'⟩ := enqueueTask_represents hr hfit
    exact ⟨q', by rw [Queue.step, henq]; rfl, hr'⟩
  | dequeueTask => exact dequeueTask_represents hr
  | executeTask =>
    obtain ⟨ps, cs, hl, ht, hps, hcs, hsize, hrun, hconc⟩ := hr
    exact ⟨q.executeTask, rfl, ps, cs, ⟨hl.pending, hl.cancelled, hl.disjoint⟩, ht, hps, hcs, hsize,
      congrArg (· + 1) hrun, hconc⟩
  | terminateTask =>
    obtain ⟨ps, cs, hl, ht, hps, hcs, hsize, hrun, hconc⟩ := hr
    exact ⟨q.terminateTask, rfl, ps, cs, ⟨hl.pending, hl.cancelled, hl.disjoint⟩, ht, hps, hcs,
      hsize, congrArg (· - 1) hrun, hconc⟩
  | cancelTasks id =>
    obtain ⟨q', hcan, hr'⟩ := cancelTasks_represents hr hfit
    exact ⟨q', by rw [Queue.step, hcan]; rfl, hr'⟩

/-- A cancel that takes the last of several pending tasks leaves `lastTask` behind. -/
theorem not_represents_of_tail_cancelled {q' : Queue WI DOMNode} {id : UInt32}
    (hr : q.Represents s) (hcan : q.cancelTasks getInstanceID id = some q')
    (hr' : q'.Represents (s.step getInstanceID (.cancelTasks id)).2) :
    s.KeepsTail getInstanceID id := by
  obtain ⟨ps, cs, hl, ht, hps, -⟩ := hr
  obtain ⟨ps', cs', hl', ht', -⟩ := hr'
  obtain ⟨q'', hcan'', hl'', hlast, -⟩ :=
    Queue.cancelTasks_lists getInstanceID id hl
  obtain rfl : q'' = q' := Option.some.inj (hcan''.symm.trans hcan)
  obtain ⟨rfl, -⟩ := hl'.unique hl''
  by_contra hno
  unfold TaskQueue.KeepsTail at hno
  simp only [not_or, not_forall, Bool.not_eq_false, Bool.not_eq_true] at hno
  obtain ⟨⟨t, hlastT, hhit⟩, t', hmem, hmiss⟩ := hno
  rcases List.eq_nil_or_concat ps with rfl | ⟨front, x, rfl⟩
  · simp [← hps] at hmem
  · rw [List.concat_eq_append] at *
    obtain rfl : x.2 = t := by simpa [← hps] using hlastT
    -- some cell stays, and the last that stays is in front of the cancelled tail `x`
    have hin : t' ∈ (Queue.kept getInstanceID id (front ++ [x])).map Prod.snd := by
      rw [map_kept, hps]
      exact List.mem_filter.mpr ⟨hmem, by simp [hmiss]⟩
    have hne : Queue.kept getInstanceID id (front ++ [x]) ≠ [] := by
      intro hnil
      simp [hnil] at hin
    obtain ⟨e, he⟩ : ∃ e, (Queue.kept getInstanceID id (front ++ [x])).getLast? = some e :=
      ⟨_, List.getLast?_eq_some_getLast hne⟩
    have hstale : some x.1 = some e.1 := by
      rw [← ht x (by simp), ← hlast]
      exact ht' e he
    have hfront : e ∈ front := by
      have hkept := List.mem_of_getLast? he
      unfold Queue.kept at hkept
      obtain ⟨hin, hno⟩ := List.mem_filter.mp hkept
      rcases List.mem_append.mp hin with hin | hx
      · exact hin
      · obtain rfl : e = x := by simpa using hx
        simp [hhit] at hno
    have hnd := hl.pending.nodup
    simp only [addrs, List.map_append, List.nodup_append] at hnd
    exact hnd.2.2 e.1 (List.mem_map_of_mem hfront) x.1 (by simp) (Option.some.inj hstale).symm

theorem Queue.Represents.fits_of_step {q' : Queue WI DOMNode} {c : QueueCall WI DOMNode}
    {out : Option (Task WI DOMNode)} (hr : q.Represents s)
    (hstep : q.step A getInstanceID c = some (out, q'))
    (hr' : q'.Represents (s.step getInstanceID c).2) : s.Fits getInstanceID c := by
  cases c with
  | enqueueTask wi task =>
    obtain ⟨ps, cs, hl, ht, -, -, hsize, -⟩ := hr
    obtain ⟨-, -, -, -, -, -, hsize', -⟩ := hr'
    obtain ⟨q'', b, henq, -, -, hcount, -⟩ :=
      Queue.enqueueTask_lists A wi task hl ht
    rw [Queue.step, henq] at hstep
    obtain rfl : q'' = q' := (Prod.mk.inj (Option.some.inj hstep)).2
    have hlt : q''.size.toNat < 2 ^ 32 := q''.size.toNat_lt
    show s.pending.length + 1 < 2 ^ 32
    simpa [hsize', TaskQueue.step] using hlt
  | cancelTasks id =>
    rw [Queue.step] at hstep
    obtain ⟨q'', hcan, heq⟩ := Option.map_eq_some_iff.mp hstep
    obtain rfl : q'' = q' := (Prod.mk.inj heq).2
    exact not_represents_of_tail_cancelled hr hcan hr'
  | dequeueTask | executeTask | terminateTask => trivial

end Calls

/-! ## Runs -/

/-- After these calls the pointer structure has done what the abstract queue did: it handed out the
same tasks and holds the same two lists, without any undefined step. -/
def Queue.Agrees (A : Allocator (Task WI DOMNode)) (getInstanceID : WI → UInt32)
    (q : Queue WI DOMNode) (s : TaskQueue WI DOMNode) (calls : List (QueueCall WI DOMNode)) : Prop :=
  ∃ q', q.run A getInstanceID calls = some ((s.run getInstanceID calls).1, q') ∧
    q'.Represents (s.run getInstanceID calls).2

theorem Queue.agrees_cons {A : Allocator (Task WI DOMNode)} {getInstanceID : WI → UInt32}
    {q q' : Queue WI DOMNode} {s : TaskQueue WI DOMNode} {c : QueueCall WI DOMNode}
    (calls : List (QueueCall WI DOMNode))
    (hstep : q.step A getInstanceID c = some ((s.step getInstanceID c).1, q')) :
    q.Agrees A getInstanceID s (c :: calls) ↔
      q'.Agrees A getInstanceID (s.step getInstanceID c).2 calls := by
  unfold Queue.Agrees
  simp only [Queue.run, TaskQueue.run, hstep, Option.bind_some, Option.map_eq_some_iff,
    Prod.mk.injEq, Prod.exists]
  constructor
  · rintro ⟨q'', ⟨outs, last, hrun, houts, rfl⟩, hr⟩
    exact ⟨last, by rw [hrun, List.append_cancel_left houts], hr⟩
  · rintro ⟨q'', hrun, hr⟩
    exact ⟨q'', ⟨_, q'', hrun, rfl, rfl⟩, hr⟩

theorem agrees_iff_fits (A : Allocator (Task WI DOMNode)) (getInstanceID : WI → UInt32)
    (calls : List (QueueCall WI DOMNode)) {q : Queue WI DOMNode} {s : TaskQueue WI DOMNode}
    (hr : q.Represents s) :
    (∀ l, l <+: calls → q.Agrees A getInstanceID s l) ↔
      ∀ l c, l ++ [c] <+: calls → (s.run getInstanceID l).2.Fits getInstanceID c := by
  induction calls generalizing q s with
  | nil =>
    refine ⟨fun _ l c hp ↦ by simp at hp, fun _ l hp ↦ ?_⟩
    obtain rfl := List.prefix_nil.mp hp
    exact ⟨q, rfl, hr⟩
  | cons c calls ih =>
    constructor
    · intro hall
      -- the first call fits since the structure still agrees after it
      obtain ⟨q', hrun, hr'⟩ := hall [c] (by simp)
      simp only [Queue.run, Option.bind_eq_some_iff, Option.map_some, Option.some.injEq] at hrun
      obtain ⟨⟨out, q''⟩, hstep, heq⟩ := hrun
      obtain ⟨-, rfl⟩ := Prod.mk.inj heq
      have hfit := hr.fits_of_step hstep hr'
      obtain ⟨q₁, hstep₁, hr₁⟩ := hr.step (A := A) hfit
      have hrest := (ih hr₁).mp fun l hp ↦
        (Queue.agrees_cons l hstep₁).mp (hall (c :: l) (by simpa using hp))
      intro l c' hp
      rcases l with _ | ⟨d, l⟩
      · obtain ⟨rfl, -⟩ : c' = c ∧ True := by simpa using hp
        exact hfit
      · obtain ⟨rfl, hp'⟩ : d = c ∧ l ++ [c'] <+: calls := by simpa using hp
        exact hrest l c' hp'
    · intro hfits
      obtain ⟨q₁, hstep₁, hr₁⟩ := hr.step (A := A) (hfits [] c (by simp))
      have hrest := (ih hr₁).mpr fun l c' hp ↦ hfits (c :: l) c' (by simpa using hp)
      intro l hp
      rcases l with _ | ⟨d, l⟩
      · exact ⟨q, rfl, hr⟩
      · obtain ⟨rfl, hp'⟩ : d = c ∧ l <+: calls := by simpa using hp
        exact (Queue.agrees_cons l hstep₁).mpr (hrest l hp')

/-- A fresh queue stays a FIFO list and a stack along a run exactly as long as every call fits: no
cancel takes the last of several pending tasks and leaves others, and no enqueue is made on top of
`2^32 - 1` pending tasks. -/
theorem queue_refines_iff (A : Allocator (Task WI DOMNode)) (getInstanceID : WI → UInt32)
    (name : String) (id concurrency : UInt32) (calls : List (QueueCall WI DOMNode)) :
    (∀ l, l <+: calls →
      (Queue.fresh name id concurrency).Agrees A getInstanceID (.fresh concurrency) l) ↔
      ∀ l c, l ++ [c] <+: calls →
        ((TaskQueue.fresh concurrency).run getInstanceID l).2.Fits getInstanceID c :=
  agrees_iff_fits A getInstanceID calls (Queue.fresh_represents name id concurrency)

/-- Two instances have a task each; the second is cancelled and a third enqueues.  The new task is
linked behind the cancelled one and lost to the pending list; four dequeues later a null
`firstTask` is followed. -/
theorem enqueue_behind_cancelled_tail :
    ¬ (Queue.fresh "default" 1 8).Agrees (Allocator.bump (Task UInt32 Nat)) id (.fresh 8)
        [.enqueueTask 1 10, .enqueueTask 2 20, .cancelTasks 2, .enqueueTask 3 30] ∧
      (Queue.fresh "default" 1 8).run (Allocator.bump (Task UInt32 Nat)) id
        [.enqueueTask 1 10, .enqueueTask 2 20, .cancelTasks 2, .enqueueTask 3 30,
          .dequeueTask, .dequeueTask, .dequeueTask, .dequeueTask] = none := by
  refine ⟨?_, by decide⟩
  rintro ⟨q', hrun, ps, cs, hl, -, hps, -⟩
  have hq : (Queue.fresh "default" 1 8).run (Allocator.bump (Task UInt32 Nat)) id
      [.enqueueTask 1 10, .enqueueTask 2 20, .cancelTasks 2, .enqueueTask 3 30] =
      some ([], { name := "default", id := 1, concurrency := 8, size := 2, runningTasks := 0,
                  firstTask := some 1, lastTask := some 3, cancelledTasks := some 2,
                  heap := [(2, ⟨⟨2, 20⟩, some 3⟩), (3, ⟨⟨3, 30⟩, none⟩), (1, ⟨⟨1, 10⟩, none⟩)] }) := by
    decide
  obtain ⟨-, rfl⟩ := Prod.mk.inj (Option.some.inj (hq.symm.trans hrun))
  have hone : Chain [(2, ⟨⟨2, 20⟩, some 3⟩), (3, ⟨⟨3, 30⟩, none⟩), (1, ⟨⟨1, 10⟩, none⟩)] (some 1)
      [(1, (⟨1, 10⟩ : Task UInt32 Nat))] := ⟨rfl, none, rfl, rfl⟩
  rw [hl.pending.unique hone] at hps
  exact absurd hps (by decide)

end EvQueue
