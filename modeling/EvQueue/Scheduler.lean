import Mathlib.Data.List.Sort
import Mathlib.Data.UInt
import EvQueue.Base.Cells
import EvQueue.Base.Runs

/-!
# Scheduler — the timed events of the retrier and of the workflow scheduler

`Scheduler` keeps its events in a null-terminated list, ordered by their times, and counts them in an
unsigned counter.  The operations below do what `Scheduler.cpp` does, pointer write by pointer write;
`none` is undefined behaviour: a null pointer or a released cell is followed.
-/

namespace EvQueue

open Cells Runs

/-- The payload of `Scheduler::Event`; its `next_event` is the cell's `next`. -/
structure TimedEvent (α : Type) where
  scheduledAt : Int
  /-- What the subclass keeps in the event. -/
  content : α
  /-- How many events were inserted before it; kept for the statements only. -/
  number : Nat
deriving DecidableEq, Repr

structure Scheduler (α : Type) where
  numberOfEvents : UInt32
  firstEvent : Option Addr
  heap : Heap (TimedEvent α)
deriving DecidableEq, Repr

/-- What `InsertEvent` does besides the insertion. -/
inductive Notice where
  | createThread
  | wakeUp
  | nothing
deriving DecidableEq, Repr

namespace Scheduler

variable {α : Type}

/-- The constructor. -/
def create (α : Type) : Scheduler α := { numberOfEvents := 0, firstEvent := none, heap := [] }

/-- The loop of `InsertEvent`: the event behind which the new one is linked. -/
def insertLoop (scheduledAt : Int) (heap : Heap (TimedEvent α)) : Nat → Addr → Option Addr
  | 0, _ => none
  | fuel + 1, currEvent =>
      (heap.read currEvent).bind fun cell ↦
        match cell.next with
        | none => some currEvent
        | some nextEvent =>
            (heap.read nextEvent).bind fun nextCell ↦
              if scheduledAt ≥ nextCell.val.scheduledAt then insertLoop scheduledAt heap fuel nextEvent
              else some currEvent

/-- The counter restarts from 0 when the list is empty. -/
def insertEvent (A : Allocator (TimedEvent α)) (s : Scheduler α) (newEvent : TimedEvent α) :
    Option (Scheduler α × Notice) :=
  let a := A.new s.heap
  match s.firstEvent with
  | none =>
      some ({ numberOfEvents := 0 + 1, firstEvent := some a, heap := s.heap.write a ⟨newEvent, none⟩ },
        .createThread)
  | some firstEvent =>
      (s.heap.read firstEvent).bind fun firstCell ↦
        if newEvent.scheduledAt < firstCell.val.scheduledAt then
          some ({ numberOfEvents := s.numberOfEvents + 1, firstEvent := some a,
                  heap := s.heap.write a ⟨newEvent, some firstEvent⟩ }, .wakeUp)
        else
          (insertLoop newEvent.scheduledAt s.heap (s.heap.length + 1) firstEvent).bind fun currEvent ↦
            (s.heap.read currEvent).bind fun cell ↦
              ((s.heap.write a ⟨newEvent, cell.next⟩).setNext currEvent (some a)).map fun heap ↦
                ({ s with heap, numberOfEvents := s.numberOfEvents + 1 }, .nothing)

/-- The event that is due, if there is one.  The caller deletes it. -/
def shiftEvent (s : Scheduler α) (currTime : Int) : Option (Option (TimedEvent α) × Scheduler α) :=
  match s.firstEvent with
  | none => some (none, s)
  | some firstEvent =>
      (s.heap.read firstEvent).map fun cell ↦
        if cell.val.scheduledAt ≤ currTime then
          (some cell.val,
            { numberOfEvents := s.numberOfEvents - 1, firstEvent := cell.next,
              heap := s.heap.free firstEvent })
        else (none, s)

/-- The loop of `Flush`: `event` is the `Event **` that walks along the list, `removed` is what was
handed to `event_removed`, which deletes it. -/
def flushLoop (passes : TimedEvent α → Bool) :
    Nat → Link → List (TimedEvent α) × Bool → Scheduler α →
      Option ((List (TimedEvent α) × Bool) × Scheduler α)
  | 0, _, _, _ => none
  | fuel + 1, event, (removed, wakeUp), s =>
      (event.read s.heap s.firstEvent).bind fun
      | none => some ((removed, wakeUp), s)
      | some tmp =>
          (s.heap.read tmp).bind fun cell ↦
            if passes cell.val then
              (event.write s.heap s.firstEvent cell.next).bind fun (heap, firstEvent) ↦
                flushLoop passes fuel event (removed ++ [cell.val], wakeUp || event = .head)
                  { numberOfEvents := s.numberOfEvents - 1, firstEvent, heap := heap.free tmp }
            else flushLoop passes fuel (.next tmp) (removed, wakeUp) s

/-- `!use_filter || flush_filter(*event)`. -/
def passes (filter : Option (TimedEvent α → Bool)) (e : TimedEvent α) : Bool :=
  match filter with
  | none => true
  | some flushFilter => flushFilter e

/-- What is handed to `event_removed`, whether the retry thread is woken up, and the scheduler behind. -/
def flush (s : Scheduler α) (filter : Option (TimedEvent α → Bool)) :
    Option ((List (TimedEvent α) × Bool) × Scheduler α) :=
  if s.numberOfEvents = 0 then some (([], false), s)
  else flushLoop (passes filter) (s.heap.length + 1) .head ([], false) s

/-! ## The events in their order -/

/-- The order of the list: by time, and by insertion when the times are the same. -/
def Before (e e' : TimedEvent α) : Prop :=
  e.scheduledAt < e'.scheduledAt ∨ (e.scheduledAt = e'.scheduledAt ∧ e.number < e'.number)

/-- The comparison that `InsertEvent` makes. -/
abbrev earlier (e e' : TimedEvent α) : Prop := e.scheduledAt < e'.scheduledAt

/-- The events behind `first_event`. -/
def Holds (s : Scheduler α) (events : List (TimedEvent α)) : Prop :=
  ∃ cells, Chain s.heap s.firstEvent cells ∧ cells.map Prod.snd = events

variable {s s' : Scheduler α} {events : List (TimedEvent α)} {e : TimedEvent α}

theorem Holds.unique {events' : List (TimedEvent α)} (h : s.Holds events) (h' : s.Holds events') :
    events = events' := by
  rcases h with ⟨cells, hchain, heq⟩
  rcases h' with ⟨cells', hchain', heq'⟩
  rw [← heq, ← heq', hchain.unique hchain']

theorem Holds.nil_iff (h : s.Holds events) : s.firstEvent = none ↔ events = [] := by
  rcases h with ⟨cells, hchain, heq⟩
  rw [← heq, List.map_eq_nil_iff]
  cases cells with
  | nil => exact iff_of_true hchain rfl
  | cons c cells =>
    have hfirst : s.firstEvent = some c.1 := hchain.1
    simp [hfirst]

theorem Holds.head {cell : Cell (TimedEvent α)}
    (h : s.Holds events) (hfirst : s.firstEvent.bind s.heap.read = some cell) :
    events.head? = some cell.val := by
  rcases h with ⟨cells, hc, heq⟩
  cases cells with
  | nil =>
    have hnone : s.firstEvent = none := hc
    rw [hnone] at hfirst
    cases hfirst
  | cons c cells =>
    rcases hc with ⟨hfirst', n, hread, -⟩
    rw [hfirst', Option.bind_some, hread, Option.some.injEq] at hfirst
    rw [← heq, ← hfirst]
    rfl

/-- A new event goes behind those that are due at the same time. -/
theorem pairwise_insert (h : events.Pairwise Before) (hnew : ∀ x ∈ events, x.number < e.number) :
    (events.orderedInsert earlier e).Pairwise Before := by
  induction events with
  | nil => exact List.pairwise_singleton _ _
  | cons x events ih =>
    rw [List.pairwise_cons] at h
    rw [List.orderedInsert_cons]
    by_cases hlt : e.scheduledAt < x.scheduledAt
    · rw [if_pos hlt, List.pairwise_cons]
      refine ⟨?_, List.pairwise_cons.mpr h⟩
      intro y hy
      rcases List.mem_cons.mp hy with heq | hy
      · rw [heq]
        exact .inl hlt
      · left
        rcases h.1 y hy with hxy | hxy
        · exact Int.lt_trans hlt hxy
        · omega
    · rw [if_neg hlt, List.pairwise_cons]
      refine ⟨?_, ih h.2 fun y hy ↦ hnew y (List.mem_cons_of_mem _ hy)⟩
      intro y hy
      rcases List.mem_cons.mp ((List.perm_orderedInsert _ e events).mem_iff.mp hy) with heq | hy
      · have hnumber := hnew x List.mem_cons_self
        rw [heq]
        unfold Before
        omega
      · exact h.1 y hy

/-- Nothing is due when the first event is not. -/
theorem due_iff (h : (e :: events).Pairwise Before) (currTime : Int) :
    (∃ x ∈ e :: events, x.scheduledAt ≤ currTime) ↔ e.scheduledAt ≤ currTime := by
  constructor
  · intro hex
    rcases hex with ⟨x, hx, hdue⟩
    rcases List.mem_cons.mp hx with heq | hx
    · rw [← heq]
      exact hdue
    · rcases (List.pairwise_cons.mp h).1 x hx with hlt | hlt <;> omega
  · exact fun hdue ↦ ⟨e, List.mem_cons_self, hdue⟩

/-! ## What the operations do to the list -/

/-- The walk stops at the last event that is not due later than the new one. -/
theorem insertLoop_spec {heap : Heap (TimedEvent α)} {p : Option Addr} {c : Addr × TimedEvent α}
    {l : List (Addr × TimedEvent α)} (fuel : Nat) (hc : Chain heap p (c :: l))
    (hfuel : l.length < fuel) :
    ∃ front c' back, insertLoop e.scheduledAt heap fuel c.1 = some c'.1 ∧ c :: l = front ++ c' :: back ∧
      c.2 :: (l.map Prod.snd).orderedInsert earlier e =
        front.map Prod.snd ++ c'.2 :: e :: back.map Prod.snd := by
  induction l generalizing c p fuel with
  | nil =>
    rcases Nat.exists_eq_succ_of_ne_zero (Nat.ne_of_gt hfuel) with ⟨fuel, heq⟩
    rcases hc with ⟨-, n, hread, hnext⟩
    have hnone : n = none := hnext
    refine ⟨[], c, [], ?_, rfl, rfl⟩
    rw [heq, insertLoop, hread, hnone]
    rfl
  | cons d l ih =>
    rcases Nat.exists_eq_succ_of_ne_zero (Nat.ne_of_gt (Nat.zero_lt_of_lt hfuel)) with ⟨fuel, heq⟩
    rcases hc with ⟨-, n, hread, hrest⟩
    have hrest' := hrest
    rcases hrest' with ⟨hnext, m, hread', -⟩
    have hloop : insertLoop e.scheduledAt heap (fuel + 1) c.1 =
        if e.scheduledAt ≥ d.2.scheduledAt then insertLoop e.scheduledAt heap fuel d.1
        else some c.1 := by
      rw [insertLoop, hread, hnext]
      simp only [Option.bind_some]
      rw [hread', Option.bind_some]
    rw [List.map_cons, List.orderedInsert_cons, heq]
    by_cases hlt : e.scheduledAt < d.2.scheduledAt
    · refine ⟨[], c, d :: l, ?_, rfl, ?_⟩
      · rw [hloop, if_neg (by omega)]
      · rw [if_pos hlt]
        rfl
    · rcases ih fuel hrest (by rw [List.length_cons] at hfuel; omega) with
        ⟨front, c', back, hloop', hcells, hevents⟩
      refine ⟨c :: front, c', back, ?_, ?_, ?_⟩
      · rw [hloop, if_pos (by omega), hloop']
      · rw [hcells, List.cons_append]
      · rw [if_neg hlt, hevents]
        rfl

/-- What an insertion into the list does besides. -/
def noticeOf (e : TimedEvent α) : List (TimedEvent α) → Notice
  | [] => .createThread
  | x :: _ => if e.scheduledAt < x.scheduledAt then .wakeUp else .nothing

/-- `InsertEvent` puts the event where `orderedInsert` puts it.  A thread is created for the first event
of an empty list, and the one there is woken up by an event that becomes the first. -/
theorem Holds.insertEvent (A : Allocator (TimedEvent α)) (h : s.Holds events) (e : TimedEvent α) :
    ∃ s' notice, s.insertEvent A e = some (s', notice) ∧
      s'.Holds (events.orderedInsert earlier e) ∧
      s'.numberOfEvents = (if events = [] then 0 else s.numberOfEvents) + 1 ∧
      notice = noticeOf e events := by
  rcases h with ⟨cells, hc, heq⟩
  have hfresh := A.fresh s.heap
  subst heq
  unfold Scheduler.insertEvent
  cases cells with
  | nil =>
    have hfirst : s.firstEvent = none := hc
    rw [hfirst]
    exact ⟨_, _, rfl, ⟨[(A.new s.heap, e)], Chain.cons rfl hfresh, rfl⟩, rfl, rfl⟩
  | cons c cells =>
    have hrest := hc
    rcases hrest with ⟨hfirst, n, hread, -⟩
    simp only [hfirst, hread, Option.bind_some]
    rw [List.map_cons, List.orderedInsert_cons, if_neg (List.cons_ne_nil _ _), noticeOf]
    by_cases hlt : e.scheduledAt < c.2.scheduledAt
    · rw [if_pos hlt, if_pos hlt, if_pos hlt]
      refine ⟨_, _, rfl, ⟨(A.new s.heap, e) :: c :: cells, ?_, rfl⟩, rfl, rfl⟩
      rw [← hfirst]
      exact Chain.cons hc hfresh
    · have hlength := hc.length_le
      rw [List.length_cons] at hlength
      rcases insertLoop_spec (e := e) (s.heap.length + 1) hc (by omega) with
        ⟨front, c', back, hloop, hcells, hevents⟩
      have hsplit := hc
      rw [hcells] at hsplit
      rcases hsplit.insert (w := e) hfresh with ⟨n', hread', hset, hchain⟩
      rw [if_neg hlt, if_neg hlt, if_neg hlt, hloop]
      simp only [Option.bind_some, hread', hset, Option.map_some]
      refine ⟨_, _, rfl, ⟨front ++ c' :: (A.new s.heap, e) :: back, ?_, ?_⟩, rfl, rfl⟩
      · rw [hfirst] at hchain
        exact hchain
      · rw [hevents]
        simp

/-- `shift_event` takes the first event when it is due. -/
theorem Holds.shiftEvent (h : s.Holds events) (currTime : Int) :
    if events.head?.any fun e ↦ e.scheduledAt ≤ currTime then
      ∃ s', s.shiftEvent currTime = some (events.head?, s') ∧ s'.Holds events.tail ∧
        s'.numberOfEvents = s.numberOfEvents - 1
    else s.shiftEvent currTime = some (none, s) := by
  rcases h with ⟨cells, hc, heq⟩
  subst heq
  unfold Scheduler.shiftEvent
  cases cells with
  | nil =>
    have hfirst : s.firstEvent = none := hc
    rw [hfirst]
    rfl
  | cons c cells =>
    have hnodup := hc.nodup
    rcases hc with ⟨hfirst, n, hread, hrest⟩
    simp only [hfirst, hread, Option.map_some, List.map_cons, List.head?_cons, Option.any_some,
      decide_eq_true_eq, List.tail_cons]
    by_cases hdue : c.2.scheduledAt ≤ currTime
    · rw [if_pos hdue, if_pos hdue]
      exact ⟨_, rfl, ⟨cells, hrest.free (List.nodup_cons.mp hnodup).1, rfl⟩, rfl⟩
    · rw [if_neg hdue, if_neg hdue]

/-- The walk from behind the kept prefix `ks`. -/
theorem flushLoop_spec {p : TimedEvent α → Bool} (fuel : Nat) (ks : List (Addr × TimedEvent α))
    {l : List (Addr × TimedEvent α)} (hc : Chain s.heap s.firstEvent (ks ++ l)) (hfuel : l.length < fuel)
    (removed : List (TimedEvent α)) (wakeUp : Bool) :
    ∃ s', flushLoop p fuel (Link.after ks) (removed, wakeUp) s =
        some ((removed ++ (l.map Prod.snd).filter p,
          wakeUp || (ks.isEmpty && (l.head?.map Prod.snd).any p)), s') ∧
      s'.Holds (ks.map Prod.snd ++ (l.map Prod.snd).filter fun e ↦ !p e) ∧
      s'.numberOfEvents = s.numberOfEvents - UInt32.ofNat ((l.map Prod.snd).filter p).length := by
  induction l generalizing fuel ks removed wakeUp s with
  | nil =>
    rcases Nat.exists_eq_succ_of_ne_zero (Nat.ne_of_gt hfuel) with ⟨fuel, heq⟩
    rcases Chain.suffix hc with ⟨r, hfront, hr⟩
    have hnone : r = none := hr
    refine ⟨s, ?_, ⟨ks, ?_, ?_⟩, ?_⟩
    · rw [heq, flushLoop, Link.read_after hfront, hnone]
      simp
    · simpa using hc
    · simp
    · simp
  | cons c l ih =>
    rcases Nat.exists_eq_succ_of_ne_zero (Nat.ne_of_gt (Nat.zero_lt_of_lt hfuel)) with ⟨fuel, heq⟩
    have hfuel' : l.length < fuel := by
      rw [List.length_cons] at hfuel
      omega
    -- the pointer that led to the event now leads to its successor
    rcases Link.unlink hc with ⟨n, heap, firstEvent, hread, hcell, hwrite, hchain⟩
    rw [heq, flushLoop, hread]
    simp only [Option.bind_some, hcell, List.map_cons]
    by_cases hp : p c.2 = true
    · rw [if_pos hp, hwrite, Option.bind_some]
      rcases ih (s := { numberOfEvents := s.numberOfEvents - 1, firstEvent, heap := heap.free c.1 })
        fuel ks hchain hfuel' (removed ++ [c.2]) (wakeUp || Link.after ks = .head) with ⟨s', hloop, hs', hnumber⟩
      refine ⟨s', ?_, ?_, ?_⟩
      · rw [hloop, List.filter_cons_of_pos hp]
        have hhead : decide (Link.after ks = .head) = ks.isEmpty := by
          rcases List.eq_nil_or_concat ks with hnil | ⟨ks', x, hconcat⟩
          · rw [hnil]
            rfl
          · rw [hconcat, List.concat_eq_append, Link.after_concat]
            simp
        rw [hhead]
        simp only [List.append_assoc, List.singleton_append, List.head?_cons, Option.map_some,
          Option.any_some, hp, Bool.and_true, Option.some.injEq, Prod.mk.injEq, true_and, and_true]
        cases wakeUp <;> cases ks.isEmpty <;> simp
      · rw [List.filter_cons_of_neg (by simp [hp])]
        exact hs'
      · rw [hnumber, List.filter_cons_of_pos hp, List.length_cons, UInt32.ofNat_add]
        dsimp only
        grind
    · rw [if_neg hp]
      have hc' : Chain s.heap s.firstEvent ((ks ++ [c]) ++ l) := by simpa using hc
      rcases ih fuel (ks ++ [c]) hc' hfuel' removed wakeUp with ⟨s', hloop, hs', hnumber⟩
      -- the event stays, and the pointer moves on behind it
      rw [Link.after_concat] at hloop
      refine ⟨s', ?_, ?_, ?_⟩
      · rw [hloop, List.filter_cons_of_neg hp]
        simp [hp]
      · rw [List.filter_cons_of_pos (by simp [hp])]
        simpa using hs'
      · rw [hnumber, List.filter_cons_of_neg hp]

/-- `Flush` hands out the events that pass, in their order, and keeps the others in theirs: unless the
counter is 0. -/
theorem Holds.flush (h : s.Holds events) (filter : Option (TimedEvent α → Bool)) :
    if s.numberOfEvents = 0 then s.flush filter = some (([], false), s)
    else ∃ s', s.flush filter =
        some ((events.filter (passes filter), events.head?.any (passes filter)), s') ∧
      s'.Holds (events.filter fun e ↦ !passes filter e) ∧
      s'.numberOfEvents = s.numberOfEvents - UInt32.ofNat (events.filter (passes filter)).length := by
  unfold Scheduler.flush
  by_cases hzero : s.numberOfEvents = 0
  · rw [if_pos hzero, if_pos hzero]
  · rw [if_neg hzero, if_neg hzero]
    rcases h with ⟨cells, hc, heq⟩
    subst heq
    have hlength := hc.length_le
    rcases flushLoop_spec (p := passes filter) (s.heap.length + 1) [] hc (by omega) [] false with
      ⟨s', hloop, hs', hnumber⟩
    refine ⟨s', ?_, hs', hnumber⟩
    rw [Link.after_nil] at hloop
    rw [hloop, List.head?_map]
    simp

end Scheduler

end EvQueue
