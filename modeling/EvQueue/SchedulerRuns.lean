import EvQueue.Scheduler

/-!
# SchedulerRuns — the list, the counter and the events that were handed out

A run is any sequence of the three operations.  The events in the list are in their order, and every
event that was inserted is in the list or was handed out, once.  The counter is the length of the list
as an unsigned integer of 32 bits, and `Flush` believes it.
-/

namespace EvQueue

open Cells Runs

/-- A scheduler, with what was inserted into it and what it has handed out. -/
structure Scheduling (α : Type) where
  scheduler : Scheduler α
  inserted : Nat
  /-- What was handed to `event_removed` or returned by `shift_event`, in this order. -/
  handed : List (TimedEvent α)

inductive SchedulerCall (α : Type) where
  | insertEvent (scheduledAt : Int) (content : α)
  | shiftEvent (currTime : Int)
  /-- Without a filter, every event passes. -/
  | flush (filter : Option (TimedEvent α → Bool))

namespace Scheduling

variable {α : Type} {A : Allocator (TimedEvent α)} {s s' : Scheduling α}
variable {events : List (TimedEvent α)}

def start (α : Type) : Scheduling α := { scheduler := .create α, inserted := 0, handed := [] }

def step (A : Allocator (TimedEvent α)) (s : Scheduling α) :
    SchedulerCall α → Option (Scheduling α)
  | .insertEvent scheduledAt content =>
      (s.scheduler.insertEvent A ⟨scheduledAt, content, s.inserted⟩).map fun (scheduler, _) ↦
        { s with scheduler, inserted := s.inserted + 1 }
  | .shiftEvent currTime =>
      (s.scheduler.shiftEvent currTime).map fun (found, scheduler) ↦
        { s with scheduler, handed := s.handed ++ found.toList }
  | .flush filter =>
      (s.scheduler.flush filter).map fun ((removed, _), scheduler) ↦
        { s with scheduler, handed := s.handed ++ removed }

/-- The events are in their order, counted modulo 2^32, and with those handed out they are all that were
inserted. -/
structure Inv (s : Scheduling α) (events : List (TimedEvent α)) : Prop where
  holds : s.scheduler.Holds events
  sorted : events.Pairwise Scheduler.Before
  count : s.scheduler.numberOfEvents = UInt32.ofNat events.length
  numbers : ((events ++ s.handed).map TimedEvent.number).Perm (List.range s.inserted)

theorem Inv.number_lt (h : Inv s events) : ∀ e ∈ events, e.number < s.inserted := by
  intro e he
  have hin : e.number ∈ (events ++ s.handed).map TimedEvent.number :=
    List.mem_map_of_mem (List.mem_append_left _ he)
  exact List.mem_range.mp (h.numbers.mem_iff.mp hin)

theorem start_inv : Inv (start α) [] where
  holds := ⟨[], rfl, rfl⟩
  sorted := List.Pairwise.nil
  count := rfl
  numbers := List.Perm.refl _

/-- Events that leave the list in their order are the same events as before. -/
theorem perm_handed {kept removed handed : List (TimedEvent α)} (h : (removed ++ kept).Perm events) :
    ((kept ++ (handed ++ removed)).map TimedEvent.number).Perm
      ((events ++ handed).map TimedEvent.number) := by
  apply List.Perm.map
  have hswap : (kept ++ (handed ++ removed)).Perm (removed ++ (kept ++ handed)) := by
    rw [← List.append_assoc]
    exact List.perm_append_comm
  apply hswap.trans
  rw [← List.append_assoc]
  exact h.append_right handed

theorem insertEvent_inv (A : Allocator (TimedEvent α)) (h : Inv s events) (scheduledAt : Int)
    (content : α) : ∃ s', step A s (.insertEvent scheduledAt content) = some s' ∧
      Inv s' (events.orderedInsert Scheduler.earlier ⟨scheduledAt, content, s.inserted⟩) := by
  rcases h.holds.insertEvent A ⟨scheduledAt, content, s.inserted⟩ with
    ⟨scheduler, notice, hcall, hholds, hcount, -⟩
  have hperm := List.perm_orderedInsert Scheduler.earlier ⟨scheduledAt, content, s.inserted⟩ events
  refine ⟨{ s with scheduler, inserted := s.inserted + 1 }, ?_, hholds, ?_, ?_, ?_⟩
  · simp only [step, hcall, Option.map_some]
  · exact Scheduler.pairwise_insert h.sorted h.number_lt
  · rw [hcount, hperm.length_eq, List.length_cons, UInt32.ofNat_add]
    by_cases hnil : events = []
    · rw [if_pos hnil, hnil]
      rfl
    · rw [if_neg hnil, h.count]
      rfl
  · have hnew : (s.inserted :: (events ++ s.handed).map TimedEvent.number).Perm
        (List.range (s.inserted + 1)) := by
      rw [List.range_succ]
      exact (h.numbers.cons _).trans (List.perm_append_singleton _ _).symm
    exact ((hperm.append_right s.handed).map TimedEvent.number).trans hnew

/-- `shift_event` returns the first event when it is due, and nothing is due otherwise. -/
theorem Inv.shiftEvent (h : Inv s events) (currTime : Int) :
    ∃ found rest scheduler, s.scheduler.shiftEvent currTime = some (found, scheduler) ∧
      events = found.toList ++ rest ∧ scheduler.Holds rest ∧
      scheduler.numberOfEvents = UInt32.ofNat rest.length ∧
      (∀ e ∈ found, e.scheduledAt ≤ currTime) ∧
      (found = none ↔ ∀ e ∈ events, currTime < e.scheduledAt) := by
  have hcall := h.holds.shiftEvent currTime
  cases events with
  | nil =>
    rw [List.head?_nil, Option.any_none, if_neg Bool.false_ne_true] at hcall
    exact ⟨none, [], s.scheduler, hcall, rfl, h.holds, h.count, nofun, by simp⟩
  | cons e rest =>
    have hdue := Scheduler.due_iff h.sorted currTime
    simp only [List.head?_cons, Option.any_some, decide_eq_true_eq, List.tail_cons] at hcall
    by_cases hle : e.scheduledAt ≤ currTime
    · rw [if_pos hle] at hcall
      rcases hcall with ⟨scheduler, hcall, hholds, hcount⟩
      refine ⟨some e, rest, scheduler, hcall, rfl, hholds, ?_, ?_, ?_⟩
      · rw [hcount, h.count, List.length_cons, UInt32.ofNat_add]
        grind
      · intro x hx
        rw [Option.mem_some.mp hx] at hle
        exact hle
      · apply iff_of_false nofun
        intro hall
        have hlt := hall e List.mem_cons_self
        omega
    · rw [if_neg hle] at hcall
      refine ⟨none, e :: rest, s.scheduler, hcall, rfl, h.holds, h.count, nofun, iff_of_true rfl ?_⟩
      intro x hx
      by_contra hlt
      exact hle (hdue.mp ⟨x, hx, by omega⟩)

theorem shiftEvent_inv (A : Allocator (TimedEvent α)) (h : Inv s events) (currTime : Int) :
    ∃ s' found rest, step A s (.shiftEvent currTime) = some s' ∧ Inv s' rest ∧
      s'.handed = s.handed ++ found ∧ events = found ++ rest := by
  rcases h.shiftEvent currTime with ⟨found, rest, scheduler, hcall, heq, hholds, hcount, -⟩
  subst heq
  refine ⟨{ s with scheduler, handed := s.handed ++ found.toList }, found.toList, rest, ?_,
    ⟨hholds, ?_, hcount, ?_⟩, rfl, rfl⟩
  · simp only [step, hcall, Option.map_some]
  · exact (List.pairwise_append.mp h.sorted).2.1
  · exact (perm_handed (List.Perm.refl _)).trans h.numbers

theorem ofNat_eq_zero_iff {n : Nat} : UInt32.ofNat n = 0 ↔ n % 2 ^ 32 = 0 := by
  rw [← UInt32.toNat_inj, UInt32.toNat_ofNat']
  rfl

/-- `Flush` hands out exactly the events that pass, and keeps the others: unless the counter, which is
the length of the list modulo 2^32, is 0. -/
theorem Inv.flush (h : Inv s events) (filter : Option (TimedEvent α → Bool)) :
    ∃ removed wakeUp kept scheduler,
      s.scheduler.flush filter = some ((removed, wakeUp), scheduler) ∧ scheduler.Holds kept ∧
      scheduler.numberOfEvents = UInt32.ofNat kept.length ∧
      (events.length % 2 ^ 32 = 0 → removed = [] ∧ kept = events) ∧
      (events.length % 2 ^ 32 ≠ 0 → removed = events.filter (Scheduler.passes filter) ∧
        kept = events.filter fun e ↦ !Scheduler.passes filter e) := by
  have hcall := h.holds.flush filter
  have hzero : s.scheduler.numberOfEvents = 0 ↔ events.length % 2 ^ 32 = 0 := by
    rw [h.count]
    exact ofNat_eq_zero_iff
  by_cases hcount : s.scheduler.numberOfEvents = 0
  · rw [if_pos hcount] at hcall
    exact ⟨[], false, events, s.scheduler, hcall, h.holds, h.count, fun _ ↦ ⟨rfl, rfl⟩,
      fun hne ↦ absurd (hzero.mp hcount) hne⟩
  · rw [if_neg hcount] at hcall
    rcases hcall with ⟨scheduler, hcall, hholds, hnumber⟩
    refine ⟨_, _, _, scheduler, hcall, hholds, ?_, fun heq ↦ absurd (hzero.mpr heq) hcount,
      fun _ ↦ ⟨rfl, rfl⟩⟩
    have hlength := (List.filter_append_perm (Scheduler.passes filter) events).length_eq
    rw [List.length_append] at hlength
    rw [hnumber, h.count, ← hlength, UInt32.ofNat_add]
    grind

theorem flush_inv (A : Allocator (TimedEvent α)) (h : Inv s events)
    (filter : Option (TimedEvent α → Bool)) :
    ∃ s' removed kept, step A s (.flush filter) = some s' ∧ Inv s' kept ∧
      s'.handed = s.handed ++ removed ∧ (removed ++ kept).Perm events ∧ kept.Sublist events ∧
      (events.length % 2 ^ 32 ≠ 0 → kept = events.filter fun e ↦ !Scheduler.passes filter e) := by
  rcases h.flush filter with ⟨removed, wakeUp, kept, scheduler, hcall, hholds, hcount, hnone, hall⟩
  have hperm : (removed ++ kept).Perm events ∧ kept.Sublist events := by
    by_cases hzero : events.length % 2 ^ 32 = 0
    · rw [(hnone hzero).1, (hnone hzero).2]
      exact ⟨List.Perm.refl _, List.Sublist.refl _⟩
    · rw [(hall hzero).1, (hall hzero).2]
      exact ⟨List.filter_append_perm _ _, List.filter_sublist⟩
  refine ⟨{ s with scheduler, handed := s.handed ++ removed }, removed, kept, ?_,
    ⟨hholds, ?_, hcount, ?_⟩, rfl, hperm.1, hperm.2, fun hne ↦ (hall hne).2⟩
  · simp only [step, hcall, Option.map_some]
  · exact h.sorted.sublist hperm.2
  · exact (perm_handed hperm.1).trans h.numbers

/-- Every call returns. -/
theorem step_inv (A : Allocator (TimedEvent α)) (h : Inv s events) (call : SchedulerCall α) :
    ∃ s' events', step A s call = some s' ∧ Inv s' events' := by
  cases call with
  | insertEvent scheduledAt content =>
    rcases insertEvent_inv A h scheduledAt content with ⟨s', hstep, hinv⟩
    exact ⟨s', _, hstep, hinv⟩
  | shiftEvent currTime =>
    rcases shiftEvent_inv A h currTime with ⟨s', found, rest, hstep, hinv, -⟩
    exact ⟨s', rest, hstep, hinv⟩
  | flush filter =>
    rcases flush_inv A h filter with ⟨s', removed, kept, hstep, hinv, -⟩
    exact ⟨s', kept, hstep, hinv⟩

/-- The invariant, whatever the events are. -/
def Ordered (s : Scheduling α) : Prop := ∃ events, Inv s events

theorem run_ordered {calls : List (SchedulerCall α)} (hrun : run (step A) (start α) calls = some s) :
    Ordered s := by
  have hmeets : Meets (step A) (fun _ _ ↦ True) (start α) calls := Meets.of_forall fun _ _ ↦ trivial
  have hstep (s : Scheduling α) (call : SchedulerCall α) (s' : Scheduling α) (h : Ordered s) (_ : True)
      (hs : step A s call = some s') : Ordered s' := by
    rcases h with ⟨events, h⟩
    rcases step_inv A h call with ⟨t, events', ht, h'⟩
    rw [hs, Option.some.injEq] at ht
    rw [ht]
    exact ⟨events', h'⟩
  exact run_invariant hstep ⟨[], start_inv⟩ hmeets hrun

/-- In every state of a run the events are in their order, the counter is their number modulo 2^32, and
every event that was inserted is in the list or was handed out, once.  Every further call returns:
`shift_event` with the earliest event when it is due, and `Flush` having handed out the events that pass,
or none when the counter is 0. -/
theorem events_of_run (A : Allocator (TimedEvent α)) (calls : List (SchedulerCall α))
    (s : Scheduling α) (hrun : run (step A) (start α) calls = some s) :
    ∃ events, s.scheduler.Holds events ∧ events.Pairwise Scheduler.Before ∧
      s.scheduler.numberOfEvents.toNat = events.length % 2 ^ 32 ∧
      ((events ++ s.handed).map TimedEvent.number).Perm (List.range s.inserted) ∧
      (∀ call, (step A s call).isSome) ∧
      (∀ currTime, ∃ found rest scheduler,
        s.scheduler.shiftEvent currTime = some (found, scheduler) ∧
        events = found.toList ++ rest ∧ scheduler.Holds rest ∧
        (∀ e ∈ found, e.scheduledAt ≤ currTime) ∧
        (found = none ↔ ∀ e ∈ events, currTime < e.scheduledAt)) ∧
      ∀ filter, ∃ removed wakeUp kept scheduler,
        s.scheduler.flush filter = some ((removed, wakeUp), scheduler) ∧ scheduler.Holds kept ∧
        (events.length % 2 ^ 32 = 0 → removed = [] ∧ kept = events) ∧
        (events.length % 2 ^ 32 ≠ 0 → removed = events.filter (Scheduler.passes filter) ∧
          kept = events.filter fun e ↦ !Scheduler.passes filter e) := by
  rcases run_ordered hrun with ⟨events, h⟩
  refine ⟨events, h.holds, h.sorted, ?_, h.numbers, ?_, ?_, ?_⟩
  · rw [h.count, UInt32.toNat_ofNat']
  · intro call
    rcases step_inv A h call with ⟨s', events', hstep, -⟩
    rw [hstep]
    rfl
  · intro currTime
    rcases h.shiftEvent currTime with ⟨found, rest, scheduler, hcall, heq, hholds, -, hdue, hnone⟩
    exact ⟨found, rest, scheduler, hcall, heq, hholds, hdue, hnone⟩
  · intro filter
    rcases h.flush filter with ⟨removed, wakeUp, kept, scheduler, hcall, hholds, -, hnone, hall⟩
    exact ⟨removed, wakeUp, kept, scheduler, hcall, hholds, hnone, hall⟩

/-- Three events, two of them due at the same time, and a flush of one of these. -/
theorem events_of_three : ∃ s : Scheduling String,
    run (step (Allocator.bump (TimedEvent String))) (start String)
      [.insertEvent 20 "b", .insertEvent 10 "a", .insertEvent 20 "c",
        .flush (some fun e ↦ e.content == "b"), .shiftEvent 15] = some s ∧
      s.handed.map TimedEvent.content = ["b", "a"] ∧
      ∃ events, s.scheduler.Holds events ∧
        ((events ++ s.handed).map TimedEvent.number).Perm (List.range s.inserted) := by
  refine ⟨_, rfl, rfl, ?_⟩
  rcases events_of_run (Allocator.bump (TimedEvent String))
    [.insertEvent 20 "b", .insertEvent 10 "a", .insertEvent 20 "c",
      .flush (some fun e ↦ e.content == "b"), .shiftEvent 15] _ rfl with ⟨events, hholds, -, -, hperm, -⟩
  exact ⟨events, hholds, hperm⟩

/-- After any number of insertions. -/
theorem run_insertEvents (A : Allocator (TimedEvent α)) (n : Nat) (scheduledAt : Int) (content : α) :
    ∃ s events, run (step A) (start α) (List.replicate n (.insertEvent scheduledAt content)) = some s ∧
      Inv s events ∧ s.inserted = n ∧ s.handed = [] := by
  induction n with
  | zero => exact ⟨start α, [], rfl, start_inv, rfl, rfl⟩
  | succ n ih =>
    rcases ih with ⟨s, events, hrun, h, hinserted, hhanded⟩
    rcases insertEvent_inv A h scheduledAt content with ⟨s', hstep, hinv⟩
    rw [List.replicate_succ', run_concat hrun]
    refine ⟨s', _, hstep, hinv, ?_⟩
    rcases Option.map_eq_some_iff.mp hstep with ⟨x, -, heq⟩
    rw [← heq]
    exact ⟨congrArg (· + 1) hinserted, hhanded⟩

/-- After 2^32 insertions the counter is 0, and `Flush` hands out nothing. -/
theorem flushed_none_of_full : ∃ s : Scheduling Unit,
    run (step (Allocator.bump (TimedEvent Unit))) (start Unit)
      (List.replicate (2 ^ 32) (.insertEvent 0 ())) = some s ∧
    ∃ events, s.scheduler.Holds events ∧ events.length = 2 ^ 32 ∧ s.scheduler.numberOfEvents = 0 ∧
      s.scheduler.flush none = some (([], false), s.scheduler) := by
  rcases run_insertEvents (Allocator.bump (TimedEvent Unit)) (2 ^ 32) 0 () with
    ⟨s, events, hrun, h, hinserted, hhanded⟩
  have hlength := h.numbers.length_eq
  rw [hhanded, List.append_nil, List.length_map, List.length_range, hinserted] at hlength
  have hcount : s.scheduler.numberOfEvents = 0 := by
    rw [h.count, hlength]
    rfl
  refine ⟨s, hrun, events, h.holds, hlength, hcount, ?_⟩
  unfold Scheduler.flush
  rw [if_pos hcount]

end Scheduling

end EvQueue
