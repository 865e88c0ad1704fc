import EvQueue.Base.Locks
import EvQueue.Base.Runs

/-!
# EngineLocks — the mutexes of the engine, and when threads can wait for each other in a circle

Every call is written as the mutexes that it takes and releases; what it finds (an event to retry, an
instance that has ended) is a parameter, so that all of its paths are covered.  `Scheduler::Flush` goes
against the order of the mutexes: it restarts tasks, and deletes instances, inside the mutex of the `Retrier`.
The retry thread keeps this mutex when the next event is already due, and then takes it again.
-/

namespace EvQueue

open Locks Runs

inductive Mutex where
  /-- `WorkflowInstance::lock`. -/
  | workflowInstance (i : Nat)
  /-- `Scheduler::mutex` of the `Retrier`. -/
  | retrier
  /-- `Retrier::retrier_lock`. -/
  | retrierLock
  /-- `WorkflowInstances::lock`. -/
  | workflowInstances
  /-- `QueuePool::mutex`. -/
  | pool
deriving DecidableEq, Repr

/-- An event that the `Retrier` gives back: the instance of its task, whether the task is enqueued again,
and whether the instance has ended with it. -/
structure Restart where
  workflowInstance : Nat
  enqueued : Bool
  ended : Bool
deriving DecidableEq, Repr

/-- What `TaskStop` calls inside the lock of the instance. -/
inductive Inside where
  | enqueueTask
  | insertTask
deriving DecidableEq, Repr

/-- What the retry thread finds behind its loop over the events that are due. -/
inductive NextEvent where
  /-- No event is left, and the thread exits. -/
  | nothing
  /-- An event to sleep for. -/
  | later
  /-- The same during a shutdown, seen before the wait or behind it: the thread exits with the mutex. -/
  | shutdown (waited : Bool)
  /-- `time_to_sleep` is not positive. -/
  | due
deriving DecidableEq, Repr

inductive Call where
  /-- The gatherer, with an exit message for a task. -/
  | taskStop (i : Nat) (inside : List Inside) (ended : Bool)
  /-- The forker; `waits` for a task in `DequeueTask`. -/
  | taskExecute (waits : Bool) (i : Nat) (failed ended : Bool)
  /-- One turn of `retry_thread`. -/
  | retryThread (events : List Restart) (found : NextEvent)
  /-- A cancel request and the events of the instance that it flushes. -/
  | cancel (i : Nat) (found : Bool) (removed : List Restart)
  | killTask (i : Nat) (found : Bool)
  | sendStatus (instances : List Nat)
deriving DecidableEq, Repr

/-- `delete workflow_instance`: the destructor calls `WorkflowInstances::Remove`. -/
def delete (ended : Bool) : List (Op Mutex) := if ended then visit .workflowInstances else []

/-- `TaskRestart`, and the `delete` behind it: `Retrier::event_removed`. -/
def Restart.plan (r : Restart) : List (Op Mutex) :=
  .lock (.workflowInstance r.workflowInstance) ::
    ((if r.enqueued then visit .pool else []) ++ [.unlock (.workflowInstance r.workflowInstance)]) ++ delete r.ended

def Inside.plan : Inside → List (Op Mutex)
  | .enqueueTask => visit .pool
  | .insertTask => visit .retrier

/-- `Scheduler::Flush` of the `Retrier`. -/
def flush (removed : List Restart) : List (Op Mutex) :=
  .lock .retrier :: (removed.flatMap Restart.plan ++ [.unlock .retrier])

/-- `Retrier::FlushWorkflowInstance`. -/
def flushWorkflowInstance (i : Nat) (removed : List Restart) : List (Op Mutex) :=
  .lock .retrierLock ::
    (flush (removed.map fun r ↦ { r with workflowInstance := i }) ++ [.unlock .retrierLock])

/-- A request that is passed on to the instance when `WorkflowInstances` knows it. -/
def passOn (instances : List Nat) : List (Op Mutex) :=
  .lock .workflowInstances ::
    (instances.flatMap (fun i ↦ visit (.workflowInstance i)) ++ [.unlock .workflowInstances])

/-- `pthread_cond_timedwait` releases the mutex and takes it again. -/
def NextEvent.plan : NextEvent → List (Op Mutex)
  | .nothing => [.unlock .retrier]
  | .later => [.unlock .retrier, .lock .retrier, .unlock .retrier]
  | .shutdown waited => if waited then [.unlock .retrier, .lock .retrier] else []
  -- the next `shift_event` locks the mutex that the thread still holds
  | .due => [.lock .retrier]

def Call.plan : Call → List (Op Mutex)
  | .taskStop i inside ended =>
      -- `TerminateTask` comes first
      visit .pool ++ .lock (.workflowInstance i) :: (inside.flatMap Inside.plan ++ [.unlock (.workflowInstance i)]) ++
        delete ended
  | .taskExecute waits i failed ended =>
      -- `pthread_cond_wait` releases the mutex and takes it again
      visit .pool ++ (if waits then visit .pool else []) ++ visit .pool ++ visit (.workflowInstance i) ++
        (if failed then visit .pool else []) ++ delete ended
  | .retryThread events found =>
      events.flatMap (fun r ↦ visit .retrier ++ r.plan) ++ visit .retrier ++ .lock .retrier :: found.plan
  | .cancel i found removed =>
      passOn (if found then [i] else []) ++
        (if found then flushWorkflowInstance i removed ++ visit .pool else [])
  | .killTask i found => passOn (if found then [i] else [])
  | .sendStatus instances => passOn instances

inductive LockAction where
  /-- A thread that has nothing to do begins a call. -/
  | call (t : Nat) (c : Call)
  /-- `SIGUSR1` reaches a thread, which flushes the `Retrier` before it goes on. -/
  | signal (t : Nat) (removed : List Restart)
  | step (t : Nat)
deriving DecidableEq, Repr

namespace EngineLocks

abbrev Threads := List (Activity Mutex)

def step (s : Threads) : LockAction → Option Threads
  | .call t c => if s[t]? = some .idle then some (s.set t ⟨[], c.plan⟩) else none
  | .signal t removed =>
      match s[t]? with
      | none => none
      | some a =>
          -- a thread that has exited with a mutex is gone
          if a.todo = [] ∧ a.held ≠ [] then none
          else some (s.set t { a with todo := flush removed ++ a.todo })
  | .step t => Locks.step s t

def start (n : Nat) : Threads := List.replicate n .idle

/-- In the loop of `Flush`: the mutex of the `Retrier` is held, and not about to be released. -/
def Flushing (a : Activity Mutex) : Prop :=
  .retrier ∈ a.held ∧ a.todo ≠ [] ∧ a.todo.head? ≠ some (.unlock .retrier)

/-- At the mutex in `InsertTask`, inside the lock of an instance. -/
def Inserting (a : Activity Mutex) : Prop :=
  a.wanted = some .retrier ∧ ∃ i, .workflowInstance i ∈ a.held

instance (a : Activity Mutex) : Decidable (Flushing a) := inferInstanceAs (Decidable (_ ∧ _ ∧ _))

instance (a : Activity Mutex) : Decidable (Inserting a) :=
  decidable_of_iff (a.wanted = some .retrier ∧
    a.held.any fun | .workflowInstance _ => true | _ => false) (by
      rw [Inserting, List.any_eq_true]
      refine and_congr Iff.rfl ⟨?_, ?_⟩
      · intro h
        rcases h with ⟨m, hm, hinstance⟩
        cases m with
        | workflowInstance i => exact ⟨i, hm⟩
        | retrier => cases hinstance
        | retrierLock => cases hinstance
        | workflowInstances => cases hinstance
        | pool => cases hinstance
      · intro h
        rcases h with ⟨i, hi⟩
        exact ⟨_, hi, rfl⟩)

/-- The retry thread has time to sleep when an event is left. -/
def Sleeps : Call → Prop
  | .retryThread _ found => found ≠ .due
  | _ => True

instance : (c : Call) → Decidable (Sleeps c)
  | .retryThread _ found => inferInstanceAs (Decidable (found ≠ .due))
  | .taskStop .. | .taskExecute .. | .cancel .. | .killTask .. | .sendStatus _ => .isTrue trivial

/-- No thread begins the loop of `Flush` while one is at `InsertTask`, none comes to `InsertTask` while
one is in the loop of `Flush`, the signal interrupts a thread that holds no mutex, and the retry thread has
time to sleep. -/
def Guarded (s : Threads) : LockAction → Prop
  | .call _ c => Sleeps c
  | .signal t _ => ∀ a, s[t]? = some a → a.held = []
  | .step t => ∀ a, s[t]? = some a →
      (Flushing a.next → ¬Flushing a → ∀ b ∈ s, ¬Inserting b) ∧
        (Inserting a.next → ∀ b ∈ s, ¬Flushing b)

instance (s : Threads) : (action : LockAction) → Decidable (Guarded s action)
  | .call _ c => inferInstanceAs (Decidable (Sleeps c))
  | .signal t _ => inferInstanceAs (Decidable (∀ a, s[t]? = some a → a.held = []))
  | .step t => inferInstanceAs (Decidable (∀ a, s[t]? = some a → _ ∧ _))

/-- Under which mutexes each mutex is taken. -/
def allowed (held : List Mutex) : Mutex → Prop
  | .retrierLock => held = []
  | .retrier => held = [] ∨ held = [.retrierLock] ∨ ∃ i, held = [.workflowInstance i]
  | .workflowInstances => ∀ m ∈ held, m = .retrier ∨ m = .retrierLock
  | .workflowInstance _ => held = [.workflowInstances] ∨ ∀ m ∈ held, m = .retrier ∨ m = .retrierLock
  | .pool => .pool ∉ held

/-! ## Every call keeps to the order -/

variable {held : List Mutex} {a b : Activity Mutex} {s s' : Threads}

theorem returns_ite {c : Bool} {xs : List (Op Mutex)} (h : Returns allowed held xs) :
    Returns allowed held (if c then xs else []) := by
  cases c with
  | false => exact Returns.nil
  | true => exact h

theorem visit_returns (m : Mutex) (h : allowed held m) : Returns allowed held (visit m) :=
  Returns.visit h

theorem delete_returns (h : ∀ m ∈ held, m = .retrier ∨ m = .retrierLock) (ended : Bool) :
    Returns allowed held (delete ended) :=
  returns_ite (Returns.visit h)

theorem restart_returns (h : ∀ m ∈ held, m = .retrier ∨ m = .retrierLock) (r : Restart) :
    Returns allowed held r.plan := by
  have hpool : allowed (.workflowInstance r.workflowInstance :: held) .pool := by
    intro hin
    rcases List.mem_cons.mp hin with heq | hin
    · cases heq
    · rcases h _ hin with heq | heq <;> cases heq
  unfold Restart.plan
  apply Returns.append
  · exact Returns.around (.inr h) (returns_ite (Returns.visit hpool))
  · exact delete_returns h r.ended

/-- The loop of `Flush`, called with nothing or with `retrier_lock`. -/
theorem flush_returns (h : held = [] ∨ held = [.retrierLock]) (removed : List Restart) :
    Returns allowed held (flush removed) := by
  unfold flush
  apply Returns.around
  · rcases h with h | h
    · exact .inl h
    · exact .inr (.inl h)
  · apply Returns.flatMap
    intro r _
    apply restart_returns
    intro m hm
    rcases List.mem_cons.mp hm with heq | hin
    · exact .inl heq
    · rcases h with h | h
      · rw [h] at hin
        cases hin
      · rw [h] at hin
        exact .inr (List.mem_singleton.mp hin)

theorem passOn_returns (instances : List Nat) : Returns allowed [] (passOn instances) := by
  apply Returns.around
  · exact nofun
  · apply Returns.flatMap
    intro i _
    exact Returns.visit (.inl rfl)

theorem taskStop_returns (i : Nat) (inside : List Inside) :
    Returns allowed [] (.lock (.workflowInstance i) ::
      (inside.flatMap Inside.plan ++ [.unlock (.workflowInstance i)])) := by
  apply Returns.around
  · exact .inr nofun
  · apply Returns.flatMap
    intro x _
    cases x with
    | enqueueTask => exact visit_returns .pool (by simp [allowed])
    | insertTask => exact visit_returns .retrier (.inr (.inr ⟨i, rfl⟩))

/-- The mutex is taken, and what is found is dealt with inside it. -/
theorem found_follows {found : NextEvent} (h : found ≠ .due) :
    Follows allowed [] (.lock .retrier :: found.plan) := by
  have hretrier : Returns allowed [] (visit .retrier) := visit_returns .retrier (.inl rfl)
  have hlock : Follows allowed [] [Op.lock Mutex.retrier] := ⟨.inl rfl, trivial⟩
  cases found with
  | nothing => exact hretrier.follows
  | later => exact (hretrier.append hretrier).follows
  | shutdown waited =>
    cases waited with
    | false => exact hlock
    | true =>
      show Follows allowed [] (visit .retrier ++ [.lock .retrier])
      rw [follows_append, hretrier.held]
      exact ⟨hretrier.follows, hlock⟩
  | due => exact absurd rfl h

theorem plan_follows {c : Call} (hsleeps : Sleeps c) : Follows allowed [] c.plan := by
  have hnone : ∀ m ∈ ([] : List Mutex), m = .retrier ∨ m = .retrierLock :=
    fun _ h ↦ absurd h List.not_mem_nil
  have hpool : Returns allowed [] (visit .pool) := visit_returns .pool List.not_mem_nil
  have hretrier : Returns allowed [] (visit .retrier) := visit_returns .retrier (.inl rfl)
  cases c with
  | taskStop i inside ended =>
    exact ((hpool.append (taskStop_returns i inside)).append (delete_returns hnone ended)).follows
  | taskExecute waits i failed ended =>
    have hinstance : Returns allowed [] (visit (.workflowInstance i)) :=
      visit_returns (.workflowInstance i) (.inr hnone)
    exact (((((hpool.append (returns_ite hpool)).append hpool).append hinstance).append
      (returns_ite hpool)).append (delete_returns hnone ended)).follows
  | retryThread events found =>
    have hloop : Returns allowed [] (events.flatMap (fun r ↦ visit .retrier ++ r.plan) ++ visit .retrier) :=
      (Returns.flatMap fun r _ ↦ hretrier.append (restart_returns hnone r)).append hretrier
    unfold Call.plan
    rw [follows_append, hloop.held]
    exact ⟨hloop.follows, found_follows hsleeps⟩
  | cancel i found removed =>
    refine ((passOn_returns _).append (returns_ite (Returns.append ?_ hpool))).follows
    have hlock : allowed [] .retrierLock := rfl
    exact Returns.around hlock (flush_returns (.inr rfl) _)
  | killTask i found => exact (passOn_returns _).follows
  | sendStatus instances => exact (passOn_returns instances).follows

/-! ## What guarded runs keep -/

structure Inv (s : Threads) : Prop where
  follows : ∀ a ∈ s, Follows allowed a.held a.todo
  /-- Nobody is at `InsertTask` while another thread is in the loop of `Flush`. -/
  clear : ∀ a ∈ s, ∀ b ∈ s, Flushing a → ¬Inserting b

/-- A thread at `InsertTask` does not hold the mutex that it waits for. -/
theorem not_flushing_of_inserting (hfollows : Follows allowed a.held a.todo) (h : Inserting a) :
    ¬Flushing a := by
  intro hflushing
  rcases hfollows.allowed_wanted h.1 with hheld | hheld | ⟨i, hheld⟩
  all_goals
    have hin := hflushing.1
    rw [hheld] at hin
    simp at hin

theorem Inv.set (h : Inv s) {t : Nat} (hfollows : Follows allowed b.held b.todo)
    (hflushing : Flushing b → ∀ c ∈ s, ¬Inserting c) (hinserting : Inserting b → ∀ c ∈ s, ¬Flushing c) :
    Inv (s.set t b) := by
  constructor
  case follows =>
    intro c hc
    rcases List.mem_or_eq_of_mem_set hc with hin | heq
    · exact h.follows c hin
    · rw [heq]
      exact hfollows
  case clear =>
    intro c hc d hd hflush hinsert
    rcases List.mem_or_eq_of_mem_set hc with hcin | hceq
    · rcases List.mem_or_eq_of_mem_set hd with hdin | hdeq
      · exact h.clear c hcin d hdin hflush hinsert
      · rw [hdeq] at hinsert
        exact hinserting hinsert c hcin hflush
    · rw [hceq] at hflush
      rcases List.mem_or_eq_of_mem_set hd with hdin | hdeq
      · exact hflushing hflush d hdin hinsert
      · rw [hdeq] at hinsert
        exact not_flushing_of_inserting hfollows hinsert hflush

/-- A thread that holds nothing is in nobody's way. -/
theorem Inv.set_idle (h : Inv s) {t : Nat} {todo : List (Op Mutex)} (hfollows : Follows allowed [] todo) :
    Inv (s.set t ⟨[], todo⟩) := by
  refine h.set hfollows ?_ ?_
  · intro hflush
    exact absurd hflush.1 List.not_mem_nil
  · intro hinsert
    rcases hinsert.2 with ⟨i, hin⟩
    cases hin

theorem start_inv (n : Nat) : Inv (start n) := by
  have hidle : ∀ a ∈ start n, a = .idle := fun a ha ↦ List.eq_of_mem_replicate ha
  constructor
  case follows =>
    intro a ha
    rw [hidle a ha]
    trivial
  case clear =>
    intro a ha b hb hflush
    rw [hidle a ha] at hflush
    exact absurd hflush.1 List.not_mem_nil

theorem step_inv {action : LockAction} (h : Inv s) (hok : Guarded s action)
    (hstep : step s action = some s') : Inv s' := by
  cases action with
  | call t c =>
    unfold step at hstep
    dsimp only at hstep
    by_cases hidle : s[t]? = some .idle
    · rw [if_pos hidle, Option.some.injEq] at hstep
      rw [← hstep]
      exact h.set_idle (plan_follows hok)
    · rw [if_neg hidle] at hstep
      cases hstep
  | signal t removed =>
    unfold step at hstep
    cases ha : s[t]? with
    | none => simp [ha] at hstep
    | some a =>
      have hheld := hok a ha
      have hthere : ¬ (a.todo = [] ∧ a.held ≠ []) := fun h ↦ h.2 hheld
      simp only [ha, if_neg hthere, Option.some.injEq] at hstep
      have hfollows := h.follows a (List.mem_of_getElem? ha)
      have hflush := flush_returns (.inl rfl) removed
      rw [hheld] at hfollows hstep
      rw [← hstep]
      apply h.set_idle
      rw [follows_append, hflush.held]
      exact ⟨hflush.follows, hfollows⟩
  | step t =>
    rcases step_eq_some hstep with ⟨a, ha, -, heq⟩
    have hin := List.mem_of_getElem? ha
    have hguard := hok a ha
    rw [heq]
    refine h.set (h.follows a hin).next ?_ hguard.2
    intro hflush
    by_cases hbefore : Flushing a
    · exact fun c hc ↦ h.clear a hin c hc hbefore
    · exact hguard.1 hflush hbefore

/-! ## No circle -/

/-- On a circle of waiting threads, each waits for a mutex of another one on it. -/
theorem cycle_behind {t : Nat} (h : Relation.TransGen (WaitsFor s) t t) :
    ∃ a m u b, s[t]? = some a ∧ a.wanted = some m ∧ s[u]? = some b ∧ m ∈ b.held ∧
      Relation.TransGen (WaitsFor s) u u := by
  rcases exists_behind h with ⟨u, ⟨a, b, m, ha, hb, hwanted, hheld⟩, hu⟩
  exact ⟨a, m, u, b, ha, hwanted, hb, hheld, hu⟩

theorem held_ne_nil_of_cycle {t : Nat} (h : Relation.TransGen (WaitsFor s) t t)
    (ha : s[t]? = some a) : a.held ≠ [] := by
  rcases exists_before h with ⟨u, ⟨c, a', m, -, ha', -, hheld⟩, -⟩
  rw [ha, Option.some.injEq] at ha'
  rw [ha']
  exact List.ne_nil_of_mem hheld

/-- Nobody on a circle waits for `retrier_lock`: nothing is held there. -/
theorem not_retrierLock_of_cycle (h : Inv s) {t : Nat} (hcycle : Relation.TransGen (WaitsFor s) t t)
    (ha : s[t]? = some a) : a.wanted ≠ some .retrierLock := by
  intro hwanted
  have hfollows := h.follows a (List.mem_of_getElem? ha)
  exact held_ne_nil_of_cycle hcycle ha (hfollows.allowed_wanted hwanted)

/-- Nobody on a circle waits for the pool: its holder waits for nothing. -/
theorem not_pool_of_cycle (h : Inv s) {t : Nat} (hcycle : Relation.TransGen (WaitsFor s) t t)
    (ha : s[t]? = some a) : a.wanted ≠ some .pool := by
  intro hwanted
  rcases cycle_behind hcycle with ⟨a', m, u, b, ha', hm, hb, hheld, hu⟩
  rw [ha, Option.some.injEq] at ha'
  rw [← ha', hwanted, Option.some.injEq] at hm
  rw [← hm] at hheld
  rcases cycle_behind hu with ⟨b', m', -, -, hb', hm', -⟩
  rw [hb, Option.some.injEq] at hb'
  rw [← hb'] at hm'
  have hallowed := (h.follows b (List.mem_of_getElem? hb)).allowed_wanted hm'
  cases m' with
  | workflowInstance i =>
    rcases hallowed with heq | hall
    · rw [heq] at hheld
      simp at hheld
    · rcases hall _ hheld with heq | heq <;> cases heq
  | retrier =>
    rcases hallowed with heq | heq | ⟨i, heq⟩
    all_goals
      rw [heq] at hheld
      simp at hheld
  | retrierLock =>
    rw [show b.held = [] from hallowed] at hheld
    cases hheld
  | workflowInstances => rcases hallowed _ hheld with heq | heq <;> cases heq
  | pool => exact hallowed hheld

/-- Nobody on a circle waits for the mutex of the `Retrier`: its holder would be in the loop of `Flush`,
and the one that waits at `InsertTask`. -/
theorem not_retrier_of_cycle (h : Inv s) {t : Nat} (hcycle : Relation.TransGen (WaitsFor s) t t)
    (ha : s[t]? = some a) : a.wanted ≠ some .retrier := by
  intro hwanted
  have hin := List.mem_of_getElem? ha
  have hinserting : Inserting a := by
    refine ⟨hwanted, ?_⟩
    rcases (h.follows a hin).allowed_wanted hwanted with heq | heq | ⟨i, heq⟩
    · exact absurd heq (held_ne_nil_of_cycle hcycle ha)
    · -- the one before waits for `retrier_lock`
      rcases exists_before hcycle with ⟨u, ⟨c, a', m, hc, ha', hm, hheld⟩, hu⟩
      rw [ha, Option.some.injEq] at ha'
      rw [← ha', heq] at hheld
      rw [List.mem_singleton.mp hheld] at hm
      exact absurd hm (not_retrierLock_of_cycle h hu hc)
    · exact ⟨i, by rw [heq]; exact List.mem_cons_self⟩
  rcases cycle_behind hcycle with ⟨a', m, u, b, ha', hm, hb, hheld, hu⟩
  rw [ha, Option.some.injEq] at ha'
  rw [← ha', hwanted, Option.some.injEq] at hm
  rw [← hm] at hheld
  rcases cycle_behind hu with ⟨b', m', -, -, hb', hm', -⟩
  rw [hb, Option.some.injEq] at hb'
  rw [← hb'] at hm'
  refine h.clear b (List.mem_of_getElem? hb) a hin ⟨hheld, ?_, ?_⟩ hinserting
  · intro htodo
    unfold Activity.wanted at hm'
    rw [htodo] at hm'
    cases hm'
  · intro hunlock
    rcases b with ⟨held, todo⟩
    cases todo with
    | nil => cases hunlock
    | cons op rest =>
      obtain rfl : op = .unlock .retrier := Option.some.inj hunlock
      cases hm'

theorem Inv.not_deadlock (h : Inv s) : ¬Deadlock s := by
  intro hdeadlock
  rcases hdeadlock with ⟨t, hcycle⟩
  -- two threads one behind the other, and what each of them waits for
  rcases cycle_behind hcycle with ⟨a, m, u, b, ha, hm, hb, hheld, hu⟩
  rcases cycle_behind hu with ⟨b', m', v, c, hb', hm', hc, hheld', hv⟩
  rw [hb, Option.some.injEq] at hb'
  rw [← hb'] at hm'
  have hallowed := (h.follows b (List.mem_of_getElem? hb)).allowed_wanted hm'
  have hback : ¬∀ m ∈ b.held, m = .retrier ∨ m = .retrierLock := by
    intro hall
    rcases hall m hheld with heq | heq
    · rw [heq] at hm
      exact not_retrier_of_cycle h hcycle ha hm
    · rw [heq] at hm
      exact not_retrierLock_of_cycle h hcycle ha hm
  cases m' with
  | workflowInstances => exact hback hallowed
  | retrier => exact not_retrier_of_cycle h hu hb hm'
  | retrierLock => exact not_retrierLock_of_cycle h hu hb hm'
  | pool => exact not_pool_of_cycle h hu hb hm'
  | workflowInstance i =>
    rcases hallowed with heq | hall
    · -- the next one holds the lock of an instance, and waits for another one inside it
      rcases cycle_behind hv with ⟨c', m'', -, -, hc', hm'', -⟩
      rw [hc, Option.some.injEq] at hc'
      rw [← hc'] at hm''
      have hlast := (h.follows c (List.mem_of_getElem? hc)).allowed_wanted hm''
      cases m'' with
      | workflowInstances => rcases hlast _ hheld' with h | h <;> cases h
      | retrier => exact not_retrier_of_cycle h hv hc hm''
      | retrierLock => exact not_retrierLock_of_cycle h hv hc hm''
      | pool => exact not_pool_of_cycle h hv hc hm''
      | workflowInstance j =>
        rcases hlast with heq | hall
        · rw [heq] at hheld'
          simp at hheld'
        · rcases hall _ hheld' with h | h <;> cases h
    · exact hback hall

/-- Along every run whose steps are guarded, no threads wait for each other in a circle. -/
theorem not_deadlock_of_guarded (n : Nat) (actions : List LockAction) (s : Threads)
    (hok : Meets step Guarded (start n) actions) (hrun : run step (start n) actions = some s) :
    ¬Deadlock s :=
  Inv.not_deadlock (run_invariant (fun _ _ _ ↦ step_inv) (start_inv n) hok hrun)

/-- A task of instance 1 fails and is retried; the retry thread goes to sleep, and afterwards the `Retrier`
is flushed. -/
def stopThenFlush : List LockAction :=
  [.call 0 (.taskStop 1 [.insertTask] false), .step 0, .step 0, .step 0, .step 0, .step 0, .step 0,
    .call 2 (.retryThread [] .later), .step 2, .step 2, .step 2, .step 2,
    .signal 1 [⟨1, true, false⟩], .step 1, .step 1, .step 1, .step 1, .step 1, .step 1]

theorem not_deadlock_stopThenFlush : ∃ s, run step (start 3) stopThenFlush = some s ∧ ¬Deadlock s :=
  ⟨_, rfl, not_deadlock_of_guarded 3 stopThenFlush _ (by decide) rfl⟩

/-- The gatherer stops a task of instance 1 and is about to plan a retry, while `Flush` has taken an
event of this instance from the list. -/
def stopDuringFlush : List LockAction :=
  [.call 0 (.taskStop 1 [.insertTask] false), .step 0, .step 0, .step 0,
    .signal 1 [⟨1, true, false⟩], .step 1]

/-- The next event has become due since the retry thread read the clock. -/
def dueBeforeSleep : List LockAction :=
  [.call 0 (.retryThread [] .due), .step 0, .step 0, .step 0]

/-- Two threads wait for each other, and the retry thread waits for itself. -/
theorem deadlock_stopDuringFlush :
    (∃ s, run step (start 2) stopDuringFlush = some s ∧ Deadlock s) ∧
      ∃ s, run step (start 1) dueBeforeSleep = some s ∧ Deadlock s := by
  apply And.intro
  · refine ⟨_, rfl, 0, ?_⟩
    apply Relation.TransGen.tail (b := 1)
    · exact .single ⟨_, _, .retrier, rfl, rfl, rfl, by decide⟩
    · exact ⟨_, _, .workflowInstance 1, rfl, rfl, rfl, by decide⟩
  · exact ⟨_, rfl, 0, .single ⟨_, _, .retrier, rfl, rfl, rfl, by decide⟩⟩

end EngineLocks

end EvQueue
