import Mathlib.Algebra.Order.BigOperators.Group.List
import Mathlib.Algebra.Order.Ring.Nat
import Mathlib.Data.DFinsupp.WellFounded
import EvQueue.Base.Descent
import EvQueue.WorkflowInstanceCourses
import EvQueue.WorkflowInstanceLevels

/-!
# WorkflowInstanceEnds — every workflow comes to its end

A launch may add any number of jobs and tasks, but only below the job that is launched, and no job is
launched twice.  So the numbers of the jobs that were not launched yet, level by level from the top, become
smaller in the lexicographic order.  Every other call takes one step of one task, and a task whose retries
are counted down has only so many of them.
-/

namespace EvQueue

open Runs

variable {Node : Type}

namespace WorkflowInstance

variable {env : Environment Node} {s s' : WorkflowInstance Node} {id : Nat} {task task' : TaskNode Node}
variable {k r : Int}

/-! ## The steps that are left to the tasks -/

def Limited (s : WorkflowInstance Node) : Prop :=
  ∀ t ∈ s.doc.tasks, t.Limited s.doc.schedules

def stepsOf (s : WorkflowInstance Node) (id : Nat) : Nat :=
  match s.doc.task? id with
  | none => 0
  | some t => t.stepsLeft s.doc.schedules (id ∈ s.retrier)

def stepsLeft (s : WorkflowInstance Node) : Nat := ((s.doc.tasks.map TaskNode.id).map s.stepsOf).sum

/-- The call takes a step of task `id`. -/
def Stepped (id : Nat) (s s' : WorkflowInstance Node) : Prop :=
  ∃ t standing, s.doc.task? id = some t ∧ Acts id standing s s' ∧ standing.task.job = t.job ∧
    (t.Limited s.doc.schedules → standing.task.Limited s.doc.schedules ∧
      standing.task.stepsLeft s.doc.schedules standing.waits <
        t.stepsLeft s.doc.schedules (id ∈ s.retrier))

theorem task?_of_mem_tasks (h : s.view.Inv k r) (ht : task ∈ s.doc.tasks) :
    s.doc.task? task.id = some task := by
  have hnodup := h.tasksNodup
  unfold view at hnodup
  rw [List.map_map] at hnodup
  rcases task?_of_mem h (List.mem_map_of_mem ht) with ⟨found, hfind, -⟩
  rw [← List.inj_on_of_nodup_map hnodup (task?_spec hfind).1 ht (task?_spec hfind).2]
  rw [← (task?_spec hfind).2] at hfind
  exact hfind

theorem Stepped.jobs (h : Stepped id s s') : s'.view.jobs = s.view.jobs := by
  rcases h with ⟨t, standing, -, hacts, -⟩
  unfold view
  rw [hacts.task.jobs]

theorem Stepped.launched (h : Stepped id s s') : s'.view.launched = s.view.launched := by
  rcases h with ⟨t, standing, -, hacts, -⟩
  unfold view
  rw [hacts.trace]

theorem Stepped.nextId (h : Stepped id s s') : s'.doc.nextId = s.doc.nextId := by
  rcases h with ⟨t, standing, -, hacts, -⟩
  exact hacts.task.nextId

/-- A property of tasks that the call keeps for its task holds of all tasks behind it. -/
theorem Acts.forall_tasks {standing : Standing Node} (h : Acts id standing s s')
    (hinv : s'.view.Inv k r) {P : TaskNode Node → Prop} (hP : ∀ t ∈ s.doc.tasks, P t)
    (hstanding : P standing.task) : ∀ t ∈ s'.doc.tasks, P t := by
  intro x hx
  have hfind := task?_of_mem_tasks hinv hx
  by_cases hid : x.id = id
  · rw [hid, h.task.task, Option.some.injEq] at hfind
    rw [← hfind]
    exact hstanding
  · rw [h.task.others x.id hid] at hfind
    exact hP x (task?_spec hfind).1

theorem Stepped.limited (h : Stepped id s s') (hinv : s'.view.Inv k r) (hlimited : s.Limited) :
    s'.Limited := by
  rcases h with ⟨t, standing, hfind, hacts, -, hsteps⟩
  unfold Limited
  rw [hacts.task.schedules]
  exact hacts.forall_tasks hinv hlimited (hsteps (hlimited t (task?_spec hfind).1)).1

theorem Stepped.jobsKnown (h : Stepped id s s') (hinv : s'.view.Inv k r) (hknown : s.JobsKnown) :
    s'.JobsKnown := by
  rcases h with ⟨t, standing, hfind, hacts, hjob, -⟩
  unfold JobsKnown
  rw [hacts.task.jobs]
  apply hacts.forall_tasks hinv hknown
  rw [hjob]
  exact hknown t (task?_spec hfind).1

theorem Stepped.stepsLeft_lt (h : Stepped id s s') (hlimited : s.Limited) :
    s'.stepsLeft < s.stepsLeft := by
  rcases h with ⟨t, standing, hfind, hacts, -, hsteps⟩
  have hlt : s'.stepsOf id < s.stepsOf id := by
    unfold stepsOf
    rw [hacts.task.task, hfind, hacts.task.schedules]
    have hwaits : decide (id ∈ s'.retrier) = standing.waits :=
      Bool.eq_iff_iff.mpr (decide_eq_true_iff.trans hacts.waits)
    simp only [hwaits]
    exact (hsteps (hlimited t (task?_spec hfind).1)).2
  unfold stepsLeft
  rw [hacts.task.ids]
  apply List.sum_lt_sum
  · intro x _
    by_cases hid : x = id
    · rw [hid]
      exact Nat.le_of_lt hlt
    · -- the other tasks have the steps they had
      apply Nat.le_of_eq
      unfold stepsOf
      rw [hacts.task.others x hid, hacts.task.schedules]
      simp only [hacts.others x hid]
  · exact ⟨id, List.mem_map.mpr ⟨t, task?_spec hfind⟩, hlt⟩

/-! ### The calls -/

/-- A task that is queued or executing waits for no retry. -/
theorem notMem_retrier (h : s.view.Inv k r) (hfind : s.doc.task? id = some task)
    (hstatus : task.status ≠ some .terminated) : id ∉ s.retrier := by
  intro hin
  rcases h.retrier id hin with ⟨t, ht, hid, hterminated, -⟩
  rw [h.task_unique ht (key_mem hfind) (hid.trans (task?_spec hfind).2.symm)] at hterminated
  exact hstatus hterminated

theorem task?_of_queued (h : s.view.Inv k r) (hid : id ∈ s.queued) :
    ∃ task, s.doc.task? id = some task ∧ task.status = some .queued := by
  rcases (h.queued id).mp hid with ⟨t, ht, htid, hstatus⟩
  rcases task?_of_mem h ht with ⟨task, hfind, hkey⟩
  rw [htid] at hfind
  rw [← hkey] at hstatus
  exact ⟨task, hfind, hstatus⟩

theorem taskExecute_stepped (env : Environment Node) (h : s.view.Inv 0 0) (hid : id ∈ s.queued) :
    Stepped id s ({ s with queued := s.queued.erase id }.taskExecute env id).1 := by
  rcases task?_of_queued h hid with ⟨task, hfind, hstatus⟩
  have hout := notMem_retrier h hfind (by simp [hstatus])
  have hsteps := TaskNode.stepsLeft_execute s.doc.schedules env s.isCancelling task
  refine ⟨task, _, hfind, acts_taskExecute env hfind hout, task.job_execute env s.isCancelling, ?_⟩
  intro hlimited
  rw [decide_eq_false hout, (TaskNode.SameRetry.refl task).stepsLeft_queued hstatus]
  exact ⟨hsteps.1.limited hlimited, by omega⟩

theorem taskRestart_stepped (env : Environment Node) (h : s.view.Inv 0 0) (hid : id ∈ s.retrier) :
    Stepped id s ({ s with retrier := s.retrier.erase id }.taskRestart env id).1 := by
  rcases h.retrier id hid with ⟨t, ht, htid, -⟩
  rcases task?_of_mem h ht with ⟨task, hfind, -⟩
  rw [htid] at hfind
  have hsteps := TaskNode.stepsLeft_enqueue s.doc.schedules env s.isCancelling task
  refine ⟨task, _, hfind, acts_taskRestart env hfind h.retrierNodup,
    task.job_enqueue env s.isCancelling, ?_⟩
  intro hlimited
  rw [decide_eq_true hid]
  show _ ∧ _ < 4 * task.retriesLeft s.doc.schedules + 3
  exact ⟨hsteps.1.limited hlimited, by omega⟩

/-- What `TaskStop` does to the task: it is over, or waits for a retry that was left to it. -/
theorem recordStop_stepped (env : Environment Node) (h : s.view.Inv 0 0)
    (hfind : s.doc.task? id = some task) (hstatus : task.status = some .executing) (retval : Int)
    (output : String) : Stepped id s (s.recordStop env task retval output) := by
  have hout := notMem_retrier h hfind (by simp [hstatus])
  refine ⟨task, _, hfind, acts_recordStop env hfind hout retval output,
    task.job_stop env s.isCancelling s.doc.schedules retval output, ?_⟩
  intro hlimited
  have hsteps := hlimited.stop env s.isCancelling retval output
  rw [decide_eq_false hout, (TaskNode.SameRetry.refl task).stepsLeft_executing hstatus]
  exact ⟨hsteps.1, by omega⟩

/-! ## The jobs that are left -/

/-- The jobs of a level that were not launched. -/
def jobsLeft (level : Nat → Nat) (e : Nat) (s : WorkflowInstance Node) : Nat :=
  (s.view.jobs.map Prod.fst).countP fun x ↦ level x = e ∧ x ∉ s.view.launched

/-- Level by level the jobs that are left, and behind the last level the steps of the tasks. -/
def rank (level : Nat → Nat) (n : Nat) (s : WorkflowInstance Node) : Lex (Fin (n + 2) → Nat) :=
  toLex fun i ↦ if i.val ≤ n then s.jobsLeft level i.val else s.stepsLeft

variable {level level' : Nat → Nat} {n d e : Nat}

theorem jobsLeft_shallow (he : e ≤ d) : s.jobsLeft level e =
    (s.view.shallow level d).countP fun x ↦ level x = e ∧ x ∉ s.view.launched := by
  unfold jobsLeft View.shallow
  rw [List.countP_filter]
  apply List.countP_congr
  intro x _
  by_cases heq : level x = e
  · have hle : level x ≤ d := by omega
    simp [heq, he]
  · simp [heq]

/-- A job is launched, and nothing changes above it: its level has one job less, and the levels above it
have as many as before. -/
theorem Deepens.jobsLeft {first : WorkflowInstance Node} {job : Nat}
    (h : Deepens level n d first s level') (hgraded : first.view.Graded level n)
    (hlaunched : s.view.launched = first.view.launched ++ [job]) (hlevel : level job = d)
    (hjob : job ∈ first.view.jobs.map Prod.fst) (hnot : job ∉ first.view.launched) :
    (∀ e < d, s.jobsLeft level' e = first.jobsLeft level e) ∧
      s.jobsLeft level' d < first.jobsLeft level d := by
  have hagree : ∀ x ∈ first.view.shallow level d, level' x = level x := by
    intro x hx
    rcases List.mem_map.mp (List.mem_of_mem_filter hx) with ⟨j, hj, hjx⟩
    rw [← hjx]
    exact h.agree j.1 (hgraded.bound j hj).1
  constructor
  · intro e he
    rw [jobsLeft_shallow (Nat.le_of_lt he), jobsLeft_shallow (Nat.le_of_lt he), h.shallow, hlaunched]
    apply List.countP_congr
    intro x hx
    rw [hagree x hx]
    by_cases heq : x = job
    · have hne : level x ≠ e := by
        rw [heq, hlevel]
        omega
      simp [hne]
    · simp [heq]
  · rw [jobsLeft_shallow (Nat.le_refl d), jobsLeft_shallow (Nat.le_refl d), h.shallow, hlaunched]
    have hin : job ∈ first.view.shallow level d :=
      List.mem_filter.mpr ⟨hjob, decide_eq_true (Nat.le_of_eq hlevel)⟩
    apply countP_lt_countP _ hin
    · simp [hlevel, hnot]
    · simp
    · intro x hx hcount
      have hcount := of_decide_eq_true hcount
      rw [hagree x hx, List.mem_append, not_or] at hcount
      exact decide_eq_true ⟨hcount.1, hcount.2.1⟩

theorem rank_lt_of_jobsLeft (hd : d ≤ n) (hsame : ∀ e < d, s'.jobsLeft level' e = s.jobsLeft level e)
    (hlt : s'.jobsLeft level' d < s.jobsLeft level d) : s'.rank level' n < s.rank level n := by
  refine ⟨⟨d, by omega⟩, ?_, ?_⟩
  · intro j hj
    have hj : j.val < d := hj
    have hle : j.val ≤ n := by omega
    show (if j.val ≤ n then _ else _) = if j.val ≤ n then _ else _
    rw [if_pos hle, if_pos hle]
    exact hsame j.val hj
  · show (if d ≤ n then _ else _) < if d ≤ n then _ else _
    rw [if_pos hd, if_pos hd]
    exact hlt

/-- A step of a task leaves the jobs as they are. -/
theorem Stepped.rank_lt (h : Stepped id s s') (hlimited : s.Limited) (level : Nat → Nat) (n : Nat) :
    s'.rank level n < s.rank level n := by
  refine ⟨⟨n + 1, by omega⟩, ?_, ?_⟩
  · intro j hj
    have hj : j.val < n + 1 := hj
    have hle : j.val ≤ n := by omega
    show (if j.val ≤ n then _ else _) = if j.val ≤ n then _ else _
    rw [if_pos hle, if_pos hle]
    unfold jobsLeft
    rw [h.jobs, h.launched]
  · show (if n + 1 ≤ n then _ else _) < if n + 1 ≤ n then _ else _
    rw [if_neg (by omega), if_neg (by omega)]
    exact h.stepsLeft_lt hlimited

/-- What the rank stands on. -/
structure Ending (level : Nat → Nat) (n : Nat) (s : WorkflowInstance Node) : Prop where
  graded : s.view.Graded level n
  jobsKnown : s.JobsKnown
  limited : s.Limited

theorem Stepped.ending (h : Stepped id s s') (hinv : s'.view.Inv k r) (hending : s.Ending level n) :
    s'.Ending level n := by
  constructor
  case graded => exact hending.graded.same h.jobs (Nat.le_of_eq h.nextId.symm)
  case jobsKnown => exact h.jobsKnown hinv hending.jobsKnown
  case limited => exact h.limited hinv hending.limited

theorem runSubjobs_ending (env : Environment Node) (job : Nat) (h : s.Ending level n) :
    ∃ level', Deepens level n (level job) s (runSubjobs env job s).1 level' ∧
      (runSubjobs env job s).1.Ending level' n := by
  have hedits := runSubjobs_edits env job s
  rcases runSubjobs_deepens env job h.graded with ⟨level', hdeepens⟩
  refine ⟨level', hdeepens, hdeepens.graded, hedits.jobsKnown h.jobsKnown, ?_⟩
  have hinherits := hedits.inherits
  intro t' ht'
  rcases hinherits.tasks t' ht' with ⟨t, ht, hsame⟩
  rw [hinherits.schedules]
  exact hsame.limited (h.limited t ht)

theorem launched_runSubjobs (env : Environment Node) (job : Nat) (s : WorkflowInstance Node) :
    (runSubjobs env job s).1.view.launched = s.view.launched ++ [job] := by
  rw [(runSubjobs_edits env job s).launched, view_log]
  rfl

/-- A task that stops takes a step, or launches its job. -/
theorem taskStop_rank (env : Environment Node) (h : s.view.Inv 0 0)
    (hfind : s.doc.task? id = some task) (hstatus : task.status = some .executing) (retval : Int)
    (output : String) (hending : s.Ending level n) :
    ∃ level', (s.taskStop env id retval output).1.Ending level' n ∧
      (s.taskStop env id retval output).1.rank level' n < s.rank level n := by
  have hstepped := recordStop_stepped env h hfind hstatus retval output
  have hinv := recordStop_inv env h hfind hstatus retval output
  have hlast {s' : WorkflowInstance Node} (hs' : s.recordStop env task retval output = s') :=
    recordStop_last env h hfind hstatus retval output hs'
  unfold taskStop
  rw [hfind]
  dsimp only
  generalize heq : s.recordStop env task retval output = s' at hinv hstepped
  have hending' := hstepped.ending hinv hending
  have hlt := hstepped.rank_lt hending.limited level n
  by_cases hall : (s'.doc.tasksOf task.job).length =
      (s'.doc.tasksOf task.job).countP TaskNode.successful
  · rw [if_pos hall]
    have hready := hlast heq hall
    rcases runSubjobs_ending env task.job hending' with ⟨level', hdeepens, hlaunched⟩
    -- the job is one of the document
    rcases hready.2.2.1 with ⟨key, hkey, hjob⟩
    rcases List.mem_map.mp hkey with ⟨t, ht, htkey⟩
    have hjobs : task.job ∈ s'.view.jobs.map Prod.fst := by
      have hknown := hending'.jobsKnown t ht
      rw [show t.job = task.job by rw [← hjob, ← htkey]; rfl] at hknown
      unfold view
      rw [List.map_map]
      exact hknown
    rcases List.mem_map.mp hjobs with ⟨j, hj, hjid⟩
    have hdepth := hending'.graded.depth j hj
    rw [hjid] at hdepth
    have hfewer := hdeepens.jobsLeft hending'.graded (launched_runSubjobs env task.job s') rfl hjobs
      hready.1
    refine ⟨level', ⟨hlaunched.graded.same rfl (Nat.le_refl _), hlaunched.jobsKnown,
      hlaunched.limited⟩, ?_⟩
    exact lt_trans (rank_lt_of_jobsLeft hdepth hfewer.1 hfewer.2) hlt
  · rw [if_neg hall]
    exact ⟨level, ⟨hending'.graded.same rfl (Nat.le_refl _), hending'.jobsKnown, hending'.limited⟩, hlt⟩

end WorkflowInstance

/-! ## Runs -/

/-- No number of retries is negative, of a task or of a level, and the schedules are there. -/
def Document.Limited (d : Document Node) : Prop := ∀ t ∈ d.tasks, t.Limited d.schedules

namespace Lifetime

variable {l l' : Lifetime Node} {n : Nat}

def Ranked (n : Nat) (l : Lifetime Node) (r : Lex (Fin (n + 2) → Nat)) : Prop :=
  l.Sound ∧ ∃ level, l.workflow.Ending level n ∧ l.workflow.rank level n = r

/-- Every call but `Cancel` makes the rank smaller. -/
theorem step_descends (n : Nat) :
    Descends step (fun operation : Operation Node ↦ operation = .cancel) (Ranked n) := by
  constructor
  case keeps =>
    intro l operation l' r hidle hranked hstep
    rcases hranked with ⟨hsound, level, hending, hrank⟩
    have hsound' := step_sound hsound hstep
    rw [hidle] at hstep
    rw [(step_cancel hstep).2] at hsound' ⊢
    exact ⟨hsound', level, ⟨hending.graded, hending.jobsKnown, hending.limited⟩, hrank⟩
  case lowers =>
    intro l operation l' r hidle hranked hstep
    rcases hranked with ⟨hsound, level, hending, hrank⟩
    have hsound' := step_sound hsound hstep
    rw [← hrank]
    cases operation with
    | taskExecute env id =>
      rcases step_taskExecute hstep with ⟨hid, heq⟩
      rw [heq] at hsound' ⊢
      have hstepped := WorkflowInstance.taskExecute_stepped env hsound.inv hid
      exact ⟨_, hstepped.rank_lt hending.limited level n, hsound', level,
        hstepped.ending hsound'.inv hending, rfl⟩
    | taskStop env id retval output =>
      rcases step_taskStop hstep with ⟨task, hfind, hstatus, heq⟩
      rw [heq] at hsound' ⊢
      rcases WorkflowInstance.taskStop_rank env hsound.inv hfind hstatus retval output hending with
        ⟨level', hending', hlt⟩
      exact ⟨_, hlt, hsound', level', hending', rfl⟩
    | taskRestart env id =>
      rcases step_taskRestart hstep with ⟨hid, heq⟩
      rw [heq] at hsound' ⊢
      have hstepped := WorkflowInstance.taskRestart_stepped env hsound.inv hid
      exact ⟨_, hstepped.rank_lt hending.limited level n, hsound', level,
        hstepped.ending hsound'.inv hending, rfl⟩
    | cancel => exact absurd rfl hidle

theorem start_ranked (env : Environment Node) {doc : Document Node} (hdoc : doc.WellFormed)
    (hlimited : doc.Limited) : ∃ n r, Ranked n (start env doc) r := by
  rcases hdoc.graded with ⟨level, n, hgraded⟩
  have hending : (WorkflowInstance.create doc).Ending level n :=
    ⟨hgraded, fun t ht ↦ (hdoc.tasksBound t ht).2, hlimited⟩
  rcases WorkflowInstance.runSubjobs_ending env 0 hending with ⟨level', -, hending'⟩
  exact ⟨n, _, start_sound env hdoc, level', hending', rfl⟩

/-- **Every workflow comes to its end**: whatever the expressions, the queues and the tasks answer, and in
whatever order, only finitely many calls are made to an instance, but for `Cancel`. -/
theorem only_cancel_forever (env : Environment Node) (doc : Document Node)
    (states : Nat → Lifetime Node) (operations : Nat → Operation Node) (hdoc : doc.WellFormed)
    (hlimited : doc.Limited) (hstart : states 0 = start env doc)
    (hrun : Endless step states operations) : ∃ n, ∀ m ≥ n, operations m = .cancel := by
  rcases start_ranked env hdoc hlimited with ⟨n, r, hranked⟩
  rw [← hstart] at hranked
  exact (step_descends n).eventually_idle hrun hranked

/-- The task fails once, and while it waits for its retry the instance is cancelled again and again. -/
def failsThenCancelled (n : Nat) : Operation Unit := (failsOnce.take 2).getD n .cancel

def statesThenCancelled : Nat → Lifetime Unit
  | 0 => start twoNodes retriedThenLooped
  | n + 1 => ((statesThenCancelled n).step (failsThenCancelled n)).getD (statesThenCancelled n)

/-- Once cancelled, the instance stays as it is. -/
theorem statesThenCancelled_add (n : Nat) : statesThenCancelled (n + 3) = statesThenCancelled 3 := by
  induction n with
  | zero => rfl
  | succ n ih =>
    show ((statesThenCancelled (n + 3)).step .cancel).getD (statesThenCancelled (n + 3)) = _
    rw [ih]
    rfl

theorem only_cancel_of_failsThenCancelled : ∃ n, ∀ m ≥ n, failsThenCancelled m = .cancel := by
  refine only_cancel_forever twoNodes retriedThenLooped statesThenCancelled failsThenCancelled
    retriedThenLooped_wellFormed ?_ rfl ?_
  case refine_2 =>
    intro n
    rcases n with _ | _ | _ | n
    · rfl
    · rfl
    · rfl
    · rw [statesThenCancelled_add n, statesThenCancelled_add (n + 1)]
      rfl
  intro t ht
  refine ⟨?_, ?_, nofun⟩
  · rcases List.mem_cons.mp ht with heq | ht
    · rw [heq]
      exact nofun
    · rw [List.mem_singleton.mp ht]
      exact nofun
  · revert t
    decide

end Lifetime

end EvQueue
