import EvQueue.WorkflowInstanceChanges
import EvQueue.WorkflowInstanceLoops
import EvQueue.WorkflowInstanceRetries

/-!
# WorkflowInstanceFrames — a task that something has happened to is left alone

`run_subjobs` is called for a job that was not launched before, and changes only tasks below that job
that have no status yet, and new ones.  A task with a status stays as it is, whatever is launched.
-/

namespace EvQueue

variable {Node : Type}

namespace Document

variable {d : Document Node} {id x : Nat}

theorem task?_cloneTask (task : TaskNode Node) (hne : id ≠ d.nextId) :
    (d.cloneTask task).task? id = d.task? id := by
  show (d.tasks ++ [{ task with id := d.nextId }]).find?
    (fun t : TaskNode Node ↦ t.id = id) = _
  rw [List.find?_append, List.find?_cons_of_neg (by simpa using hne.symm), List.find?_nil, Option.or_none]
  rfl

theorem task?_removeTask (hne : id ≠ x) : (d.removeTask x).task? id = d.task? id := by
  show (d.tasks.filter fun t : TaskNode Node ↦ t.id ≠ x).find?
    (fun t : TaskNode Node ↦ t.id = id) = _
  rw [List.find?_filter]
  unfold task?
  congr 1
  funext t
  by_cases heq : t.id = id
  · simp [heq, hne]
  · simp [heq]

theorem task?_cloneJob (job : Nat) (hbound : id < d.nextId) :
    (d.cloneJob job).task? id = d.task? id := by
  show (d.tasks ++ List.mapIdx _ _).find?
    (fun t : TaskNode Node ↦ t.id = id) = _
  rw [List.find?_append]
  have hnone : (List.mapIdx (fun i (t : TaskNode Node) ↦
      { t with
        id := d.nextId + (d.subtree job).length + i
        job := d.nextId + (d.subtree job).idxOf t.job })
      (d.tasks.filter fun t ↦ t.job ∈ d.subtree job)).find? (fun t ↦ t.id = id) = none := by
    rw [List.find?_eq_none]
    intro t ht
    rcases List.mem_mapIdx.mp ht with ⟨i, hi, heq⟩
    rw [← heq]
    simp only [decide_eq_true_eq]
    omega
  rw [hnone, Option.or_none]
  rfl

theorem task?_removeJob {job : Nat} {task : TaskNode Node} (hfind : d.task? id = some task)
    (hnot : task.job ∉ d.subtree job) : (d.removeJob job).task? id = some task := by
  show (d.tasks.filter fun t : TaskNode Node ↦ t.job ∉ d.subtree job).find?
    (fun t : TaskNode Node ↦ t.id = id) = _
  unfold task? at hfind
  rw [List.find?_filter]
  have hid : task.id = id := by simpa using List.find?_some hfind
  rw [List.find?_eq_some_iff_append] at hfind ⊢
  rcases hfind with ⟨-, before, behind, heq, hbefore⟩
  refine ⟨by simp [hid, hnot], before, behind, heq, ?_⟩
  intro t ht
  have hother := hbefore t ht
  simp only [Bool.not_eq_true', decide_eq_false_iff_not] at hother
  simp [hother]

end Document

namespace WorkflowInstance

variable {env : Environment Node} {s s' : WorkflowInstance Node} {id job : Nat} {task : TaskNode Node}
variable {k r : Int} {rest : List Nat}

/-! ## `run` -/

/-- Task `id` is as it was before. -/
structure Left (id : Nat) (before s : WorkflowInstance Node) : Prop where
  task : s.doc.task? id = before.doc.task? id
  nextId : before.doc.nextId ≤ s.doc.nextId

variable {before : WorkflowInstance Node} {events : List (Event Node)} {x : Nat}

theorem Left.touched (h : Left id before s) (htouched : Touched x events s s') (hne : id ≠ x) :
    Left id before s' := by
  constructor
  case task => rw [htouched.others hne, h.task]
  case nextId =>
    rw [htouched.nextId]
    exact h.nextId

theorem Left.expandTask (env : Environment Node) (x : Nat) (node : Node) (h : Left id before s)
    (hbound : id < before.doc.nextId) : Left id before (expandTask env x node s).1 := by
  have hnext := h.nextId
  by_cases hopen : x ∈ s.doc.tasks.map TaskNode.id
  · rcases expandTask_spec env node hopen with ⟨task, -, hspec⟩
    have hclone : Left id before { s with doc := s.doc.cloneTask task } := by
      constructor
      case task =>
        show (s.doc.cloneTask task).task? id = _
        rw [Document.task?_cloneTask task (by omega), h.task]
      case nextId =>
        show before.doc.nextId ≤ s.doc.nextId + 1
        omega
    rcases hexpand : WorkflowInstance.expandTask env x node s with ⟨t, _ | e⟩
    · rw [hexpand] at hspec
      rcases hspec with ⟨ready, htouched⟩
      exact hclone.touched htouched (by omega)
    · rw [hexpand] at hspec
      exact hclone.touched hspec (by omega)
  · rw [← task?_isSome, Bool.not_eq_true, Option.isSome_eq_false_iff, Option.isNone_iff_eq_none]
      at hopen
    unfold WorkflowInstance.expandTask
    rw [hopen]
    exact h

theorem taskLoop_left (env : Environment Node) (context : Context Node) (before : WorkflowInstance Node)
    (hbound : id < before.doc.nextId) :
    SnapshotLoop.Keeps (taskLoop env context) (fun rest s ↦ id ∉ rest ∧ Left id before s)
      (fun x rest s ↦ id ∉ x :: rest ∧ Left id before s) (Left id before) := by
  have hvisited {x : Nat} {rest : List Nat} (hnot : id ∉ x :: rest) : id ≠ x ∧ id ∉ rest := by
    rw [List.mem_cons, not_or] at hnot
    exact hnot
  constructor
  case done =>
    intro x rest s s' h hvisit
    have hspec := visitTask_spec env context x s
    rw [show visitTask env context x s = _ from hvisit] at hspec
    rcases hspec with ⟨events, htouched, -⟩
    exact ⟨(hvisited h.1).2, h.2.touched htouched (hvisited h.1).1⟩
  case failed =>
    intro x rest s s' e h hvisit
    have hspec := visitTask_spec env context x s
    rw [show visitTask env context x s = _ from hvisit] at hspec
    exact h.2.touched hspec (hvisited h.1).1
  case matched =>
    intro x rest s s' nodes h hvisit
    have hspec := visitTask_spec env context x s
    rw [show visitTask env context x s = _ from hvisit] at hspec
    exact ⟨h.1, h.2.touched hspec.1 (hvisited h.1).1⟩
  case expand =>
    intro x rest node s s' h hexpand
    have hleft := h.2.expandTask env x node hbound
    rw [show expandTask env x node s = _ from hexpand] at hleft
    exact ⟨h.1, hleft⟩
  case expandFailed =>
    intro x rest node s s' e h hexpand
    have hleft := h.2.expandTask env x node hbound
    rw [show expandTask env x node s = _ from hexpand] at hleft
    exact hleft
  case finish =>
    intro x rest s h
    refine ⟨(hvisited h.1).2, ?_, h.2.nextId⟩
    show (s.doc.removeTask x).task? id = _
    rw [Document.task?_removeTask (hvisited h.1).1, h.2.task]

/-- `run` of a job leaves the tasks of the other jobs alone. -/
theorem run_left (env : Environment Node) (context : Context Node) (hbound : id < s.doc.nextId)
    (hnot : id ∉ (s.doc.tasksOf job).map TaskNode.id) : Left id s (run env job context s).1 := by
  have hkeeps := taskLoop_left env context s hbound
  unfold run
  rcases hrun : SnapshotLoop.iterate (taskLoop env context) SnapshotLoop.readOn
    ((s.doc.tasksOf job).map TaskNode.id) 0 (s.log (.run job)) with ⟨t, e⟩
  have hkeep := hkeeps.iterate (s := s.log (.run job)) ⟨hnot, rfl, Nat.le_refl _⟩ hrun
  cases e with
  | none => exact (hkeep.1 rfl).2
  | some e => exact hkeep.2 (by simp)

/-! ## `run_subjobs` -/

/-- The task has a status, and is looked up as before. -/
def Holding (id : Nat) (task : TaskNode Node) (s : WorkflowInstance Node) : Prop :=
  s.doc.task? id = some task ∧ task.status ≠ none

/-- A task with a status is not in a job that nothing has happened to. -/
theorem Holding.job_ne (h : Holding id task s)
    (hnone : ∀ t ∈ s.view.tasks, t.job = job → t.status = none) : task.job ≠ job :=
  fun hjob ↦ h.2 (hnone task.key (key_mem h.1) hjob)

theorem Holding.bound (h : Holding id task s) (hinv : s.view.Inv k r) : id < s.doc.nextId := by
  have hlt := (hinv.tasksBound task.key (key_mem h.1)).1
  rw [← (task?_spec h.1).2]
  exact hlt

/-- `run` of a job that nothing has happened to. -/
theorem Holding.run (env : Environment Node) (context : Context Node) (h : Holding id task s)
    (hinv : s.view.Inv k r) (hnone : ∀ t ∈ s.view.tasks, t.job = job → t.status = none) :
    Holding id task (run env job context s).1 := by
  have hnot : id ∉ (s.doc.tasksOf job).map TaskNode.id := by
    intro hin
    rcases List.mem_map.mp hin with ⟨t, ht, hid⟩
    rcases List.mem_filter.mp ht with ⟨ht, hjob⟩
    have hsame : t.key = task.key :=
      hinv.task_unique (List.mem_map_of_mem ht) (key_mem h.1) (hid.trans (task?_spec h.1).2.symm)
    apply h.2
    rw [show task.status = t.status from (congrArg TaskKey.status hsame).symm]
    exact hnone t.key (List.mem_map_of_mem ht) (of_decide_eq_true hjob)
  exact ⟨(run_left env context (h.bound hinv) hnot).task.trans h.1, h.2⟩

theorem holding_launchSubjob (env : Environment Node) (hpending : Pending k r job (x :: rest) s.view)
    (h : Holding id task s) (loop : Option String) :
    Holding id task (launchSubjob env job x loop s).state := by
  unfold launchSubjob
  cases loop with
  | some loopXpath =>
    dsimp only
    cases env.evaluate (s.setJob x fun j ↦ { j with loop := none }).doc (.element job) loopXpath with
    | none => exact h
    | some nodes => exact h
  | none =>
    have hnone : ∀ t ∈ s.view.tasks, t.job = x → t.status = none := by
      intro t ht hjob
      apply hpending.untouched t ht
      rw [hjob]
      exact List.mem_cons_self
    have hkeep := h.run env (.element job) hpending.inv hnone
    dsimp only
    rcases hrun : WorkflowInstance.run env x (.element job) s with ⟨t, _ | e⟩
    · rw [hrun] at hkeep
      exact hkeep
    · rw [hrun] at hkeep
      exact hkeep

theorem holding_visitSubjob (env : Environment Node) (hpending : Pending k r job (x :: rest) s.view)
    (h : Holding id task s) : Holding id task (visitSubjob env job x s).state := by
  unfold visitSubjob
  cases s.doc.job? x with
  | none => exact h
  | some subjob =>
    dsimp only
    cases subjob.condition with
    | none => exact holding_launchSubjob env hpending h subjob.loop
    | some condition =>
      dsimp only
      cases env.evaluateTest s.doc (.element job) condition with
      | invalid => exact h
      | noResult => exact h
      | value n =>
        dsimp only
        by_cases hn : n = 0
        · rw [if_pos hn]
          exact h
        · rw [if_neg hn]
          exact holding_launchSubjob env hpending h subjob.loop

theorem holding_expandSubjob (env : Environment Node) (node : Node)
    (hpending : Pending k r job (x :: rest) s.view) (h : Holding id task s) :
    Holding id task (expandSubjob env x node s).1 := by
  have hclone := cloneJob_keeps hpending
  have hlog : ({ s with doc := s.doc.cloneJob x }.log
      (.jobCloned x s.doc.nextId node)).view = { s with doc := s.doc.cloneJob x }.view :=
    view_log_same rfl rfl
  rw [← hlog] at hclone
  have hcloned : Holding id task ({ s with doc := s.doc.cloneJob x }.log
      (.jobCloned x s.doc.nextId node)) :=
    ⟨(Document.task?_cloneJob x (h.bound hpending.inv)).trans h.1, h.2⟩
  have hkeep := hcloned.run env (.matched node) hclone.1.inv hclone.2.2
  unfold expandSubjob
  dsimp only
  rcases hrun : WorkflowInstance.run env s.doc.nextId (.matched node)
    ({ s with doc := s.doc.cloneJob x }.log (.jobCloned x s.doc.nextId node)) with ⟨t, _ | e⟩
  · rw [hrun] at hkeep ⊢
    exact hkeep
  · rw [hrun] at hkeep ⊢
    exact hkeep

theorem subjobLoop_holding (env : Environment Node) (job id : Nat) (task : TaskNode Node) :
    SnapshotLoop.Keeps (subjobLoop env job)
      (fun rest s ↦ Pending k r job rest s.view ∧ Holding id task s)
      (fun x rest s ↦ Pending k r job (x :: rest) s.view ∧ Holding id task s) (Holding id task) := by
  have hkeeps := subjobLoop_keeps (k := k) (r := r) env job
  constructor
  case done =>
    intro x rest s s' h hvisit
    have hholding := holding_visitSubjob env h.1 h.2
    rw [show visitSubjob env job x s = _ from hvisit] at hholding
    exact ⟨hkeeps.done x rest s s' h.1 hvisit, hholding⟩
  case failed =>
    intro x rest s s' e h hvisit
    have hholding := holding_visitSubjob env h.1 h.2
    rw [show visitSubjob env job x s = _ from hvisit] at hholding
    exact hholding
  case matched =>
    intro x rest s s' nodes h hvisit
    have hholding := holding_visitSubjob env h.1 h.2
    rw [show visitSubjob env job x s = _ from hvisit] at hholding
    exact ⟨hkeeps.matched x rest s s' nodes h.1 hvisit, hholding⟩
  case expand =>
    intro x rest node s s' h hexpand
    have hholding := holding_expandSubjob env node h.1 h.2
    rw [show expandSubjob env x node s = _ from hexpand] at hholding
    exact ⟨hkeeps.expand x rest node s s' h.1 hexpand, hholding⟩
  case expandFailed =>
    intro x rest node s s' e h hexpand
    have hholding := holding_expandSubjob env node h.1 h.2
    rw [show expandSubjob env x node s = _ from hexpand] at hholding
    exact hholding
  case finish =>
    intro x rest s h
    refine ⟨hkeeps.finish x rest s h.1, ?_, h.2.2⟩
    apply Document.task?_removeJob h.2.1
    intro hin
    exact h.2.job_ne (h.1.subtree task.job hin).2.1 rfl

/-- `run_subjobs` of a job that was not launched before leaves a task with a status as it is. -/
theorem runSubjobs_holding (env : Environment Node) (hinv : s.view.Inv k r)
    (hnot : job ∉ s.view.launched) (hbound : job < s.view.nextId)
    (hsuccess : job ≠ 0 → (∃ t ∈ s.view.tasks, t.job = job) ∧
      ∀ t ∈ s.view.tasks, t.job = job → t.successful = true) (h : Holding id task s) :
    Holding id task (runSubjobs env job s).1 := by
  have hstart := pending_start hinv hnot hbound hsuccess
  unfold runSubjobs
  rcases hrun : SnapshotLoop.iterate (subjobLoop env job) SnapshotLoop.readOn
    ((s.doc.subjobsOf job).map JobNode.id) 0 (s.log (.runSubjobs job)) with ⟨s', e⟩
  have hkeep := (subjobLoop_holding env job id task).iterate ⟨hstart, h⟩ hrun
  cases e with
  | none => exact (hkeep.1 rfl).2
  | some e => exact hkeep.2 (by simp)

/-! ## The calls from outside -/

/-- Task `id` and the schedules are as before, and `id` is in the retrier as before. -/
structure Apart (id : Nat) (s s' : WorkflowInstance Node) : Prop where
  task : s'.doc.task? id = s.doc.task? id
  retrier : id ∈ s'.retrier ↔ id ∈ s.retrier
  schedules : s'.doc.schedules = s.doc.schedules

variable {s'' : WorkflowInstance Node}

theorem Apart.refl (id : Nat) (s : WorkflowInstance Node) : Apart id s s := ⟨rfl, Iff.rfl, rfl⟩

theorem Apart.trans (h : Apart id s s') (h' : Apart id s' s'') : Apart id s s'' :=
  ⟨h'.task.trans h.task, h'.retrier.trans h.retrier, h'.schedules.trans h.schedules⟩

theorem apart_setTask {f : TaskNode Node → TaskNode Node} (hf : ∀ t, (f t).id = t.id) (hne : id ≠ x) :
    Apart id s (s.setTask x f) :=
  ⟨Document.task?_setTask_of_ne hf hne, Iff.rfl, rfl⟩

theorem apart_abortTask (s : WorkflowInstance Node) (hne : id ≠ x) (error : String) :
    Apart id s (s.abortTask x error) :=
  ⟨(touched_abortTask error).others hne, Iff.rfl, rfl⟩

theorem apart_enqueueTask (env : Environment Node) (s : WorkflowInstance Node) (hne : id ≠ x) :
    Apart id s (s.enqueueTask env x) := by
  have htask := (touched_enqueueTask env s x).others hne
  rcases enqueueTask_cases env s x with heq | ⟨error, heq⟩ | heq
  · rw [heq]
    exact Apart.refl id s
  · rw [heq]
    exact apart_abortTask s hne error
  · rw [heq] at htask ⊢
    exact ⟨htask, Iff.rfl, rfl⟩

theorem apart_retryTask (env : Environment Node) (s : WorkflowInstance Node) (hne : id ≠ x) :
    Apart id s (s.retryTask env x) := by
  cases hfind : s.doc.task? x with
  | none =>
    unfold retryTask
    rw [hfind]
    exact Apart.refl id s
  | some t =>
    rcases retryTask_eq env hfind with ⟨d, hd, heq⟩
    rw [heq]
    cases (t.retry env.uninitialised s.doc.schedules).2 with
    | exhausted => exact ⟨hd.others id hne, Iff.rfl, hd.schedules⟩
    | passedOver => exact ⟨hd.others id hne, Iff.rfl, hd.schedules⟩
    | planned =>
      refine ⟨hd.others id hne, ?_, hd.schedules⟩
      show id ∈ s.retrier ++ [x] ↔ _
      rw [List.mem_append, List.mem_singleton]
      exact or_iff_left hne

theorem apart_recordStop (env : Environment Node) (s : WorkflowInstance Node) (t : TaskNode Node)
    (hne : id ≠ t.id) (retval : Int) (output : String) :
    Apart id s (s.recordStop env t retval output) := by
  have hstop : Apart id s (s.setTask t.id fun t ↦
      { t with
        status := some .terminated
        retval := some retval }) :=
    apart_setTask (fun _ ↦ rfl) hne
  unfold recordStop
  dsimp only
  generalize (s.setTask t.id fun t ↦
      { t with
        status := some .terminated
        retval := some retval }) = s' at hstop
  have houtput (method : OutputMethod) : Apart id s (s'.setTask t.id fun t ↦
      { t with outputs := t.outputs ++ [⟨retval, method, output⟩] }) :=
    hstop.trans (apart_setTask (fun _ ↦ rfl) hne)
  by_cases hzero : retval = 0
  · rw [if_pos hzero]
    cases env.getTask t.name with
    | none => exact hstop.trans (apart_abortTask s' hne _)
    | some method =>
      cases method with
      | text => exact houtput .text
      | xml =>
        dsimp only
        by_cases hxml : env.isXml output = true
        · rw [if_pos hxml]
          exact houtput .xml
        · rw [if_neg hxml]
          exact hstop.trans (apart_abortTask s' hne _)
  · rw [if_neg hzero]
    split
    · exact (houtput .text).trans (apart_setTask (fun _ ↦ rfl) hne)
    · exact (houtput .text).trans (apart_retryTask env _ hne)

theorem apart_taskExecute (env : Environment Node) (s : WorkflowInstance Node) (hne : id ≠ x) :
    Apart id s (s.taskExecute env x).1 := by
  have habort (error : String) :
      Apart id s { s.abortTask x error with runningTally := s.runningTally - 1 } := by
    have h := apart_abortTask s hne error
    exact ⟨h.task, h.retrier, h.schedules⟩
  unfold taskExecute
  cases s.doc.task? x with
  | none => exact Apart.refl id s
  | some t =>
    dsimp only
    split
    · exact habort _
    · cases env.getTask t.name with
      | none => exact habort _
      | some method =>
        dsimp only
        split
        · exact apart_setTask (fun _ ↦ rfl) hne
        · exact habort _

theorem apart_taskRestart (env : Environment Node) (s : WorkflowInstance Node) (hne : id ≠ x) :
    Apart id s ({ s with retrier := s.retrier.erase x }.taskRestart env x).1 := by
  have h := apart_enqueueTask env { s with retrier := s.retrier.erase x } hne
  exact ⟨h.task, h.retrier.trans (List.mem_erase_of_ne hne), h.schedules⟩

/-- Neither the retrier nor the schedules are touched by `run_subjobs`. -/
theorem retrier_closed (env : Environment Node) (before : WorkflowInstance Node) :
    Closed env fun s ↦ s.retrier = before.retrier ∧ s.doc.schedules = before.doc.schedules where
  log _ _ h := h
  setTask _ _ _ _ h := h
  enqueueTask s x h := by
    rcases enqueueTask_cases env s x with heq | ⟨error, heq⟩ | heq
    · rw [heq]
      exact h
    · rw [heq]
      exact h
    · rw [heq]
      exact h
  cloneTask _ _ h := h
  removeTask _ _ h := h
  setJob _ _ _ h := h
  failJob _ _ _ h := h
  cloneJob _ _ h := h
  removeJob _ _ h := h

/-- `TaskStop` of another task, with the jobs it launches. -/
theorem apart_taskStop (env : Environment Node) {other : TaskNode Node} (hinv : s.view.Inv 0 0)
    (hfind : s.doc.task? id = some task) (hstatus : task.status ≠ none) (hne : id ≠ x)
    (hother : s.doc.task? x = some other) (hexecuting : other.status = some .executing) (retval : Int)
    (output : String) : Apart id s (s.taskStop env x retval output).1 := by
  have hid := (task?_spec hother).2
  have hstop := apart_recordStop env s other (by rw [hid]; exact hne) retval output
  have hinv' := recordStop_inv env hinv hother hexecuting retval output
  have hlast {s' : WorkflowInstance Node} (hs' : s.recordStop env other retval output = s') :=
    recordStop_last env hinv hother hexecuting retval output hs'
  unfold taskStop
  rw [hother]
  dsimp only
  generalize heq : s.recordStop env other retval output = s' at hstop hinv'
  by_cases hall : (s'.doc.tasksOf other.job).length =
      (s'.doc.tasksOf other.job).countP TaskNode.successful
  · rw [if_pos hall]
    have hready := hlast heq hall
    have hholding := runSubjobs_holding env hinv' hready.1 hready.2.1 (fun _ ↦ hready.2.2)
      ⟨hstop.task.trans hfind, hstatus⟩
    have hkeep := (retrier_closed env s').runSubjobs other.job ⟨rfl, rfl⟩
    refine ⟨hholding.1.trans hfind.symm, ?_, hkeep.2.trans hstop.schedules⟩
    rw [← hstop.retrier, ← hkeep.1]
  · rw [if_neg hall]
    exact ⟨hstop.task, hstop.retrier, hstop.schedules⟩

end WorkflowInstance

end EvQueue
