import EvQueue.WorkflowInstanceTasks

/-!
# WorkflowInstanceJobs — `run_subjobs` keeps the invariant

A looped job is cloned and removed with all that is below it.  As its parent has only just been
launched, nothing has happened to the tasks there, and the clones begin as the job did.
-/

namespace EvQueue

variable {Node : Type}

/-! ## The jobs below a job -/

namespace Document

theorem descendants_induction {D : Nat → Prop} {found : List Nat} {jobs : List JobNode}
    (hfound : ∀ id ∈ found, D id) (hstep : ∀ j ∈ jobs, D j.parent → D j.id) :
    ∀ id ∈ descendants found jobs, D id := by
  induction jobs generalizing found with
  | nil => exact hfound
  | cons j jobs ih =>
    unfold descendants
    apply ih
    · intro id hid
      by_cases hin : j.parent ∈ found
      · rw [if_pos hin, List.mem_append, List.mem_singleton] at hid
        cases hid with
        | inl hid => exact hfound id hid
        | inr heq =>
          rw [heq]
          exact hstep j List.mem_cons_self (hfound _ hin)
      · rw [if_neg hin] at hid
        exact hfound id hid
    · exact fun j' hj' ↦ hstep j' (List.mem_cons_of_mem _ hj')

/-- What holds of a job and passes from parents to children holds of all jobs below it. -/
theorem subtree_induction {d : Document Node} {D : Nat → Prop} {job : Nat} (hjob : D job)
    (hstep : ∀ j ∈ d.jobs, D j.parent → D j.id) : ∀ id ∈ d.subtree job, D id := by
  apply descendants_induction _ hstep
  intro id hid
  rw [List.mem_singleton.mp hid]
  exact hjob

theorem descendants_prefix (found : List Nat) (jobs : List JobNode) :
    ∃ more, descendants found jobs = found ++ more := by
  induction jobs generalizing found with
  | nil => exact ⟨[], (List.append_nil _).symm⟩
  | cons j jobs ih =>
    unfold descendants
    by_cases hin : j.parent ∈ found
    · rw [if_pos hin]
      cases ih (found ++ [j.id]) with
      | intro more hmore =>
        rw [hmore, List.append_assoc]
        exact ⟨_, rfl⟩
    · rw [if_neg hin]
      exact ih found

/-- The job itself is the first of its subtree. -/
theorem idxOf_subtree (d : Document Node) (job : Nat) : (d.subtree job).idxOf job = 0 := by
  unfold subtree
  cases descendants_prefix [job] d.jobs with
  | intro more hmore =>
    rw [hmore, List.singleton_append]
    exact List.idxOf_cons_self

theorem mem_subtree_self (d : Document Node) (job : Nat) : job ∈ d.subtree job := by
  unfold subtree
  cases descendants_prefix [job] d.jobs with
  | intro more hmore =>
    rw [hmore]
    exact List.mem_cons_self

end Document

namespace WorkflowInstance

variable {env : Environment Node} {s s' : WorkflowInstance Node}
variable {k r : Int} {id job : Nat} {rest : List Nat} {v v' : View}

/-! ## The jobs still to be visited -/

/-- Before the subjobs `rest` of a job that was launched: nothing has happened to them. -/
structure Pending (k r : Int) (job : Nat) (rest : List Nat) (v : View) : Prop where
  inv : v.Inv k r
  launched : job ∈ v.launched
  nodup : rest.Nodup
  jobs : ∀ id ∈ rest, (id, job) ∈ v.jobs
  untouched : ∀ t ∈ v.tasks, t.job ∈ rest → t.status = none

theorem Pending.tail (h : Pending k r job (id :: rest) v) : Pending k r job rest v :=
  { h with
    nodup := (List.nodup_cons.mp h.nodup).2
    jobs := fun x hx ↦ h.jobs x (List.mem_cons_of_mem _ hx)
    untouched := fun t ht hx ↦ h.untouched t ht (List.mem_cons_of_mem _ hx) }

theorem Pending.not_launched (h : Pending k r job rest v) (hid : id ∈ rest) : id ∉ v.launched := by
  intro hin
  have hjob := h.jobs id hid
  have hall := h.inv.launched id hin (h.inv.jobsBound _ hjob).1
  cases hall.1 with
  | intro t ht =>
    have hsuccess := hall.2 t ht.1 ht.2
    have hnone := h.untouched t ht.1 (by rw [ht.2]; exact hid)
    simp [TaskKey.successful, hnone] at hsuccess

/-- A call that changes the tasks of one job leaves the jobs still to be visited alone. -/
theorem Pending.change (h : Pending k r job rest v) (hid : id ∉ rest) (hinv : v'.Inv k r)
    (hframe : View.Frame (fun x ↦ x.job = id) v v') : Pending k r job rest v' := by
  constructor
  case inv => exact hinv
  case launched =>
    rw [hframe.launched]
    exact h.launched
  case nodup => exact h.nodup
  case jobs =>
    rw [hframe.jobs]
    exact h.jobs
  case untouched =>
    intro t ht hx
    apply h.untouched t _ hx
    apply (hframe.tasks t _).mp ht
    intro heq
    rw [heq] at hx
    exact hid hx

/-- New nodes that nothing has happened to do not disturb the loop. -/
theorem Pending.append (h : Pending k r job rest v) {jobs : List (Nat × Nat)} {tasks : List TaskKey}
    {nextId : Nat}
    (hinv : View.Inv k r { v with jobs := v.jobs ++ jobs, tasks := v.tasks ++ tasks, nextId })
    (hnone : ∀ t ∈ tasks, t.status = none) :
    Pending k r job rest { v with jobs := v.jobs ++ jobs, tasks := v.tasks ++ tasks, nextId } := by
  constructor
  case inv => exact hinv
  case launched => exact h.launched
  case nodup => exact h.nodup
  case jobs => exact fun x hx ↦ List.mem_append_left _ (h.jobs x hx)
  case untouched =>
    intro t ht hx
    cases List.mem_append.mp ht with
    | inl ht => exact h.untouched t ht hx
    | inr ht => exact hnone t ht

/-- Nothing has happened below a job that is still to be visited, and the others are not below it. -/
theorem Pending.subtree (h : Pending k r job (id :: rest) s.view) :
    ∀ x ∈ s.doc.subtree id, x ∉ s.view.launched ∧
      (∀ t ∈ s.view.tasks, t.job = x → t.status = none) ∧ x ∉ rest := by
  apply Document.subtree_induction
  · refine ⟨h.not_launched List.mem_cons_self, ?_, (List.nodup_cons.mp h.nodup).1⟩
    intro t ht hjob
    apply h.untouched t ht
    rw [hjob]
    exact List.mem_cons_self
  · intro j hj hparent
    have hin : (j.id, j.parent) ∈ s.view.jobs := List.mem_map.mpr ⟨j, hj, rfl⟩
    have hnone := h.inv.dormant _ hin hparent.1
    refine ⟨?_, hnone, ?_⟩
    · -- a job that was launched has a successful task
      intro hlaunched
      have hall := h.inv.launched j.id hlaunched (h.inv.jobsBound _ hin).1
      cases hall.1 with
      | intro t ht =>
        have hsuccess := hall.2 t ht.1 ht.2
        simp [TaskKey.successful, hnone t ht.1 ht.2] at hsuccess
    · -- the others have the job that was launched as their parent
      intro hrest
      have hsame := h.inv.parent_unique hin (h.tail.jobs j.id hrest)
      rw [hsame] at hparent
      exact hparent.1 h.launched

/-! ## Clones of jobs -/

theorem map_mapIdx {α β γ : Type} (f : Nat → α → β) (g : β → γ) (xs : List α) :
    (xs.mapIdx f).map g = xs.mapIdx fun i x ↦ g (f i x) := by
  apply List.ext_getElem
  · rw [List.length_map, List.length_mapIdx, List.length_mapIdx]
  · intro i hi hi'
    rw [List.getElem_map, List.getElem_mapIdx, List.getElem_mapIdx]

theorem nodup_mapIdx_add {α : Type} (xs : List α) (n : Nat) :
    (xs.mapIdx fun i _ ↦ n + i).Nodup := by
  have heq : (xs.mapIdx fun i _ ↦ n + i) = (List.range xs.length).map (n + ·) := by
    apply List.ext_getElem
    · rw [List.length_mapIdx, List.length_map, List.length_range]
    · intro i hi hi'
      rw [List.getElem_mapIdx, List.getElem_map, List.getElem_range]
  rw [heq]
  exact List.nodup_range.map fun a c h ↦ Nat.add_left_cancel h

/-- The number of a clone. -/
def cloneId (d : Document Node) (job id : Nat) : Nat := d.nextId + (d.subtree job).idxOf id

def clonedJobs (d : Document Node) (job : Nat) : List (Nat × Nat) :=
  (d.jobs.filter fun j ↦ j.id ∈ d.subtree job).map fun j ↦
    (cloneId d job j.id, if j.id = job then j.parent else cloneId d job j.parent)

def clonedTasks (d : Document Node) (job : Nat) : List TaskKey :=
  (d.tasks.filter fun t ↦ t.job ∈ d.subtree job).mapIdx fun i t ↦
    { t.key with
      id := d.nextId + (d.subtree job).length + i
      job := cloneId d job t.job }

theorem view_cloneJob (s : WorkflowInstance Node) (job : Nat) :
    { s with doc := s.doc.cloneJob job }.view = { s.view with
      jobs := s.view.jobs ++ clonedJobs s.doc job
      tasks := s.view.tasks ++ clonedTasks s.doc job
      nextId := s.view.nextId + (s.doc.subtree job).length + s.doc.tasks.length } := by
  unfold view Document.cloneJob clonedJobs clonedTasks
  rw [List.map_append, List.map_append, List.map_map, map_mapIdx]
  rfl

theorem cloneId_bound {d : Document Node} (hid : id ∈ d.subtree job) :
    d.nextId ≤ cloneId d job id ∧ cloneId d job id < d.nextId + (d.subtree job).length := by
  have hidx := List.idxOf_lt_length_of_mem hid
  unfold cloneId
  omega

theorem mem_clonedTasks {d : Document Node} {t : TaskKey} (ht : t ∈ clonedTasks d job) :
    ∃ t' ∈ d.tasks, t'.job ∈ d.subtree job ∧ t.job = cloneId d job t'.job ∧ t.status = t'.status ∧
      d.nextId + (d.subtree job).length ≤ t.id ∧
      t.id < d.nextId + (d.subtree job).length + d.tasks.length := by
  rcases List.mem_mapIdx.mp ht with ⟨i, hi, heq⟩
  have hin := List.mem_filter.mp (List.getElem_mem hi)
  have hlength := List.length_filter_le (fun t : TaskNode Node ↦ t.job ∈ d.subtree job) d.tasks
  rw [← heq]
  refine ⟨_, hin.1, of_decide_eq_true hin.2, rfl, rfl, Nat.le_add_right _ _, ?_⟩
  show d.nextId + (d.subtree job).length + i < _
  omega

/-- Jobs with different ids have clones with different ids. -/
theorem nodup_clonedJobs (h : s.view.Inv k r) : ((clonedJobs s.doc job).map Prod.fst).Nodup := by
  have hids : (s.doc.jobs.map JobNode.id).Nodup := by
    have hnodup := h.jobsNodup
    unfold view at hnodup
    rw [List.map_map] at hnodup
    exact hnodup
  unfold clonedJobs
  rw [List.map_map]
  apply List.Nodup.map_on
  · intro j hj j' hj' heq
    rcases List.mem_filter.mp hj with ⟨hj, hin⟩
    have heq : cloneId s.doc job j.id = cloneId s.doc job j'.id := heq
    unfold cloneId at heq
    apply List.inj_on_of_nodup_map hids hj (List.mem_of_mem_filter hj')
    exact (List.idxOf_inj (of_decide_eq_true hin)).mp (Nat.add_left_cancel heq)
  · exact (List.Nodup.of_map _ hids).filter _

theorem cloneJob_keeps (h : Pending k r job (id :: rest) s.view) :
    Pending k r job (id :: rest) { s with doc := s.doc.cloneJob id }.view ∧
      (s.doc.nextId, job) ∈ { s with doc := s.doc.cloneJob id }.view.jobs ∧
      ∀ t ∈ { s with doc := s.doc.cloneJob id }.view.tasks, t.job = s.doc.nextId →
        t.status = none := by
  have hnone : ∀ t ∈ clonedTasks s.doc id, t.status = none := by
    intro t ht
    rcases mem_clonedTasks ht with ⟨t', ht', hin, -, hstatus, -⟩
    rw [hstatus]
    exact (h.subtree _ hin).2.1 t'.key (List.mem_map_of_mem ht') rfl
  rw [view_cloneJob]
  refine ⟨?_, ?_, ?_⟩
  · apply h.append _ hnone
    apply h.inv.append
    · omega
    · exact nodup_clonedJobs h.inv
    · intro j hj
      rcases List.mem_map.mp hj with ⟨j', hj', heq⟩
      have hbound := cloneId_bound (of_decide_eq_true (List.mem_filter.mp hj').2)
      rw [← heq]
      exact ⟨hbound.1, Nat.lt_add_right _ hbound.2⟩
    · unfold clonedTasks
      rw [map_mapIdx]
      exact nodup_mapIdx_add _ _
    · intro t ht
      have hpos : 0 < s.doc.nextId := h.inv.nextId
      rcases mem_clonedTasks ht with ⟨t', ht', hin, hjob, -, hlow, hhigh⟩
      have hbound := cloneId_bound hin
      show s.doc.nextId ≤ t.id ∧
        t.id < s.doc.nextId + (s.doc.subtree id).length + s.doc.tasks.length ∧
        t.job < s.doc.nextId + (s.doc.subtree id).length + s.doc.tasks.length ∧ t.job ≠ 0
      omega
    · -- a clone is newer than the jobs that were launched
      intro t ht
      refine ⟨hnone t ht, ?_⟩
      intro hlaunched
      rcases mem_clonedTasks ht with ⟨t', ht', hin, hjob, -⟩
      have hbound := cloneId_bound hin
      have hold : t.job < s.doc.nextId := h.inv.launchedBound _ hlaunched
      omega
  · apply List.mem_append_right
    rcases List.mem_map.mp (h.jobs id List.mem_cons_self) with ⟨j, hj, heq⟩
    have hid : j.id = id := congrArg Prod.fst heq
    have hparent : j.parent = job := congrArg Prod.snd heq
    apply List.mem_map.mpr
    refine ⟨j, List.mem_filter.mpr ⟨hj, decide_eq_true ?_⟩, ?_⟩
    · rw [hid]
      exact Document.mem_subtree_self _ _
    · unfold cloneId
      rw [if_pos hid, hid, Document.idxOf_subtree, hparent]
      rfl
  · intro t ht hjob
    cases List.mem_append.mp ht with
    | inl ht =>
      have hbound : t.job < s.doc.nextId := (h.inv.tasksBound t ht).2.2
      omega
    | inr ht => exact hnone t ht

theorem removeJob_keeps (h : Pending k r job (id :: rest) s.view) :
    Pending k r job rest { s with doc := s.doc.removeJob id }.view := by
  have hview : { s with doc := s.doc.removeJob id }.view = { s.view with
      jobs := s.view.jobs.filter fun j ↦ j.1 ∉ s.doc.subtree id
      tasks := s.view.tasks.filter fun t ↦ t.job ∉ s.doc.subtree id } := by
    unfold view Document.removeJob
    rw [List.filter_map, List.filter_map]
    rfl
  rw [hview]
  constructor
  case inv =>
    apply h.inv.filter
    · exact List.filter_sublist
    · intro t ht
      by_cases hin : t.job ∈ s.doc.subtree id
      · exact .inr ((h.subtree _ hin).2.1 t ht rfl)
      · exact .inl (decide_eq_true hin)
  case launched => exact h.launched
  case nodup => exact h.tail.nodup
  case jobs =>
    intro x hx
    apply List.mem_filter.mpr
    refine ⟨h.tail.jobs x hx, decide_eq_true ?_⟩
    intro hin
    exact (h.subtree x hin).2.2 hx
  case untouched =>
    intro t ht hx
    exact h.tail.untouched t (List.mem_of_mem_filter ht) hx

/-! ## `run_subjobs` -/

/-- `run` of a subjob still to be visited. -/
theorem Pending.run (env : Environment Node) (context : Context Node)
    (h : Pending k r job rest s.view) (hjob : (id, job) ∈ s.view.jobs) (hid : id ∉ rest)
    (hnone : ∀ t ∈ s.view.tasks, t.job = id → t.status = none) :
    Pending k r job rest (run env id context s).1.view := by
  have hkeep := run_keeps env context h.inv hjob h.launched hnone
  exact h.change hid hkeep.1 hkeep.2

/-- What is left of the loop behind a visit, and behind a failed one. -/
def Visited (k r : Int) (job id : Nat) (rest : List Nat) :
    SnapshotLoop.Turn Node (WorkflowInstance Node) String → Prop
  | .done s => Pending k r job rest s.view
  | .failed s _ => s.view.Inv k r
  | .matched s _ => Pending k r job (id :: rest) s.view

theorem abortSubjob_visited (h : s.view.Inv k r) (details : String) :
    Visited k r job id rest (abortSubjob id details s) := by
  show View.Inv k r (failJob _ id evaluationError).view
  rw [view_failJob, view_setJob]
  · exact h
  · exact fun j ↦ ⟨rfl, rfl⟩

theorem launchSubjob_visited (env : Environment Node) (h : Pending k r job (id :: rest) s.view)
    (loop : Option String) : Visited k r job id rest (launchSubjob env job id loop s) := by
  unfold launchSubjob
  cases loop with
  | some loopXpath =>
    have hloop : (s.setJob id fun j ↦ { j with loop := none }).view = s.view :=
      view_setJob fun j ↦ ⟨rfl, rfl⟩
    dsimp only
    generalize (s.setJob id fun j ↦ { j with loop := none }) = s' at hloop
    rw [← hloop] at h
    cases env.evaluate s'.doc (.element job) loopXpath with
    | none => exact abortSubjob_visited h.inv _
    | some nodes =>
      show Pending k r job (id :: rest) (s'.log _).view
      rw [view_log_same rfl rfl]
      exact h
  | none =>
    have hnone : ∀ t ∈ s.view.tasks, t.job = id → t.status = none := by
      intro t ht hjob
      apply h.untouched t ht
      rw [hjob]
      exact List.mem_cons_self
    have hkeep := h.tail.run env (.element job) (h.jobs id List.mem_cons_self)
      (List.nodup_cons.mp h.nodup).1 hnone
    dsimp only
    rcases hrun : run env id (.element job) s with ⟨s', _ | e⟩
    · rw [hrun] at hkeep
      exact hkeep
    · rw [hrun] at hkeep
      show View.Inv k r (s'.failJob id e).view
      rw [view_failJob]
      exact hkeep.inv

theorem visitSubjob_visited (env : Environment Node) (h : Pending k r job (id :: rest) s.view) :
    Visited k r job id rest (visitSubjob env job id s) := by
  unfold visitSubjob
  cases s.doc.job? id with
  | none => exact h.tail
  | some subjob =>
    dsimp only
    cases subjob.condition with
    | none => exact launchSubjob_visited env h _
    | some condition =>
      dsimp only
      cases env.evaluateTest s.doc (.element job) condition with
      | invalid => exact abortSubjob_visited h.inv _
      | noResult => exact abortSubjob_visited h.inv _
      | value n =>
        dsimp only
        by_cases hn : n = 0
        · -- the job is skipped
          rw [if_pos hn]
          show Pending k r job rest (s.setJob id _).view
          rw [view_setJob]
          · exact h.tail
          · exact fun j ↦ ⟨rfl, rfl⟩
        · rw [if_neg hn]
          exact launchSubjob_visited env h _

theorem expandSubjob_keeps (env : Environment Node) (node : Node)
    (h : Pending k r job (id :: rest) s.view) :
    Pending k r job (id :: rest) (expandSubjob env id node s).1.view := by
  have hclone := cloneJob_keeps h
  have hfresh : s.doc.nextId ∉ id :: rest := by
    intro hin
    exact absurd (h.inv.jobsBound _ (h.jobs _ hin)).2 (Nat.lt_irrefl _)
  have hlog : ({ s with doc := s.doc.cloneJob id }.log
      (.jobCloned id s.doc.nextId node)).view = { s with doc := s.doc.cloneJob id }.view :=
    view_log_same rfl rfl
  unfold expandSubjob
  dsimp only
  rw [← hlog] at hclone
  have hkeep := hclone.1.run env (.matched node) hclone.2.1 hfresh hclone.2.2
  rcases hrun : run env s.doc.nextId (.matched node)
    ({ s with doc := s.doc.cloneJob id }.log (.jobCloned id s.doc.nextId node)) with ⟨s', _ | e⟩
  · rw [hrun] at hkeep ⊢
    exact hkeep
  · rw [hrun] at hkeep ⊢
    show Pending k r job (id :: rest) (s'.failJob id e).view
    rw [view_failJob]
    exact hkeep

/-- The subjobs still to be visited are the invariant of the loop of `run_subjobs`. -/
theorem subjobLoop_keeps (env : Environment Node) (job : Nat) :
    SnapshotLoop.Keeps (subjobLoop env job) (fun rest s ↦ Pending k r job rest s.view)
      (fun id rest s ↦ Pending k r job (id :: rest) s.view) (fun s ↦ s.view.Inv k r) := by
  constructor
  case done =>
    intro id rest s s' h hvisit
    have hkeep := visitSubjob_visited env h
    rw [show visitSubjob env job id s = _ from hvisit] at hkeep
    exact hkeep
  case failed =>
    intro id rest s s' e h hvisit
    have hkeep := visitSubjob_visited env h
    rw [show visitSubjob env job id s = _ from hvisit] at hkeep
    exact hkeep
  case matched =>
    intro id rest s s' nodes h hvisit
    have hkeep := visitSubjob_visited env h
    rw [show visitSubjob env job id s = _ from hvisit] at hkeep
    exact hkeep
  case expand =>
    intro id rest node s s' h hexpand
    have hkeep := expandSubjob_keeps env node h
    rw [show expandSubjob env id node s = _ from hexpand] at hkeep
    exact hkeep
  case expandFailed =>
    intro id rest node s s' e h hexpand
    have hkeep := expandSubjob_keeps env node h
    rw [show expandSubjob env id node s = _ from hexpand] at hkeep
    exact hkeep.inv
  case finish =>
    intro id rest s h
    exact removeJob_keeps h

/-- `run_subjobs` of a job whose tasks are all successful, and that was not launched before: no subjob was
visited yet. -/
theorem pending_start (h : s.view.Inv k r) (hnot : job ∉ s.view.launched)
    (hbound : job < s.view.nextId) (hsuccess : job ≠ 0 → (∃ t ∈ s.view.tasks, t.job = job) ∧
      ∀ t ∈ s.view.tasks, t.job = job → t.successful = true) :
    Pending k r job ((s.doc.subjobsOf job).map JobNode.id) (s.log (.runSubjobs job)).view := by
  have hids : (s.doc.subjobsOf job).map JobNode.id =
      (s.view.jobs.filter fun j ↦ j.2 = job).map Prod.fst := by
    show _ = ((s.doc.jobs.map fun j : JobNode ↦ (j.id, j.parent)).filter fun j ↦ j.2 = job).map _
    rw [List.filter_map, List.map_map]
    rfl
  have hview : (s.log (.runSubjobs job)).view =
      { s.view with launched := s.view.launched ++ [job] } := by
    rw [view_log]
    show { s.view with
      launched := s.view.launched ++ [job]
      ready := s.view.ready && true } = _
    rw [Bool.and_true]
  rw [hview, hids]
  constructor
  case inv => exact h.launch hnot hbound hsuccess
  case launched => exact List.mem_append_right _ (List.mem_singleton.mpr rfl)
  case nodup => exact h.jobsNodup.sublist (List.filter_sublist.map _)
  case jobs =>
    intro x hx
    rcases List.mem_map.mp hx with ⟨j, hj, heq⟩
    rcases List.mem_filter.mp hj with ⟨hj, hin⟩
    rw [← heq, ← of_decide_eq_true hin]
    exact hj
  case untouched =>
    -- their parent had not been launched
    intro t ht hx
    rcases List.mem_map.mp hx with ⟨j, hj, heq⟩
    rcases List.mem_filter.mp hj with ⟨hj, hin⟩
    apply h.dormant j hj _ t ht heq.symm
    rw [of_decide_eq_true hin]
    exact hnot

theorem runSubjobs_inv (env : Environment Node) (h : s.view.Inv k r) (hnot : job ∉ s.view.launched)
    (hbound : job < s.view.nextId) (hsuccess : job ≠ 0 → (∃ t ∈ s.view.tasks, t.job = job) ∧
      ∀ t ∈ s.view.tasks, t.job = job → t.successful = true) :
    (runSubjobs env job s).1.view.Inv k r := by
  have hstart := pending_start h hnot hbound hsuccess
  unfold runSubjobs
  rcases hrun : SnapshotLoop.iterate (subjobLoop env job) SnapshotLoop.readOn
    ((s.doc.subjobsOf job).map JobNode.id) 0 (s.log (.runSubjobs job)) with ⟨s', e⟩
  have hkeep := (subjobLoop_keeps env job).iterate hstart hrun
  cases e with
  | none => exact (hkeep.1 rfl).inv
  | some e => exact hkeep.2 (by simp)

end WorkflowInstance

end EvQueue
