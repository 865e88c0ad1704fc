import EvQueue.WorkflowInstanceJobLoops

/-!
# WorkflowInstanceJobClones — what the clones of a job are

A clone of a looped job has below it what the job had, node for node, and `run` is called for it once.
What is done to the other subjobs before and behind leaves both as they are: the subjobs of a job have
nothing below them in common, and the nodes of a clone are new.
-/

namespace EvQueue

variable {Node : Type}

/-! ## What is below a job -/

namespace Document

variable {d d' : Document Node} {j : JobNode} {x y job : Nat}

/-- Every job with its parent. -/
def links (d : Document Node) : List (Nat × Nat) := d.jobs.map fun j ↦ (j.id, j.parent)

/-- `descendants` of the links alone. -/
def below (found : List Nat) : List (Nat × Nat) → List Nat
  | [] => found
  | link :: links => below (if link.2 ∈ found then found ++ [link.1] else found) links

theorem below_cons (found : List Nat) (link : Nat × Nat) (links : List (Nat × Nat)) :
    below found (link :: links) =
      below (if link.2 ∈ found then found ++ [link.1] else found) links :=
  rfl

theorem descendants_eq_below (found : List Nat) (jobs : List JobNode) :
    descendants found jobs = below found (jobs.map fun j ↦ (j.id, j.parent)) := by
  induction jobs generalizing found with
  | nil => rfl
  | cons j jobs ih => exact ih _

/-- Links of jobs elsewhere do not matter. -/
theorem below_filter {D found : List Nat} {links : List (Nat × Nat)} (hfound : ∀ x ∈ found, x ∈ D)
    (hlinks : ∀ link ∈ links, link.2 ∈ D → link.1 ∈ D) :
    below found links = below found (links.filter fun link ↦ link.1 ∈ D) := by
  induction links generalizing found with
  | nil => rfl
  | cons link links ih =>
    have hrest := fun l hl ↦ hlinks l (List.mem_cons_of_mem _ hl)
    rw [List.filter_cons, below_cons]
    by_cases hin : link.2 ∈ found
    · have hlink := hlinks link List.mem_cons_self (hfound _ hin)
      rw [if_pos hin, if_pos (decide_eq_true hlink), below_cons, if_pos hin]
      apply ih _ hrest
      intro x hx
      rcases List.mem_append.mp hx with hx | hx
      · exact hfound x hx
      · rw [List.mem_singleton.mp hx]
        exact hlink
    · rw [if_neg hin, ih hfound hrest]
      by_cases hlink : link.1 ∈ D
      · rw [if_pos (decide_eq_true hlink), below_cons, if_neg hin]
      · rw [if_neg (by simpa using hlink)]

theorem mem_below_cases {found : List Nat} {links : List (Nat × Nat)} (h : x ∈ below found links) :
    x ∈ found ∨ ∃ link ∈ links, link.1 = x ∧ link.2 ∈ below found links := by
  induction links generalizing found with
  | nil => exact .inl h
  | cons link links ih =>
    have hgrow {y : Nat} (hy : y ∈ found) : y ∈ below found (link :: links) := by
      have hprefix := descendants_prefix found ((link :: links).map fun l ↦
        { id := l.1, parent := l.2, condition := none, loop := none, status := none, details := none })
      rcases hprefix with ⟨more, hmore⟩
      rw [descendants_eq_below, List.map_map] at hmore
      have heq : ((link :: links).map ((fun j : JobNode ↦ (j.id, j.parent)) ∘ fun l ↦
          { id := l.1, parent := l.2, condition := none, loop := none, status := none,
            details := none })) = link :: links := List.map_id _
      rw [heq] at hmore
      rw [hmore]
      exact List.mem_append_left _ hy
    rw [below_cons] at h
    rcases ih h with hfound | ⟨l, hl, hid, hparent⟩
    · by_cases hin : link.2 ∈ found
      · rw [if_pos hin, List.mem_append, List.mem_singleton] at hfound
        rcases hfound with hfound | heq
        · exact .inl hfound
        · exact .inr ⟨link, List.mem_cons_self, heq.symm, hgrow hin⟩
      · rw [if_neg hin] at hfound
        exact .inl hfound
    · exact .inr ⟨l, List.mem_cons_of_mem _ hl, hid, hparent⟩

/-- The parent of what is below a job is below it too. -/
theorem mem_subtree_cases (h : y ∈ d.subtree x) :
    y = x ∨ ∃ j ∈ d.jobs, j.id = y ∧ j.parent ∈ d.subtree x := by
  unfold subtree at h ⊢
  rw [descendants_eq_below] at h ⊢
  rcases mem_below_cases h with hfound | ⟨link, hlink, hid, hparent⟩
  · exact .inl (List.mem_singleton.mp hfound)
  · rcases List.mem_map.mp hlink with ⟨j, hj, heq⟩
    rw [← heq] at hid hparent
    exact .inr ⟨j, hj, hid, hparent⟩

theorem Tree.parent_mem_subtree (htree : d.Tree) (hj : j ∈ d.jobs) (hin : j.id ∈ d.subtree x)
    (hne : j.id ≠ x) : j.parent ∈ d.subtree x := by
  rcases mem_subtree_cases hin with heq | ⟨j', hj', hid, hparent⟩
  · exact absurd heq hne
  · rw [← List.inj_on_of_nodup_map htree.jobsNodup hj' hj hid]
    exact hparent

/-- Two jobs with one parent have nothing below them in common. -/
theorem Tree.subtree_disjoint (htree : d.Tree) {j j' : JobNode} (hj : j ∈ d.jobs) (hj' : j' ∈ d.jobs)
    (hparent : j.parent = j'.parent) (hne : j.id ≠ j'.id) :
    ∀ y ∈ d.subtree j.id, y ∉ d.subtree j'.id := by
  have hout := htree.parent_notMem hj
  have hout' := htree.parent_notMem hj'
  suffices h : ∀ y ∈ d.subtree j.id, y ∈ d.subtree j.id ∧ y ∉ d.subtree j'.id from
    fun y hy ↦ (h y hy).2
  apply subtree_induction
  · refine ⟨d.mem_subtree_self j.id, fun hin ↦ ?_⟩
    rw [← hparent] at hout'
    exact hout' (htree.parent_mem_subtree hj hin hne)
  · intro k hk h
    refine ⟨htree.mem_subtree hk h.1, fun hin ↦ h.2 (htree.parent_mem_subtree hk hin ?_)⟩
    intro heq
    rw [List.inj_on_of_nodup_map htree.jobsNodup hk hj' heq, ← hparent] at h
    exact hout h.1

/-- What is below a job is the same in documents with the same links there. -/
theorem subtree_congr {D : List Nat} (hx : x ∈ D) (hd : ∀ j ∈ d.jobs, j.parent ∈ D → j.id ∈ D)
    (hd' : ∀ j ∈ d'.jobs, j.parent ∈ D → j.id ∈ D)
    (h : d'.links.filter (fun link ↦ link.1 ∈ D) = d.links.filter fun link ↦ link.1 ∈ D) :
    d'.subtree x = d.subtree x := by
  have hfilter {e : Document Node} (he : ∀ j ∈ e.jobs, j.parent ∈ D → j.id ∈ D) :
      e.subtree x = below [x] (e.links.filter fun link ↦ link.1 ∈ D) := by
    unfold subtree
    rw [descendants_eq_below]
    apply below_filter
    · intro y hy
      rw [List.mem_singleton.mp hy]
      exact hx
    · intro link hlink hparent
      rcases List.mem_map.mp hlink with ⟨j, hj, heq⟩
      rw [← heq] at hparent ⊢
      exact he j hj hparent
  rw [hfilter hd, hfilter hd', h]

/-- The tasks of a job, without what tells them from their copies. -/
def taskData (d : Document Node) (job : Nat) : List (TaskNode Node) :=
  (d.tasksOf job).map fun t ↦
    { t with
      id := 0
      job := 0 }

/-- The numbers of all nodes are below `nextId`, and the tasks have different ones. -/
structure Numbered (d : Document Node) : Prop where
  jobs : ∀ j ∈ d.jobs, j.id < d.nextId ∧ j.parent < d.nextId
  tasksNodup : (d.tasks.map TaskNode.id).Nodup
  tasks : ∀ t ∈ d.tasks, t.id < d.nextId ∧ t.job < d.nextId

theorem Tree.numbered (htree : d.Tree) : d.Numbered where
  jobs j hj := by
    refine ⟨(htree.jobsBound j hj).2, ?_⟩
    rcases (htree.parents j hj).2 with heq | hin
    · rw [heq]
      exact htree.nextId
    · rcases List.mem_map.mp hin with ⟨j', hj', heq⟩
      rw [← heq]
      exact (htree.jobsBound j' hj').2
  tasksNodup := htree.tasksNodup
  tasks t ht := by
    have hbound := htree.tasksBound t ht
    rcases List.mem_map.mp hbound.2 with ⟨j, hj, heq⟩
    rw [← heq]
    exact ⟨hbound.1, (htree.jobsBound j hj).2⟩

end Document

namespace WorkflowInstance

variable {env : Environment Node} {context : Context Node} {before s s' s'' : WorkflowInstance Node}
variable {id x job : Nat} {task : TaskNode Node} {node : Node} {rest all : List Nat}
variable {events : List (Event Node)}

/-! ## The tasks of other jobs -/

/-- While `run` works on a job: the tasks of other jobs stay as they are, and the tasks that are visited
and the new ones are in the job. -/
structure Within (job : Nat) (all : List Nat) (before s : WorkflowInstance Node) : Prop where
  numbered : s.doc.Numbered
  nextId : before.doc.nextId ≤ s.doc.nextId
  tasks : ∀ y, y ≠ job → s.doc.tasksOf y = before.doc.tasksOf y
  inJob : ∀ t ∈ s.doc.tasks, t.id ∈ all ∨ before.doc.nextId ≤ t.id → t.job = job
  queued : before.queued <+: s.queued
  isCancelling : s.isCancelling = before.isCancelling

theorem Within.touched (h : Within job all before s) (htouched : Touched id events s s')
    (hid : id ∈ all ∨ before.doc.nextId ≤ id) : Within job all before s' := by
  rcases htouched.tasks with ⟨f, hf, heq⟩
  have hsame (t : TaskNode Node) : (if t.id = id then f t else t).id = t.id ∧
      (if t.id = id then f t else t).job = t.job := by
    by_cases ht : t.id = id
    · rw [if_pos ht]
      exact hf t
    · rw [if_neg ht]
      exact ⟨rfl, rfl⟩
  constructor
  case numbered =>
    constructor
    case jobs =>
      rw [htouched.jobs, htouched.nextId]
      exact h.numbered.jobs
    case tasksNodup =>
      rw [htouched.ids]
      exact h.numbered.tasksNodup
    case tasks =>
      rw [heq, htouched.nextId]
      intro t ht
      rcases List.mem_map.mp ht with ⟨t', ht', heq'⟩
      rw [← heq', (hsame t').1, (hsame t').2]
      exact h.numbered.tasks t' ht'
  case nextId =>
    rw [htouched.nextId]
    exact h.nextId
  case tasks =>
    intro y hy
    rw [← h.tasks y hy]
    unfold Document.tasksOf
    rw [heq, List.filter_map]
    have hfilter : ((fun t : TaskNode Node ↦ decide (t.job = y)) ∘
        fun t ↦ if t.id = id then f t else t) = fun t ↦ decide (t.job = y) := by
      funext t
      show decide ((if t.id = id then f t else t).job = y) = _
      rw [(hsame t).2]
    have hkept : ∀ t ∈ s.doc.tasks.filter (fun t ↦ decide (t.job = y)),
        (if t.id = id then f t else t) = t := by
      intro t ht
      rcases List.mem_filter.mp ht with ⟨ht, hjob⟩
      rw [if_neg]
      intro hin
      -- the task that is touched is one of the job's own or new, so it is not in another job
      have hown := h.inJob t ht (by rw [hin]; exact hid)
      exact hy ((of_decide_eq_true hjob).symm.trans hown)
    rw [hfilter, List.map_congr_left hkept, List.map_id']
  case inJob =>
    rw [heq]
    intro t ht hin
    rcases List.mem_map.mp ht with ⟨t', ht', heq'⟩
    rw [← heq', (hsame t').1] at hin
    rw [← heq', (hsame t').2]
    exact h.inJob t' ht' hin
  case queued =>
    rcases htouched.queued with ⟨more, hmore, -⟩
    rw [hmore]
    exact h.queued.trans (List.prefix_append _ _)
  case isCancelling => rw [htouched.isCancelling, h.isCancelling]

theorem Within.cloneTask (h : Within job all before s) (ht : task ∈ s.doc.tasks)
    (hjob : task.job = job) :
    Within job all before { s with doc := s.doc.cloneTask task } := by
  constructor
  case numbered =>
    constructor
    case jobs =>
      intro j hj
      have hbound := h.numbered.jobs j hj
      exact ⟨Nat.lt_succ_of_lt hbound.1, Nat.lt_succ_of_lt hbound.2⟩
    case tasksNodup =>
      show ((s.doc.tasks ++ [{ task with id := s.doc.nextId }]).map TaskNode.id).Nodup
      rw [List.map_append]
      apply nodup_snoc h.numbered.tasksNodup
      intro hin
      rcases List.mem_map.mp hin with ⟨t, ht', heq⟩
      exact absurd heq (Nat.ne_of_lt (h.numbered.tasks t ht').1)
    case tasks =>
      intro t ht'
      rcases List.mem_append.mp ht' with ht' | ht'
      · have hbound := h.numbered.tasks t ht'
        exact ⟨Nat.lt_succ_of_lt hbound.1, Nat.lt_succ_of_lt hbound.2⟩
      · rw [List.mem_singleton.mp ht']
        exact ⟨Nat.lt_succ_self _, Nat.lt_succ_of_lt (h.numbered.tasks task ht).2⟩
  case nextId => exact Nat.le_succ_of_le h.nextId
  case tasks =>
    intro y hy
    rw [← h.tasks y hy]
    show (s.doc.tasks ++ [{ task with id := s.doc.nextId }]).filter _ = s.doc.tasks.filter _
    rw [List.filter_append, List.filter_cons_of_neg, List.filter_nil, List.append_nil]
    rw [decide_eq_true_eq, hjob]
    exact Ne.symm hy
  case inJob =>
    intro t ht' hin
    rcases List.mem_append.mp ht' with ht' | ht'
    · exact h.inJob t ht' hin
    · rw [List.mem_singleton.mp ht']
      exact hjob
  case queued => exact h.queued
  case isCancelling => exact h.isCancelling

theorem Within.removeTask (h : Within job all before s) (hx : x ∈ all) :
    Within job all before { s with doc := s.doc.removeTask x } := by
  constructor
  case numbered =>
    constructor
    case jobs => exact h.numbered.jobs
    case tasksNodup => exact h.numbered.tasksNodup.sublist (List.filter_sublist.map _)
    case tasks => exact fun t ht ↦ h.numbered.tasks t (List.mem_of_mem_filter ht)
  case nextId => exact h.nextId
  case tasks =>
    intro y hy
    rw [← h.tasks y hy]
    show (s.doc.tasks.filter _).filter _ = s.doc.tasks.filter _
    rw [List.filter_filter]
    apply List.filter_congr
    intro t ht
    by_cases hid : t.id = x
    · have hjob := h.inJob t ht (.inl (hid ▸ hx))
      simp [hjob, Ne.symm hy]
    · simp [hid]
  case inJob => exact fun t ht ↦ h.inJob t (List.mem_of_mem_filter ht)
  case queued => exact h.queued
  case isCancelling => exact h.isCancelling

theorem taskLoop_within (env : Environment Node) (context : Context Node)
    (before : WorkflowInstance Node) (job : Nat) (all : List Nat) :
    SnapshotLoop.Keeps (taskLoop env context)
      (fun rest s ↦ (∀ x ∈ rest, x ∈ all) ∧ Within job all before s)
      (fun x rest s ↦ (∀ y ∈ x :: rest, y ∈ all) ∧ Within job all before s) (fun _ ↦ True) := by
  have htail {x : Nat} {rest : List Nat} (h : ∀ y ∈ x :: rest, y ∈ all) : ∀ y ∈ rest, y ∈ all :=
    fun y hy ↦ h y (List.mem_cons_of_mem _ hy)
  constructor
  case done =>
    intro x rest s s' h hvisit
    have hspec := visitTask_spec env context x s
    rw [show visitTask env context x s = _ from hvisit] at hspec
    rcases hspec with ⟨events, htouched, -⟩
    exact ⟨htail h.1, h.2.touched htouched (.inl (h.1 x List.mem_cons_self))⟩
  case failed => exact fun _ _ _ _ _ _ _ ↦ trivial
  case matched =>
    intro x rest s s' nodes h hvisit
    have hspec := visitTask_spec env context x s
    rw [show visitTask env context x s = _ from hvisit] at hspec
    exact ⟨h.1, h.2.touched hspec.1 (.inl (h.1 x List.mem_cons_self))⟩
  case expand =>
    intro x rest node s s' h hexpand
    refine ⟨h.1, ?_⟩
    by_cases hopen : x ∈ s.doc.tasks.map TaskNode.id
    · rcases expandTask_spec env node hopen with ⟨task, hfind, hspec⟩
      rw [show expandTask env x node s = _ from hexpand] at hspec
      rcases hspec with ⟨ready, htouched⟩
      have htask := task?_spec hfind
      have hjob := h.2.inJob task htask.1 (.inl (htask.2 ▸ h.1 x List.mem_cons_self))
      exact (h.2.cloneTask htask.1 hjob).touched htouched (.inr h.2.nextId)
    · rw [← task?_isSome, Bool.not_eq_true, Option.isSome_eq_false_iff,
        Option.isNone_iff_eq_none] at hopen
      have hsame : expandTask env x node s = (s, none) := by
        unfold expandTask
        rw [hopen]
      rw [show expandTask env x node s = _ from hexpand, Prod.mk.injEq] at hsame
      rw [hsame.1]
      exact h.2
  case expandFailed => exact fun _ _ _ _ _ _ _ _ ↦ trivial
  case finish =>
    exact fun x rest s h ↦ ⟨htail h.1, h.2.removeTask (h.1 x List.mem_cons_self)⟩

/-- A call of `run` leaves the tasks of other jobs as they are. -/
theorem run_within (hnumbered : s.doc.Numbered) (hrun : run env job context s = (s', none)) :
    Within job ((s.doc.tasksOf job).map TaskNode.id) s s' := by
  have hkeeps := taskLoop_within env context s job ((s.doc.tasksOf job).map TaskNode.id)
  refine ((hkeeps.iterate ⟨fun _ hx ↦ hx, ?_⟩ hrun).1 rfl).2
  constructor
  case numbered => exact hnumbered
  case nextId => exact Nat.le_refl _
  case tasks => exact fun _ _ ↦ rfl
  case inJob =>
    intro t ht hin
    rcases hin with hin | hnew
    · rcases List.mem_map.mp hin with ⟨t', ht', heq⟩
      rcases List.mem_filter.mp ht' with ⟨ht', hjob⟩
      rw [← List.inj_on_of_nodup_map hnumbered.tasksNodup ht' ht heq]
      exact of_decide_eq_true hjob
    · have hlt := (hnumbered.tasks t ht).1
      omega
  case queued => exact List.prefix_rfl
  case isCancelling => rfl

/-- No job is touched by `run`. -/
theorem run_job? (hrun : run env job context s = (s', none)) (y : Nat) :
    s'.doc.job? y = s.doc.job? y := by
  rcases run_jobTouched env context (y + 1) job s with ⟨events, htouched, -⟩
  rw [hrun] at htouched
  exact htouched.others y (Nat.ne_of_lt (Nat.lt_succ_self y))

/-! ## What a step of `run_subjobs` leaves alone -/

/-- Only the jobs `W` and their tasks are touched, and a new job has a new parent or is in `job`. -/
structure Aside (W : Nat → Prop) (job : Nat) (s s' : WorkflowInstance Node) : Prop where
  numbered : s'.doc.Numbered
  nextId : s.doc.nextId ≤ s'.doc.nextId
  jobs : ∀ y, ¬W y → s'.doc.job? y = s.doc.job? y
  tasks : ∀ y, ¬W y → s'.doc.tasksOf y = s.doc.tasksOf y
  links : ∀ j ∈ s'.doc.jobs, (∃ j' ∈ s.doc.jobs, j'.id = j.id ∧ j'.parent = j.parent) ∨
    (s.doc.nextId ≤ j.id ∧ (j.parent = job ∨ s.doc.nextId ≤ j.parent))
  queued : s.queued <+: s'.queued
  isCancelling : s'.isCancelling = s.isCancelling

variable {W : Nat → Prop}

theorem numbered_of_jobTouched (hnumbered : s.doc.Numbered) (h : JobTouched id events s s')
    (htasks : s'.doc.tasks = s.doc.tasks) : s'.doc.Numbered := by
  have hnext := h.nextId
  constructor
  case jobs =>
    intro j hj
    rcases h.link hj with ⟨j', hj', hid, hparent⟩
    have hbound := hnumbered.jobs j' hj'
    omega
  case tasksNodup =>
    rw [htasks]
    exact hnumbered.tasksNodup
  case tasks =>
    rw [htasks]
    intro t ht
    have hbound := hnumbered.tasks t ht
    omega

/-- A step that writes to one job only. -/
theorem aside_of_jobTouched (job : Nat) (hnumbered : s.doc.Numbered) (h : JobTouched id events s s')
    (htasks : s'.doc.tasks = s.doc.tasks) (hqueued : s'.queued = s.queued)
    (hcancel : s'.isCancelling = s.isCancelling) : Aside (· = id) job s s' := by
  constructor
  case numbered => exact numbered_of_jobTouched hnumbered h htasks
  case nextId => exact h.nextId
  case jobs => exact fun y hy ↦ h.others y hy
  case tasks =>
    intro y _
    unfold Document.tasksOf
    rw [htasks]
  case links => exact fun j hj ↦ .inl (h.link hj)
  case queued => exact hqueued ▸ List.prefix_rfl
  case isCancelling => exact hcancel

theorem aside_run (job : Nat) (hnumbered : s.doc.Numbered) (hrun : run env id context s = (s', none)) :
    Aside (· = id) job s s' := by
  have hwithin := run_within hnumbered hrun
  rcases run_jobTouched env context id id s with ⟨events, htouched, -⟩
  rw [hrun] at htouched
  constructor
  case numbered => exact hwithin.numbered
  case nextId => exact hwithin.nextId
  case jobs => exact fun y hy ↦ htouched.others y hy
  case tasks => exact hwithin.tasks
  case links => exact fun j hj ↦ .inl (htouched.link hj)
  case queued => exact hwithin.queued
  case isCancelling => exact hwithin.isCancelling

/-- A visit that does not fail touches its job only. -/
def VisitAside (id job : Nat) (s : WorkflowInstance Node) :
    SnapshotLoop.Turn Node (WorkflowInstance Node) String → Prop
  | .done s' => Aside (· = id) job s s'
  | .failed _ _ => True
  | .matched s' _ => Aside (· = id) job s s' ∧ s'.doc.tasks = s.doc.tasks

theorem launchSubjob_aside (env : Environment Node) (job id : Nat) (loop : Option String)
    (hnumbered : s.doc.Numbered) : VisitAside id job s (launchSubjob env job id loop s) := by
  unfold launchSubjob
  cases loop with
  | some loopXpath =>
    have hset : JobTouched id [] s (s.setJob id fun j ↦ { j with loop := none }) :=
      jobTouched_setJob fun _ ↦ ⟨rfl, rfl⟩
    dsimp only
    cases env.evaluate (s.setJob id fun j ↦ { j with loop := none }).doc (.element job) loopXpath with
    | none => exact trivial
    | some nodes =>
      exact ⟨aside_of_jobTouched job hnumbered (hset.trans (jobTouched_log id _ _)) rfl rfl rfl, rfl⟩
  | none =>
    dsimp only
    rcases hrun : run env id (.element job) s with ⟨t, _ | e⟩
    · exact aside_run job hnumbered hrun
    · exact trivial

theorem visitSubjob_aside (env : Environment Node) (job id : Nat) (hnumbered : s.doc.Numbered) :
    VisitAside id job s (visitSubjob env job id s) := by
  unfold visitSubjob
  cases s.doc.job? id with
  | none => exact aside_of_jobTouched job hnumbered (JobTouched.refl id s) rfl rfl rfl
  | some subjob =>
    dsimp only
    cases subjob.condition with
    | none => exact launchSubjob_aside env job id subjob.loop hnumbered
    | some condition =>
      dsimp only
      cases env.evaluateTest s.doc (.element job) condition with
      | invalid => exact trivial
      | noResult => exact trivial
      | value n =>
        dsimp only
        by_cases hn : n = 0
        · rw [if_pos hn]
          exact aside_of_jobTouched job hnumbered (jobTouched_setJob fun _ ↦ ⟨rfl, rfl⟩) rfl rfl rfl
        · rw [if_neg hn]
          exact launchSubjob_aside env job id subjob.loop hnumbered

/-! ## The clone of a job in the document -/

theorem tasksOf_cloneJob {d : Document Node} (x : Nat) {y : Nat} (hy : y < d.nextId) :
    (d.cloneJob x).tasksOf y = d.tasksOf y := by
  have hnew (f : Nat → TaskNode Node → TaskNode Node) (hf : ∀ i t, d.nextId ≤ (f i t).job)
      (ts : List (TaskNode Node)) : (ts.mapIdx f).filter (fun t ↦ decide (t.job = y)) = [] := by
    rw [List.filter_eq_nil_iff]
    intro t ht
    rcases List.mem_mapIdx.mp ht with ⟨i, hi, heq⟩
    have hjob := hf i (ts[i])
    rw [heq] at hjob
    rw [decide_eq_true_eq]
    omega
  show (d.tasks ++ _).filter _ = d.tasks.filter _
  rw [List.filter_append, hnew _ fun _ _ ↦ Nat.le_add_right _ _, List.append_nil]

/-- The parents of what is below a job, but for the job itself, are below it. -/
def Rooted (d : Document Node) (x : Nat) : Prop :=
  ∀ j ∈ d.jobs, j.id ∈ d.subtree x → j.id ≠ x → j.parent ∈ d.subtree x

theorem numbered_cloneJob {d : Document Node} (h : d.Numbered) (hrooted : Rooted d x) :
    (d.cloneJob x).Numbered := by
  have hnext : (d.cloneJob x).nextId = d.nextId + (d.subtree x).length + d.tasks.length := rfl
  have hclone {y : Nat} (hy : y ∈ d.subtree x) := cloneId_bound hy
  constructor
  case jobs =>
    intro j hj
    rw [hnext]
    rcases List.mem_append.mp hj with hj | hj
    · have hlt := h.jobs j hj
      omega
    · rcases List.mem_map.mp hj with ⟨j', hj', heq⟩
      have hin := of_decide_eq_true (List.mem_filter.mp hj').2
      have hbound := hclone hin
      have hold := h.jobs j' (List.mem_of_mem_filter hj')
      rw [← heq]
      show cloneId d x j'.id < _ ∧ (if j'.id = x then j'.parent else cloneId d x j'.parent) < _
      by_cases hroot : j'.id = x
      · rw [if_pos hroot]
        omega
      · have hparent := hclone (hrooted j' (List.mem_of_mem_filter hj') hin hroot)
        rw [if_neg hroot]
        omega
  case tasksNodup =>
    show (d.tasks ++ _).map TaskNode.id |>.Nodup
    rw [List.map_append, List.nodup_append, map_mapIdx]
    refine ⟨h.tasksNodup, nodup_mapIdx_add _ _, ?_⟩
    intro a ha c hc heq
    rcases List.mem_map.mp ha with ⟨t, ht, hid⟩
    rcases List.mem_mapIdx.mp hc with ⟨i, hi, hid'⟩
    have hlt := (h.tasks t ht).1
    have hid' : d.nextId + (d.subtree x).length + i = c := hid'
    omega
  case tasks =>
    intro t ht
    rw [hnext]
    rcases List.mem_append.mp ht with ht | ht
    · have hbound := h.tasks t ht
      omega
    · rcases List.mem_mapIdx.mp ht with ⟨i, hi, heq⟩
      have hin := List.mem_filter.mp (List.getElem_mem hi)
      have hlength := List.length_filter_le (fun t : TaskNode Node ↦ t.job ∈ d.subtree x) d.tasks
      have hbound := hclone (of_decide_eq_true hin.2)
      rw [← heq]
      constructor
      · show d.nextId + (d.subtree x).length + i < _
        omega
      · show cloneId d x _ < _
        omega

theorem cloneId_inj {d : Document Node} {y z : Nat} (hy : y ∈ d.subtree x)
    (h : cloneId d x y = cloneId d x z) : y = z := by
  unfold cloneId at h
  exact (List.idxOf_inj hy).mp (Nat.add_left_cancel h)

/-- What is below the clone is what is below the job, under new numbers. -/
theorem job?_cloneJob_new {d : Document Node} (h : d.Numbered) {y : Nat} (hy : y ∈ d.subtree x) :
    (d.cloneJob x).job? (cloneId d x y) = (d.job? y).map fun j ↦
      { j with
        id := cloneId d x y
        parent := if y = x then j.parent else cloneId d x j.parent } := by
  have hold : d.jobs.find? (fun j ↦ decide (j.id = cloneId d x y)) = none := by
    rw [List.find?_eq_none]
    intro j hj
    have hlt := (h.jobs j hj).1
    have hbound := cloneId_bound hy
    rw [decide_eq_true_eq]
    omega
  have hbelow : ((d.jobs.filter fun j ↦ j.id ∈ d.subtree x).find? fun j ↦
      decide (cloneId d x j.id = cloneId d x y)) = d.job? y := by
    rw [List.find?_filter]
    show d.jobs.find? _ = d.jobs.find? _
    congr 1
    funext j
    by_cases heq : j.id = y
    · simp [heq, hy]
    · have hne : ¬(j.id ∈ d.subtree x ∧ cloneId d x j.id = cloneId d x y) :=
        fun hboth ↦ heq (cloneId_inj hboth.1 hboth.2)
      simpa [heq] using hne
  show (d.jobs ++ _).find? _ = _
  rw [List.find?_append, hold, Option.none_or, List.find?_map]
  show Option.map _ ((d.jobs.filter fun j ↦ j.id ∈ d.subtree x).find? fun j ↦
    decide (cloneId d x j.id = cloneId d x y)) = _
  rw [hbelow]
  cases hfind : d.job? y with
  | none => rfl
  | some j =>
    have hid : j.id = y := by simpa using List.find?_some hfind
    rw [Option.map_some, Option.map_some, hid]
    rfl

theorem filter_mapIdx_data (ren : Nat → Nat) (y : Nat) (ts : List (TaskNode Node))
    (number : Nat → Nat) (hren : ∀ t ∈ ts, ren t.job = ren y → t.job = y) :
    ((ts.mapIdx fun i t ↦
      { t with
        id := number i
        job := ren t.job }).filter fun t ↦ decide (t.job = ren y)).map (fun t ↦
      { t with
        id := 0
        job := 0 }) =
    (ts.filter fun t ↦ decide (t.job = y)).map fun t ↦
      { t with
        id := 0
        job := 0 } := by
  induction ts generalizing number with
  | nil => rfl
  | cons t ts ih =>
    have hrest := ih (fun i ↦ number (i + 1)) fun t ht ↦ hren t (List.mem_cons_of_mem _ ht)
    rw [List.mapIdx_cons, List.filter_cons, List.filter_cons]
    by_cases heq : t.job = y
    · rw [if_pos (by simp [heq]), if_pos (by simp [heq]), List.map_cons, List.map_cons, hrest]
    · have hne := fun h ↦ heq (hren t List.mem_cons_self h)
      rw [if_neg (by simpa using hne), if_neg (by simpa using heq), hrest]

theorem taskData_cloneJob {d : Document Node} (h : d.Numbered) {y : Nat} (hy : y ∈ d.subtree x) :
    (d.cloneJob x).taskData (cloneId d x y) = d.taskData y := by
  have hold : d.tasks.filter (fun t ↦ decide (t.job = cloneId d x y)) = [] := by
    rw [List.filter_eq_nil_iff]
    intro t ht
    have hlt := (h.tasks t ht).2
    have hbound := cloneId_bound hy
    rw [decide_eq_true_eq]
    omega
  have hbelow : (d.tasks.filter fun t ↦ t.job ∈ d.subtree x).filter (fun t ↦ decide (t.job = y)) =
      d.tasks.filter fun t ↦ decide (t.job = y) := by
    rw [List.filter_filter]
    apply List.filter_congr
    intro t _
    by_cases heq : t.job = y
    · simp [heq, hy]
    · simp [heq]
  show ((d.tasks ++ _).filter _).map _ = _
  rw [List.filter_append, hold, List.nil_append]
  have hdata := filter_mapIdx_data (cloneId d x) y (d.tasks.filter fun t ↦ t.job ∈ d.subtree x)
    (fun i ↦ d.nextId + (d.subtree x).length + i) ?_
  · refine hdata.trans ?_
    rw [hbelow]
    rfl
  · intro t ht heq
    exact cloneId_inj (of_decide_eq_true (List.mem_filter.mp ht).2) heq

/-- An expansion that does not fail only makes new jobs, and runs one of them. -/
theorem expandSubjob_run (hexpand : expandSubjob env id node s = (s', none)) :
    run env s.doc.nextId (.matched node)
      ({ s with doc := s.doc.cloneJob id }.log (.jobCloned id s.doc.nextId node)) = (s', none) := by
  unfold expandSubjob at hexpand
  dsimp only at hexpand
  rcases hrun : run env s.doc.nextId (.matched node)
    ({ s with doc := s.doc.cloneJob id }.log (.jobCloned id s.doc.nextId node)) with ⟨t, _ | e⟩
  · rw [hrun] at hexpand
    rw [hrun]
    exact hexpand
  · rw [hrun] at hexpand
    simp at hexpand

theorem expandSubjob_aside (hnumbered : s.doc.Numbered) (hrooted : Rooted s.doc id)
    (hparent : ∀ j ∈ s.doc.jobs, j.id = id → j.parent = job)
    (hexpand : expandSubjob env id node s = (s', none)) :
    Aside (s.doc.nextId ≤ ·) job s s' := by
  have hrun := expandSubjob_run hexpand
  have hwithin := run_within (numbered_cloneJob hnumbered hrooted) hrun
  rcases run_jobTouched env (.matched node) id s.doc.nextId
    ({ s with doc := s.doc.cloneJob id }.log (.jobCloned id s.doc.nextId node)) with ⟨events, h, -⟩
  rw [hrun] at h
  constructor
  case numbered => exact hwithin.numbered
  case nextId => exact Nat.le_trans (Nat.le_of_lt (lt_nextId_cloneJob s.doc id)) hwithin.nextId
  case jobs =>
    intro y hy
    rw [run_job? hrun y]
    exact job?_cloneJob (Nat.lt_of_not_le hy) id
  case tasks =>
    intro y hy
    rw [hwithin.tasks y (by omega)]
    exact tasksOf_cloneJob id (Nat.lt_of_not_le hy)
  case links =>
    intro j hj
    rcases h.link hj with ⟨j', hj', hid, hlink⟩
    rcases mem_cloneJob hj' with hold | ⟨hnew, hnewParent | ⟨j'', hj'', hid'', hparent''⟩⟩
    · exact .inl ⟨j', hold, hid, hlink⟩
    · rw [← hid, ← hlink]
      exact .inr ⟨hnew, .inr hnewParent⟩
    · rw [← hid, ← hlink, hparent'', hparent j'' hj'' hid'']
      exact .inr ⟨hnew, .inl rfl⟩
  case queued => exact hwithin.queued
  case isCancelling => exact hwithin.isCancelling

theorem removeJob_aside (job : Nat) (hnumbered : s.doc.Numbered) (x : Nat) :
    Aside (· ∈ s.doc.subtree x) job s { s with doc := s.doc.removeJob x } := by
  constructor
  case numbered =>
    constructor
    case jobs => exact fun j hj ↦ hnumbered.jobs j (List.mem_of_mem_filter hj)
    case tasksNodup => exact hnumbered.tasksNodup.sublist (List.filter_sublist.map _)
    case tasks => exact fun t ht ↦ hnumbered.tasks t (List.mem_of_mem_filter ht)
  case nextId => exact Nat.le_refl _
  case jobs => exact fun y hy ↦ job?_removeJob hy
  case tasks =>
    intro y hy
    show (s.doc.tasks.filter _).filter _ = s.doc.tasks.filter _
    rw [List.filter_filter]
    apply List.filter_congr
    intro t _
    by_cases heq : t.job = y
    · simp [heq, hy]
    · simp [heq]
  case links => exact fun j hj ↦ .inl ⟨j, List.mem_of_mem_filter hj, rfl, rfl⟩
  case queued => exact List.prefix_rfl
  case isCancelling => rfl

/-! ## What the clones are -/

/-- `copy` tells which node of the clone is the copy of which job below the looped job `id`, as the state
`before` has it.  The copies are new jobs with the data of theirs, but for the loop; below them are the
tasks of theirs, but for those of the clone itself: for these `run` was called. -/
structure IsJobClone (env : Environment Node) (before s : WorkflowInstance Node) (id clone : Nat)
    (node : Node) (copy : Nat → Nat) : Prop where
  root : copy id = clone
  injective : ∀ y ∈ before.doc.subtree id, ∀ z ∈ before.doc.subtree id, copy y = copy z → y = z
  new : ∀ y ∈ before.doc.subtree id, before.doc.nextId ≤ copy y
  jobs : ∀ y ∈ before.doc.subtree id, s.doc.job? (copy y) = (before.doc.job? y).map fun j ↦
    { j with
      id := copy y
      parent := if y = id then j.parent else copy j.parent
      loop := if y = id then none else j.loop }
  closed : ∀ j ∈ s.doc.jobs, j.parent ∈ (before.doc.subtree id).map copy →
    j.id ∈ (before.doc.subtree id).map copy
  tasks : ∀ y ∈ before.doc.subtree id, y ≠ id → s.doc.taskData (copy y) = before.doc.taskData y
  ran : ∃ t t' : WorkflowInstance Node, t.doc.taskData clone = before.doc.taskData id ∧
    t.isCancelling = before.isCancelling ∧ before.queued <+: t.queued ∧
    run env clone (.matched node) t = (t', none) ∧
    t'.doc.tasksOf clone = s.doc.tasksOf clone ∧ t'.queued <+: s.queued

variable {clone : Nat} {copy : Nat → Nat}

/-- Steps elsewhere leave a clone as it is. -/
theorem IsJobClone.aside (h : IsJobClone env before s id clone node copy) (haside : Aside W job s s')
    (hcopy : ∀ y ∈ before.doc.subtree id, ¬W (copy y) ∧ copy y < s.doc.nextId)
    (hjob : job ∉ (before.doc.subtree id).map copy) :
    IsJobClone env before s' id clone node copy := by
  have hself := before.doc.mem_subtree_self id
  have hold {y : Nat} (hy : y ∈ (before.doc.subtree id).map copy) : y < s.doc.nextId := by
    rcases List.mem_map.mp hy with ⟨z, hz, heq⟩
    rw [← heq]
    exact (hcopy z hz).2
  constructor
  case root => exact h.root
  case injective => exact h.injective
  case new => exact h.new
  case jobs =>
    intro y hy
    rw [haside.jobs _ (hcopy y hy).1]
    exact h.jobs y hy
  case closed =>
    intro j hj hin
    rcases haside.links j hj with ⟨j', hj', hid, hparent⟩ | ⟨-, heq | hparent⟩
    · rw [← hid]
      rw [← hparent] at hin
      exact h.closed j' hj' hin
    · rw [heq] at hin
      exact absurd hin hjob
    · exact absurd (hold hin) (Nat.not_lt_of_le hparent)
  case tasks =>
    intro y hy hne
    rw [← h.tasks y hy hne]
    unfold Document.taskData
    rw [haside.tasks _ (hcopy y hy).1]
  case ran =>
    rcases h.ran with ⟨t, t', hdata, hcancel, hqueued, hrun, htasks, hqueued'⟩
    refine ⟨t, t', hdata, hcancel, hqueued, hrun, ?_, hqueued'.trans haside.queued⟩
    have hroot := (hcopy id hself).1
    rw [h.root] at hroot
    rw [htasks, haside.tasks clone hroot]

/-- The clone that an expansion makes, of a job below which nothing has changed but its own loop. -/
theorem expandSubjob_clone (hnumbered : s.doc.Numbered) (hrooted : Rooted s.doc id)
    (hnext : before.doc.nextId ≤ s.doc.nextId)
    (hsubtree : s.doc.subtree id = before.doc.subtree id)
    (hjobs : ∀ y ∈ before.doc.subtree id, s.doc.job? y = (before.doc.job? y).map fun j ↦
      { j with loop := if y = id then none else j.loop })
    (htasks : ∀ y ∈ before.doc.subtree id, s.doc.tasksOf y = before.doc.tasksOf y)
    (hqueued : before.queued <+: s.queued) (hcancel : s.isCancelling = before.isCancelling)
    (hexpand : expandSubjob env id node s = (s', none)) :
    IsJobClone env before s' id s.doc.nextId node (cloneId s.doc id) := by
  have hrun := expandSubjob_run hexpand
  have hwithin := run_within (numbered_cloneJob hnumbered hrooted) hrun
  have hroot : cloneId s.doc id id = s.doc.nextId := by
    unfold cloneId
    rw [Document.idxOf_subtree, Nat.add_zero]
  have hin {y : Nat} (hy : y ∈ before.doc.subtree id) : y ∈ s.doc.subtree id := hsubtree ▸ hy
  have hdata {y : Nat} (hy : y ∈ before.doc.subtree id) :
      (s.doc.cloneJob id).taskData (cloneId s.doc id y) = before.doc.taskData y := by
    rw [taskData_cloneJob hnumbered (hin hy)]
    unfold Document.taskData
    rw [htasks y hy]
  constructor
  case root => exact hroot
  case injective => exact fun y hy z hz heq ↦ cloneId_inj (hin hy) heq
  case new => exact fun y hy ↦ Nat.le_trans hnext (cloneId_bound (hin hy)).1
  case jobs =>
    intro y hy
    rw [run_job? hrun]
    show (s.doc.cloneJob id).job? (cloneId s.doc id y) = _
    rw [job?_cloneJob_new hnumbered (hin hy), hjobs y hy, Option.map_map]
    rfl
  -- a job below a clone is a clone itself: no older job has a parent that is new
  case closed =>
    intro j hj hparent
    rcases run_jobTouched env (.matched node) id s.doc.nextId
      ({ s with doc := s.doc.cloneJob id }.log (.jobCloned id s.doc.nextId node)) with ⟨events, h, -⟩
    rw [hrun] at h
    rcases h.link hj with ⟨j', hj', hid, hlink⟩
    rw [← hid]
    rw [← hlink] at hparent
    rcases List.mem_map.mp hparent with ⟨z, hz, heq⟩
    have hbound := cloneId_bound (hin hz)
    rcases List.mem_append.mp hj' with hold | hnew
    · have hlt := (hnumbered.jobs j' hold).2
      omega
    · rcases List.mem_map.mp hnew with ⟨j'', hj'', heq''⟩
      have hbelow := of_decide_eq_true (List.mem_filter.mp hj'').2
      rw [← heq'']
      exact List.mem_map.mpr ⟨j''.id, hsubtree ▸ hbelow, rfl⟩
  -- the run of the top clone starts its own tasks only, those of the jobs below it stay as cloned
  case tasks =>
    intro y hy hne
    have hother : cloneId s.doc id y ≠ s.doc.nextId := by
      rw [← hroot]
      exact fun heq ↦ hne (cloneId_inj (hin hy) heq)
    rw [← hdata hy]
    unfold Document.taskData
    rw [hwithin.tasks _ hother]
    rfl
  case ran =>
    have hself := before.doc.mem_subtree_self id
    refine ⟨_, s', ?_, ?_, ?_, hrun, rfl, List.prefix_rfl⟩
    · rw [← hdata hself, hroot]
      rfl
    · exact hcancel
    · exact hqueued

/-! ## Every clone is one -/

def subjobIds (s : WorkflowInstance Node) (job : Nat) : List Nat :=
  (s.doc.subjobsOf job).map JobNode.id

/-- The subjobs that were matched since. -/
def matchedJobsSince (before s : WorkflowInstance Node) : List Nat :=
  ((s.since before).filterMap Event.matchedJob?).map Prod.fst

def jobClonesSince (before s : WorkflowInstance Node) : List Nat :=
  (s.since before).filterMap Event.jobClone?

/-- Below the subjobs that are still to be visited or cloned nothing has changed, but for the loop of the
one that is cloned, and the job has the subjobs that were not expanded, and behind them the clones. -/
structure CloningJobs (env : Environment Node) (before : WorkflowInstance Node) (job : Nat)
    (pending rest : List Nat) (s : WorkflowInstance Node) : Prop where
  numbered : s.doc.Numbered
  nextId : before.doc.nextId ≤ s.doc.nextId
  oldLinks : ∀ j ∈ s.doc.jobs, j.id < before.doc.nextId →
    ∃ j' ∈ before.doc.jobs, j'.id = j.id ∧ j'.parent = j.parent
  newLinks : ∀ j ∈ s.doc.jobs, before.doc.nextId ≤ j.id →
    j.parent = job ∨ before.doc.nextId ≤ j.parent
  links : ∀ x ∈ pending ++ rest, s.doc.links.filter (fun link ↦ link.1 ∈ before.doc.subtree x) =
    before.doc.links.filter fun link ↦ link.1 ∈ before.doc.subtree x
  jobs : ∀ x ∈ pending ++ rest, ∀ y ∈ before.doc.subtree x, s.doc.job? y =
    (before.doc.job? y).map fun j ↦ { j with loop := if y ∈ pending then none else j.loop }
  tasks : ∀ x ∈ pending ++ rest, ∀ y ∈ before.doc.subtree x, s.doc.tasksOf y = before.doc.tasksOf y
  opened : ∀ x ∈ pending, x ∈ matchedJobsSince before s
  queued : before.queued <+: s.queued
  isCancelling : s.isCancelling = before.isCancelling
  new : ∀ x ∈ jobClonesSince before s, before.doc.nextId ≤ x
  clones : ∀ x clone node, .jobCloned x clone node ∈ s.since before → x ∈ subjobIds before job ∧
    ∃ copy, IsJobClone env before s x clone node copy ∧
      ∀ y ∈ before.doc.subtree x, copy y < s.doc.nextId
  subjobs : subjobIds s job = ((subjobIds before job).filter fun x ↦
    x ∈ pending ∨ x ∉ matchedJobsSince before s) ++ jobClonesSince before s

section Subjobs

variable {y : Nat}

theorem subjob_mem (hx : x ∈ subjobIds before job) :
    ∃ j ∈ before.doc.jobs, j.id = x ∧ j.parent = job := by
  rcases List.mem_map.mp hx with ⟨j, hj, heq⟩
  rcases List.mem_filter.mp hj with ⟨hj, hparent⟩
  exact ⟨j, hj, heq, of_decide_eq_true hparent⟩

variable (htree : before.doc.Tree)
include htree

theorem subjob_bound (hx : x ∈ subjobIds before job) :
    job < before.doc.nextId ∧ ∀ y ∈ before.doc.subtree x, y < before.doc.nextId := by
  rcases subjob_mem hx with ⟨j, hj, heq, hparent⟩
  have hbound := htree.numbered.jobs j hj
  rw [heq, hparent] at hbound
  exact ⟨hbound.2, htree.subtree_bound hbound.1⟩

theorem job_notMem_subtree (hx : x ∈ subjobIds before job) : job ∉ before.doc.subtree x := by
  rcases subjob_mem hx with ⟨j, hj, heq, hparent⟩
  rw [← heq, ← hparent]
  exact htree.parent_notMem hj

theorem subjobs_disjoint {x' : Nat} (hx : x ∈ subjobIds before job) (hx' : x' ∈ subjobIds before job)
    (hne : x ≠ x') : ∀ y ∈ before.doc.subtree x, y ∉ before.doc.subtree x' := by
  rcases subjob_mem hx with ⟨j, hj, heq, hparent⟩
  rcases subjob_mem hx' with ⟨j', hj', heq', hparent'⟩
  rw [← heq, ← heq']
  exact htree.subtree_disjoint hj hj' (hparent.trans hparent'.symm) (by rw [heq, heq']; exact hne)

variable {pending : List Nat}

/-- The children of what is below a subjob were there before. -/
theorem CloningJobs.closed (h : CloningJobs env before job pending rest s)
    (hx : x ∈ subjobIds before job) :
    ∀ j ∈ s.doc.jobs, j.parent ∈ before.doc.subtree x → j.id ∈ before.doc.subtree x := by
  intro j hj hparent
  have hbound := subjob_bound htree hx
  by_cases hold : j.id < before.doc.nextId
  · rcases h.oldLinks j hj hold with ⟨j', hj', hid, hlink⟩
    rw [← hid]
    rw [← hlink] at hparent
    exact htree.mem_subtree hj' hparent
  · rcases h.newLinks j hj (Nat.le_of_not_lt hold) with heq | hnew
    · rw [heq] at hparent
      exact absurd hparent (job_notMem_subtree htree hx)
    · exact absurd (hbound.2 _ hparent) (Nat.not_lt_of_le hnew)

theorem CloningJobs.subtree_eq (h : CloningJobs env before job pending rest s)
    (hx : x ∈ subjobIds before job) (hin : x ∈ pending ++ rest) :
    s.doc.subtree x = before.doc.subtree x :=
  Document.subtree_congr (before.doc.mem_subtree_self x) (fun _ hj ↦ htree.mem_subtree hj)
    (h.closed htree hx) (h.links x hin)

theorem CloningJobs.rooted (h : CloningJobs env before job pending rest s)
    (hx : x ∈ subjobIds before job) (hin : x ∈ pending ++ rest) : Rooted s.doc x := by
  intro j hj hbelow hne
  rw [h.subtree_eq htree hx hin] at hbelow ⊢
  rcases h.oldLinks j hj ((subjob_bound htree hx).2 _ hbelow) with ⟨j', hj', hid, hlink⟩
  rw [← hid] at hbelow hne
  rw [← hlink]
  exact htree.parent_mem_subtree hj' hbelow hne

theorem CloningJobs.parent_eq (h : CloningJobs env before job pending rest s)
    (hx : x ∈ subjobIds before job) : ∀ j ∈ s.doc.jobs, j.id = x → j.parent = job := by
  intro j hj heq
  have hlt := (subjob_bound htree hx).2 x (before.doc.mem_subtree_self x)
  rcases h.oldLinks j hj (by omega) with ⟨j', hj', hid, hlink⟩
  rcases subjob_mem hx with ⟨j'', hj'', hid'', hparent⟩
  rw [← hlink, ← hparent, List.inj_on_of_nodup_map htree.jobsNodup hj' hj''
    (by rw [hid, hid'', heq])]

/-- The clones that were made stay what they are. -/
theorem CloningJobs.clones_aside (h : CloningJobs env before job pending rest s)
    (haside : Aside W job s s')
    (hW : ∀ y, before.doc.nextId ≤ y → y < s.doc.nextId → ¬W y) {node : Node}
    (hin : .jobCloned x clone node ∈ s.since before) : x ∈ subjobIds before job ∧
      ∃ copy, IsJobClone env before s' x clone node copy ∧
        ∀ y ∈ before.doc.subtree x, copy y < s'.doc.nextId := by
  rcases h.clones x clone node hin with ⟨hx, copy, hclone, hbound⟩
  refine ⟨hx, copy, hclone.aside haside ?_ ?_, ?_⟩
  · intro y hy
    exact ⟨hW _ (hclone.new y hy) (hbound y hy), hbound y hy⟩
  · intro hcopy
    rcases List.mem_map.mp hcopy with ⟨y, hy, heq⟩
    have hnew := hclone.new y hy
    have hjob := (subjob_bound htree hx).1
    omega
  · exact fun y hy ↦ Nat.lt_of_lt_of_le (hbound y hy) haside.nextId

omit htree in
theorem subjobIds_eq (s : WorkflowInstance Node) (job : Nat) :
    subjobIds s job = (s.doc.links.filter fun link ↦ link.2 = job).map Prod.fst := by
  unfold subjobIds Document.links Document.subjobsOf
  rw [List.filter_map, List.map_map]
  rfl

/-- A visit that does not fail leaves everything below the other subjobs as it is. -/
theorem CloningJobs.visit (h : CloningJobs env before job [] (x :: rest) s)
    (hall : ∀ y ∈ x :: rest, y ∈ subjobIds before job) (hnodup : (x :: rest).Nodup)
    (haside : Aside (· = x) job s s') (htouched : JobTouched x events s s')
    (hsince : s'.since before = s.since before ++ events)
    (hevents : ∀ e ∈ events, e.jobClone? = none)
    (hpending : ∀ y ∈ pending, y = x ∧ x ∈ matchedJobsSince before s' ∧
      s'.doc.tasks = s.doc.tasks ∧
      s'.doc.job? x = (s.doc.job? x).map fun j ↦ { j with loop := none })
    (hmatched : ((subjobIds before job).filter fun y ↦ y ∈ pending ∨ y ∉ matchedJobsSince before s') =
      (subjobIds before job).filter fun y ↦ y ∉ matchedJobsSince before s) :
    CloningJobs env before job pending rest s' := by
  have hx := hall x List.mem_cons_self
  have hself := before.doc.mem_subtree_self x
  have hxold := (subjob_bound htree hx).2 x hself
  have hclones : jobClonesSince before s' = jobClonesSince before s := by
    unfold jobClonesSince
    rw [hsince, List.filterMap_append, List.filterMap_eq_nil_iff.mpr hevents, List.append_nil]
  have hlinks : s'.doc.links = s.doc.links := htouched.links
  have hin {x' : Nat} (hx' : x' ∈ pending ++ rest) : x' ∈ x :: rest := by
    rcases List.mem_append.mp hx' with hx' | hx'
    · rw [(hpending x' hx').1]
      exact List.mem_cons_self
    · exact List.mem_cons_of_mem _ hx'
  -- below the other subjobs
  have hother {x' y : Nat} (hx' : x' ∈ rest) (hy : y ∈ before.doc.subtree x') : y ≠ x := by
    intro heq
    rw [heq] at hy
    have hne : x ≠ x' := fun heq' ↦ (List.nodup_cons.mp hnodup).1 (heq' ▸ hx')
    exact subjobs_disjoint htree hx (hall x' (List.mem_cons_of_mem _ hx')) hne x hself hy
  constructor
  case numbered => exact haside.numbered
  case nextId => exact Nat.le_trans h.nextId haside.nextId
  case oldLinks =>
    intro j hj hold
    rcases htouched.link hj with ⟨j', hj', hid, hlink⟩
    rw [← hid, ← hlink]
    exact h.oldLinks j' hj' (by rw [hid]; exact hold)
  case newLinks =>
    intro j hj hnew
    rcases htouched.link hj with ⟨j', hj', hid, hlink⟩
    rw [← hlink]
    exact h.newLinks j' hj' (by rw [hid]; exact hnew)
  case links =>
    intro x' hx'
    rw [hlinks]
    exact h.links x' (hin hx')
  case jobs =>
    intro x' hx' y hy
    have hold := h.jobs x' (hin hx') y hy
    simp only [List.not_mem_nil, if_false, Option.map_id'] at hold
    -- an opened subjob has lost its `loop`; nothing else has changed
    by_cases hyx : y ∈ pending
    · rcases hpending y hyx with ⟨heq, -, -, hjob⟩
      rw [heq] at hold
      simp only [hyx, if_true]
      rw [heq, hjob, hold]
    · have hne : y ≠ x := by
        rcases List.mem_append.mp hx' with hx' | hx'
        · intro heq
          rw [(hpending x' hx').1, ← heq] at hx'
          exact hyx hx'
        · exact hother hx' hy
      simp only [hyx, if_false, Option.map_id']
      rw [haside.jobs y hne, hold]
  case tasks =>
    intro x' hx' y hy
    rw [← h.tasks x' (hin hx') y hy]
    rcases List.mem_append.mp hx' with hx' | hx'
    · unfold Document.tasksOf
      rw [(hpending x' hx').2.2.1]
    · exact haside.tasks y (hother hx' hy)
  case opened =>
    intro y hy
    rw [(hpending y hy).1]
    exact (hpending y hy).2.1
  case queued => exact h.queued.trans haside.queued
  case isCancelling => rw [haside.isCancelling, h.isCancelling]
  case new =>
    rw [hclones]
    exact h.new
  case clones =>
    intro x' clone node hx'
    rw [hsince] at hx'
    rcases List.mem_append.mp hx' with hx' | hx'
    · exact h.clones_aside htree haside (fun y hy _ heq ↦ by omega) hx'
    · cases hevents _ hx'
  case subjobs =>
    rw [subjobIds_eq, hlinks, ← subjobIds_eq, h.subjobs, hclones, hmatched]
    simp

omit htree in
theorem links_cloneJob (d : Document Node) (x : Nat) :
    (d.cloneJob x).links = d.links ++ (d.links.filter fun link ↦ link.1 ∈ d.subtree x).map
      fun link ↦ (cloneId d x link.1, if link.1 = x then link.2 else cloneId d x link.2) := by
  show (d.jobs ++ _).map _ = _
  unfold Document.links
  rw [List.map_append, List.map_map, List.filter_map, List.map_map]
  rfl

omit htree in
theorem filter_fst_eq {links : List (Nat × Nat)} (hnodup : (links.map Prod.fst).Nodup)
    {link : Nat × Nat} (hin : link ∈ links) : links.filter (fun l ↦ l.1 = link.1) = [link] := by
  induction links with
  | nil => cases hin
  | cons l links ih =>
    rw [List.map_cons, List.nodup_cons] at hnodup
    rw [List.filter_cons]
    rcases List.mem_cons.mp hin with heq | hin
    · have hnone : links.filter (fun l ↦ l.1 = link.1) = [] := by
        rw [List.filter_eq_nil_iff]
        intro l' hl' heq'
        have heq' : l'.1 = link.1 := of_decide_eq_true heq'
        rw [heq] at heq'
        exact hnodup.1 (heq' ▸ List.mem_map_of_mem hl')
      rw [if_pos (by rw [heq]; simp), hnone, heq]
    · have hne : l.1 ≠ link.1 := fun heq ↦ hnodup.1 (heq ▸ List.mem_map_of_mem hin)
      rw [if_neg (by simpa using hne), ih hnodup.2 hin]

/-- Of the new jobs only the clone itself is a subjob. -/
theorem CloningJobs.newSubjob (h : CloningJobs env before job pending rest s)
    (hx : x ∈ subjobIds before job) (hin : x ∈ pending ++ rest) :
    (((s.doc.links.filter fun link ↦ link.1 ∈ s.doc.subtree x).map fun link ↦
      (cloneId s.doc x link.1, if link.1 = x then link.2 else cloneId s.doc x link.2)).filter
        fun link ↦ link.2 = job).map Prod.fst = [s.doc.nextId] := by
  rcases subjob_mem hx with ⟨j, hj, heq, hparent⟩
  have hlink : (x, job) ∈ before.doc.links := List.mem_map.mpr ⟨j, hj, by rw [heq, hparent]⟩
  have hlinksNodup : (before.doc.links.map Prod.fst).Nodup := by
    unfold Document.links
    rw [List.map_map]
    exact htree.jobsNodup
  have hjob := (subjob_bound htree hx).1
  have hnext := h.nextId
  have hroot : (before.doc.links.filter fun link ↦ link.1 ∈ before.doc.subtree x).filter
      (fun link ↦ (if link.1 = x then link.2 else cloneId s.doc x link.2) = job) = [(x, job)] := by
    rw [List.filter_filter, ← filter_fst_eq hlinksNodup hlink]
    apply List.filter_congr
    intro link hl
    by_cases hfst : link.1 = x
    · have hsame : link = (x, job) := List.inj_on_of_nodup_map hlinksNodup hl hlink hfst
      simp [hsame, before.doc.mem_subtree_self x]
    · have hne : cloneId s.doc x link.2 ≠ job := by
        unfold cloneId
        omega
      simp [hfst, hne]
  rw [h.subtree_eq htree hx hin, h.links x hin, List.filter_map]
  show (List.map _ ((before.doc.links.filter fun link ↦ link.1 ∈ before.doc.subtree x).filter
    fun link ↦ (if link.1 = x then link.2 else cloneId s.doc x link.2) = job)).map _ = _
  rw [hroot]
  show [cloneId s.doc x x] = _
  unfold cloneId
  rw [Document.idxOf_subtree, Nat.add_zero]

omit htree in
/-- A cloning adds links between new jobs only. -/
theorem links_cloneJob_old {ys : List Nat} (hold : ∀ y ∈ ys, ¬s.doc.nextId ≤ y) :
    (s.doc.cloneJob x).links.filter (fun link ↦ link.1 ∈ ys) =
      s.doc.links.filter fun link ↦ link.1 ∈ ys := by
  have hnone : ((s.doc.links.filter fun link ↦ link.1 ∈ s.doc.subtree x).map fun link ↦
      (cloneId s.doc x link.1, if link.1 = x then link.2 else cloneId s.doc x link.2)).filter
        (fun link ↦ link.1 ∈ ys) = [] := by
    rw [List.filter_eq_nil_iff]
    intro link hlink hin
    rcases List.mem_map.mp hlink with ⟨l, -, heq⟩
    have hin : link.1 ∈ ys := of_decide_eq_true hin
    rw [← heq] at hin
    exact hold _ hin (Nat.le_add_right _ _)
  rw [links_cloneJob, List.filter_append, hnone, List.append_nil]

omit htree in
/-- What the clone's own run logs is neither a match nor a cloning of a job. -/
theorem run_events (hevents : ∀ e ∈ events, e.ofTasks = true) :
    ∀ e ∈ (.run clone :: events), e.matchedJob? = none ∧ e.jobClone? = none := by
  intro e he
  rcases List.mem_cons.mp he with heq | he
  · rw [heq]
    exact ⟨rfl, rfl⟩
  · have htasks := hevents e he
    cases e <;> simp_all [Event.ofTasks, Event.matchedJob?, Event.jobClone?]

omit htree in
theorem jobClonesSince_expand (hevents : ∀ e ∈ events, e.ofTasks = true)
    (hsince : s'.since before = s.since before ++ (.jobCloned x clone node :: .run clone :: events)) :
    jobClonesSince before s' = jobClonesSince before s ++ [clone] := by
  unfold jobClonesSince
  rw [hsince, List.filterMap_append]
  show _ ++ clone :: (.run clone :: events).filterMap Event.jobClone? = _
  rw [List.filterMap_eq_nil_iff.mpr fun e he ↦ (run_events hevents e he).2]

omit htree in
theorem matchedJobsSince_expand (hevents : ∀ e ∈ events, e.ofTasks = true)
    (hsince : s'.since before = s.since before ++ (.jobCloned x clone node :: .run clone :: events)) :
    matchedJobsSince before s' = matchedJobsSince before s := by
  unfold matchedJobsSince
  rw [hsince, List.filterMap_append]
  show (_ ++ (.run clone :: events).filterMap Event.matchedJob?).map Prod.fst = _
  rw [List.filterMap_eq_nil_iff.mpr fun e he ↦ (run_events hevents e he).1, List.append_nil]

/-- An expansion makes one clone more. -/
theorem CloningJobs.expand (h : CloningJobs env before job [x] rest s)
    (hall : ∀ y ∈ [x] ++ rest, y ∈ subjobIds before job)
    (hexpand : expandSubjob env x node s = (s', none))
    (hsince : s'.since before = s.since before ++
      (.jobCloned x s.doc.nextId node :: .run s.doc.nextId :: events))
    (hevents : ∀ e ∈ events, e.ofTasks = true) :
    CloningJobs env before job [x] rest s' := by
  have hx := hall x List.mem_cons_self
  have hxin : x ∈ [x] ++ rest := List.mem_cons_self
  have hbound := subjob_bound htree hx
  have hsubtree := h.subtree_eq htree hx hxin
  have hrooted := h.rooted htree hx hxin
  have haside := expandSubjob_aside h.numbered hrooted (h.parent_eq htree hx) hexpand
  have hclone : IsJobClone env before s' x s.doc.nextId node (cloneId s.doc x) := by
    apply expandSubjob_clone h.numbered hrooted h.nextId hsubtree _ (h.tasks x hxin) h.queued
      h.isCancelling hexpand
    intro y hy
    simp only [h.jobs x hxin y hy, List.mem_singleton]
  have hclones := jobClonesSince_expand hevents hsince
  have hmatched := matchedJobsSince_expand hevents hsince
  rcases run_jobTouched env (.matched node) x s.doc.nextId
    ({ s with doc := s.doc.cloneJob x }.log (.jobCloned x s.doc.nextId node)) with ⟨_, hrun, -⟩
  rw [expandSubjob_run hexpand] at hrun
  have hlinks : s'.doc.links = (s.doc.cloneJob x).links := hrun.links
  have hnextId : s.doc.nextId + (s.doc.subtree x).length ≤ s'.doc.nextId :=
    Nat.le_trans (Nat.le_add_right _ _) hrun.nextId
  -- what is below the subjobs is older than the copies
  have hold {x' y : Nat} (hx' : x' ∈ [x] ++ rest) (hy : y ∈ before.doc.subtree x') :
      ¬s.doc.nextId ≤ y := by
    have hlt := (subjob_bound htree (hall x' hx')).2 y hy
    have hnext := h.nextId
    omega
  constructor
  case numbered => exact haside.numbered
  case nextId => exact Nat.le_trans h.nextId haside.nextId
  case oldLinks =>
    intro j hj hlt
    -- an old number is not one of a copy
    rcases haside.links j hj with ⟨j', hj', hid, hlink⟩ | ⟨hge, -⟩
    · rw [← hid, ← hlink]
      exact h.oldLinks j' hj' (by rw [hid]; exact hlt)
    · have hnext := h.nextId
      omega
  case newLinks =>
    intro j hj hge
    -- a copy is in the job itself, or in another copy
    rcases haside.links j hj with ⟨j', hj', hid, hlink⟩ | ⟨-, heq | hge'⟩
    · rw [← hlink]
      exact h.newLinks j' hj' (by rw [hid]; exact hge)
    · exact .inl heq
    · exact .inr (Nat.le_trans h.nextId hge')
  case links =>
    intro x' hx'
    rw [← h.links x' hx', hlinks]
    exact links_cloneJob_old fun y hy ↦ hold hx' hy
  case jobs =>
    intro x' hx' y hy
    rw [haside.jobs y (hold hx' hy)]
    exact h.jobs x' hx' y hy
  case tasks =>
    intro x' hx' y hy
    rw [haside.tasks y (hold hx' hy)]
    exact h.tasks x' hx' y hy
  case opened =>
    rw [hmatched]
    exact h.opened
  case queued => exact h.queued.trans haside.queued
  case isCancelling => rw [haside.isCancelling, h.isCancelling]
  case new =>
    rw [hclones]
    intro y hy
    rcases List.mem_append.mp hy with hy | hy
    · exact h.new y hy
    · rw [List.mem_singleton.mp hy]
      exact h.nextId
  case clones =>
    intro x' clone node' hx'
    rw [hsince] at hx'
    rcases List.mem_append.mp hx' with hx' | hx'
    · exact h.clones_aside htree haside (fun y _ hy hle ↦ by omega) hx'
    · rcases List.mem_cons.mp hx' with heq | hx'
      · rw [Event.jobCloned.injEq] at heq
        rw [heq.1, heq.2.1, heq.2.2]
        refine ⟨hx, _, hclone, ?_⟩
        intro y hy
        have hlt := cloneId_bound (d := s.doc) (hsubtree ▸ hy)
        omega
      · cases (run_events hevents _ hx').2
  case subjobs =>
    rw [subjobIds_eq, hlinks, links_cloneJob, List.filter_append, List.map_append, ← subjobIds_eq,
      h.subjobs, hclones, hmatched, List.append_assoc, h.newSubjob htree hx hxin]

/-- Behind the expansion the job is removed with all that is below it. -/
theorem CloningJobs.remove (h : CloningJobs env before job [x] rest s)
    (hall : ∀ y ∈ [x] ++ rest, y ∈ subjobIds before job) (hnodup : ([x] ++ rest).Nodup) :
    CloningJobs env before job [] rest { s with doc := s.doc.removeJob x } := by
  have hx := hall x List.mem_cons_self
  have hsubtree := h.subtree_eq htree hx List.mem_cons_self
  have hbound := (subjob_bound htree hx).2
  have haside := removeJob_aside job h.numbered x
  rw [hsubtree] at haside
  have hin {x' : Nat} (hx' : x' ∈ [] ++ rest) : x' ∈ [x] ++ rest := List.mem_cons_of_mem _ hx'
  -- what is below the other subjobs stays
  have hother {x' y : Nat} (hx' : x' ∈ [] ++ rest) (hy : y ∈ before.doc.subtree x') :
      y ∉ before.doc.subtree x := by
    have hne : x' ≠ x := fun heq ↦ (List.nodup_cons.mp hnodup).1 (heq ▸ hx')
    exact subjobs_disjoint htree (hall x' (hin hx')) hx hne y hy
  have hlinks : ({ s with doc := s.doc.removeJob x } : WorkflowInstance Node).doc.links =
      s.doc.links.filter fun link ↦ link.1 ∉ before.doc.subtree x := by
    show (s.doc.jobs.filter _).map _ = (s.doc.jobs.map _).filter _
    rw [List.filter_map, hsubtree]
    rfl
  constructor
  case numbered => exact haside.numbered
  case nextId => exact h.nextId
  case oldLinks => exact fun j hj ↦ h.oldLinks j (List.mem_of_mem_filter hj)
  case newLinks => exact fun j hj ↦ h.newLinks j (List.mem_of_mem_filter hj)
  case links =>
    intro x' hx'
    rw [← h.links x' (hin hx'), hlinks, List.filter_filter]
    apply List.filter_congr
    intro link _
    by_cases hlink : link.1 ∈ before.doc.subtree x'
    · simp [hlink, hother hx' hlink]
    · simp [hlink]
  case jobs =>
    intro x' hx' y hy
    have hold := h.jobs x' (hin hx') y hy
    have hne : y ∉ [x] := by
      rw [List.mem_singleton]
      exact fun heq ↦ hother hx' hy (heq ▸ before.doc.mem_subtree_self x)
    rw [haside.jobs y (hother hx' hy), hold]
    simp only [hne, List.not_mem_nil]
  case tasks =>
    intro x' hx' y hy
    rw [haside.tasks y (hother hx' hy)]
    exact h.tasks x' (hin hx') y hy
  case opened => exact nofun
  case queued => exact h.queued
  case isCancelling => exact h.isCancelling
  case new => exact h.new
  case clones =>
    intro x' clone node hx'
    refine h.clones_aside htree haside (fun y hge _ hy ↦ ?_) hx'
    have hlt := hbound y hy
    omega
  case subjobs =>
    have hkept : subjobIds { s with doc := s.doc.removeJob x } job =
        (subjobIds s job).filter fun y ↦ y ∉ before.doc.subtree x := by
      rw [subjobIds_eq, hlinks, subjobIds_eq, List.filter_map, List.filter_comm]
      rfl
    -- no clone is below the template: their numbers are new
    have hclones : (jobClonesSince before s).filter (fun y ↦ y ∉ before.doc.subtree x) =
        jobClonesSince before s := by
      rw [List.filter_eq_self]
      intro y hy
      have hge := h.new y hy
      rw [decide_eq_true_eq]
      intro hin
      have hlt := hbound y hin
      omega
    rw [hkept, h.subjobs, List.filter_append, hclones, List.filter_filter]
    show _ = (_ : List Nat).filter (fun y ↦ decide (y ∈ [] ∨ y ∉ matchedJobsSince before s)) ++
      jobClonesSince before s
    congr 1
    apply List.filter_congr
    intro y hy
    by_cases heq : y = x
    · simp [heq, before.doc.mem_subtree_self x, h.opened x List.mem_cons_self]
    · have hnot := subjobs_disjoint htree hy hx heq y (before.doc.mem_subtree_self y)
      simp [heq, hnot]

end Subjobs

theorem mem_matchedJobs {nodes : List Node} {events : List (Event Node)} :
    (id, nodes) ∈ events.filterMap Event.matchedJob? ↔ .jobMatched id nodes ∈ events := by
  rw [List.mem_filterMap]
  constructor
  · intro h
    rcases h with ⟨e, he, heq⟩
    cases e <;> simp [Event.matchedJob?] at heq
    rw [← heq.1, ← heq.2]
    exact he
  · intro h
    exact ⟨_, h, rfl⟩

theorem cloningJobs_start (env : Environment Node) (htree : s.doc.Tree) (job : Nat) :
    CloningJobs env s job [] (subjobIds s job) (s.log (.runSubjobs job)) := by
  have hsince : (s.log (.runSubjobs job)).since s = [.runSubjobs job] := List.drop_left
  constructor
  case numbered => exact htree.numbered
  case nextId => exact Nat.le_refl _
  case oldLinks => exact fun j hj _ ↦ ⟨j, hj, rfl, rfl⟩
  case newLinks =>
    intro j hj hge
    have hlt := (htree.jobsBound j hj).2
    omega
  case links => exact fun _ _ ↦ rfl
  case jobs =>
    intro x _ y _
    simp only [List.not_mem_nil, if_false, Option.map_id']
    rfl
  case tasks => exact fun _ _ _ _ ↦ rfl
  case opened => exact nofun
  case queued => exact List.prefix_rfl
  case isCancelling => rfl
  case new =>
    unfold jobClonesSince
    rw [hsince]
    exact nofun
  case clones =>
    intro x clone node hx
    rw [hsince] at hx
    cases List.mem_singleton.mp hx
  case subjobs =>
    unfold matchedJobsSince jobClonesSince
    rw [hsince]
    show subjobIds s job = _
    simp [Event.matchedJob?, Event.jobClone?]

/-- The loop of `run_subjobs` goes from state to state like this too. -/
theorem subjobLoop_cloning (env : Environment Node) (htree : before.doc.Tree) (job : Nat)
    (outside : Nat → Prop) :
    SnapshotLoop.Keeps (subjobLoop env job)
      (fun rest s ↦ ExpandingJobs before job outside (subjobIds before job) [] rest s ∧
        CloningJobs env before job [] rest s)
      (fun x rest s ↦ ExpandingJobs before job outside (subjobIds before job) [x] rest s ∧
        CloningJobs env before job [x] rest s)
      (fun s ↦ before.trace <+: s.trace) := by
  have hkeeps := subjobLoop_expanding env before job outside (subjobIds before job)
  constructor
  case done =>
    intro x rest s s' h hvisit
    have hturn := visitSubjob_turn env job x s
    have haside := visitSubjob_aside env job x h.2.numbered
    rw [show visitSubjob env job x s = _ from hvisit] at hturn haside
    rcases hturn with ⟨events, htouched, hevents, hruns, hplain⟩
    refine ⟨hkeeps.done x rest s s' h.1 hvisit, ?_⟩
    have hsince := since_jobTouched h.1.grown htouched
    have hnone : ∀ e ∈ events, e.matchedJob? = none ∧ e.jobClone? = none := by
      intro e he
      have hunlooped := hevents e he
      cases e <;> simp_all [Event.matchedJob?, Event.clonedJob?, Event.jobClone?]
    apply h.2.visit htree h.1.subset h.1.nodup haside htouched hsince fun e he ↦ (hnone e he).2
    · exact fun y hy ↦ absurd hy List.not_mem_nil
    · have hmatched : matchedJobsSince before s' = matchedJobsSince before s := by
        unfold matchedJobsSince
        rw [hsince, List.filterMap_append,
          List.filterMap_eq_nil_iff.mpr fun e he ↦ (hnone e he).1, List.append_nil]
      simp [hmatched]
  case failed => exact fun x rest s s' e h hvisit ↦ hkeeps.failed x rest s s' e h.1 hvisit
  case matched =>
    intro x rest s s' nodes h hvisit
    have hturn := visitSubjob_turn env job x s
    have haside := visitSubjob_aside env job x h.2.numbered
    rw [show visitSubjob env job x s = _ from hvisit] at hturn haside
    rcases hturn with ⟨htouched, subjob, hfind, hlooped, hloop⟩
    refine ⟨hkeeps.matched x rest s s' nodes h.1 hvisit, ?_⟩
    have hsince := since_jobTouched h.1.grown htouched
    have hmatched : matchedJobsSince before s' = matchedJobsSince before s ++ [x] := by
      unfold matchedJobsSince
      rw [hsince, List.filterMap_append, List.map_append]
      rfl
    -- the job is in the document, so it was not matched before
    have hnot : x ∉ matchedJobsSince before s := by
      intro hin
      rcases List.mem_map.mp hin with ⟨⟨y, nodes'⟩, hy, heq⟩
      rw [show y = x from heq] at hy
      have hgone := (h.1.matched x nodes' (mem_matchedJobs.mp hy)).2.2.resolve_left List.not_mem_nil
      exact hgone (List.mem_map.mpr ⟨subjob, job?_spec hfind⟩)
    apply h.2.visit htree h.1.subset h.1.nodup haside.1 htouched hsince (by simp [Event.jobClone?])
    · intro y hy
      refine ⟨List.mem_singleton.mp hy, ?_, haside.2, ?_⟩
      · rw [hmatched]
        exact List.mem_append_right _ List.mem_cons_self
      · rw [hloop, hfind]
        rfl
    · apply List.filter_congr
      intro y _
      rw [hmatched]
      by_cases heq : y = x
      · simp [heq, hnot]
      · simp [heq]
  case expand =>
    intro x rest node s s' h hexpand
    rcases expandSubjob_spec env x node s with ⟨events, htouched, hevents⟩
    rw [show expandSubjob env x node s = _ from hexpand] at htouched
    refine ⟨hkeeps.expand x rest node s s' h.1 hexpand, ?_⟩
    exact h.2.expand htree h.1.subset hexpand
      (since_jobTouched (s := { s with doc := s.doc.cloneJob x }) h.1.grown htouched) hevents
  case expandFailed =>
    exact fun x rest node s s' e h hexpand ↦ hkeeps.expandFailed x rest node s s' e h.1 hexpand
  case finish =>
    exact fun x rest s h ↦
      ⟨hkeeps.finish x rest s h.1, h.2.remove htree h.1.subset h.1.nodup⟩

/-! ## `run_subjobs` and the loop it was meant to be -/

/-- Every looped subjob that is not skipped is replaced by one clone for each node it matched, in their
order, and every clone is run once; behind the subjobs that were not expanded, the job has these clones
and no other subjobs. -/
def SubjobsExpanded (env : Environment Node) (job : Nat) (s s' : WorkflowInstance Node) : Prop :=
  (∀ subjob ∈ s.doc.subjobsOf job, subjob.loop.isSome →
    (∃ j, s'.doc.job? subjob.id = some j ∧ j.status = some .skipped) ∨
    (subjob.id ∉ s'.doc.jobs.map JobNode.id ∧
      ∃ nodes, .jobMatched subjob.id nodes ∈ s'.since s ∧
        SnapshotLoop.expansionsOf subjob.id ((s'.since s).filterMap Event.clonedJob?) = nodes ∧
        ∀ clone node, .jobCloned subjob.id clone node ∈ s'.since s →
          ((s'.since s).filterMap Event.run?).count clone = 1 ∧
          ∃ copy, IsJobClone env s s' subjob.id clone node copy)) ∧
  subjobIds s' job =
    ((subjobIds s job).filter fun x ↦ x ∉ matchedJobsSince s s') ++ jobClonesSince s s'

/-- `run_subjobs`, had it set `matching_nodes_index` back to 0 for every looped job. -/
def runSubjobsStartingAgain (env : Environment Node) (job : Nat) (s : WorkflowInstance Node) :
    Result Node :=
  SnapshotLoop.iterate (subjobLoop env job) SnapshotLoop.startAgain
    ((s.doc.subjobsOf job).map JobNode.id) 0 (s.log (.runSubjobs job))

/-- A call of `run_subjobs` expands every looped job wholly exactly when those behind the first match
nothing. -/
theorem subjobsExpanded_iff (env : Environment Node) (htree : s.doc.Tree)
    (hrun : runSubjobs env job s = (s', none)) : SubjobsExpanded env job s s' ↔
      OnlyFirstMatches Event.matchedJob? s (runSubjobsStartingAgain env job s).1 := by
  have hlogs := subjobLoop_logs env job
  have hkeeps := subjobLoop_cloning env htree job
    (fun y ↦ ∀ x ∈ (s.doc.subjobsOf job).map JobNode.id, y ∉ s.doc.subtree x)
  have hstart := And.intro (expandingJobs_start htree job) (cloningJobs_start env htree job)
  have hnodup : ((s.doc.subjobsOf job).map JobNode.id).Nodup :=
    htree.jobsNodup.sublist (List.filter_sublist.map _)
  rcases (hkeeps.iterate hstart hrun).1 rfl with ⟨hend, hcloning⟩
  rcases hlogs.iterate_matched hrun with ⟨new, hnew, hsub⟩
  have hmatched : new = (s'.since s).filterMap Event.matchedJob? := by
    rw [← filterMap_since Event.matchedJob? (e := .runSubjobs job) rfl hend.grown, hnew,
      List.drop_left]
  have hagain : s.trace <+: (runSubjobsStartingAgain env job s).1.trace := by
    rcases hrest : runSubjobsStartingAgain env job s with ⟨t, r⟩
    have hkeep := hkeeps.iterate hstart hrest
    cases r with
    | none => exact (hkeep.1 rfl).1.grown
    | some e => exact hkeep.2 (by simp)
  have hwhole := hlogs.whole_iff_startAgain hnodup hrun hnew
  rw [filterMap_since Event.clonedJob? (e := .runSubjobs job) rfl hend.grown] at hwhole
  have hlater := filterMap_since Event.matchedJob? (e := .runSubjobs job) rfl hagain
  unfold runSubjobsStartingAgain at hlater
  rw [hlater] at hwhole
  unfold OnlyFirstMatches runSubjobsStartingAgain
  rw [← hwhole, hmatched]
  constructor
  · -- what was matched is a looped subjob that was not skipped
    intro hexpanded y hy
    rcases y with ⟨x, nodes⟩
    rcases hend.matched x nodes (mem_matchedJobs.mp hy) with ⟨hall, ⟨subjob, hfind, hloop⟩, hgone⟩
    have hgone := hgone.resolve_left nofun
    rw [← hmatched] at hy
    rcases List.mem_map.mp hall with ⟨j, hj, heq⟩
    have hjob := job?_spec hfind
    have hsame : j = subjob := List.inj_on_of_nodup_map htree.jobsNodup (List.mem_of_mem_filter hj)
      hjob.1 (heq.trans hjob.2.symm)
    rw [hsame] at hj heq
    rcases hexpanded.1 subjob hj hloop with ⟨j', hfind', -⟩ | ⟨-, nodes', hnodes', hexp, -⟩
    · have hspec := job?_spec hfind'
      rw [heq] at hspec
      exact absurd (List.mem_map.mpr ⟨j', hspec⟩) hgone
    · have hin : (subjob.id, nodes') ∈ new := by
        rw [hmatched]
        exact mem_matchedJobs.mpr hnodes'
      have hpair := List.inj_on_of_nodup_map (hnodup.sublist hsub) hin hy heq
      rw [Prod.mk.injEq] at hpair
      rw [← hpair.1, ← hpair.2]
      exact hexp
  · -- and every looped subjob was matched or skipped
    intro hall
    refine ⟨?_, by simpa using hcloning.subjobs⟩
    intro subjob hsubjob hloop
    have hfind := job?_of_mem htree (List.mem_of_mem_filter hsubjob)
    -- the subjob was no loop, its condition skipped it, or it was matched
    rcases hend.settled subjob.id (List.mem_map_of_mem hsubjob) with
      hrest | hplain | ⟨-, hskipped⟩ | ⟨nodes, hnodes⟩
    · cases hrest
    · rw [hplain subjob hfind] at hloop
      cases hloop
    · exact .inl hskipped
    · refine .inr ⟨?_, nodes, hnodes, ?_, ?_⟩
      · exact (hend.matched subjob.id nodes hnodes).2.2.resolve_left List.not_mem_nil
      · exact hall _ (mem_matchedJobs.mpr hnodes)
      · intro clone node hclone
        rcases hcloning.clones _ _ _ hclone with ⟨-, copy, hcopy, -⟩
        exact ⟨List.count_eq_one_of_mem hend.once (hend.cloned _ _ _ hclone), copy, hcopy⟩

/-- Calls of `run` and of `run_subjobs` that raise no exception lose nothing exactly when, with the index
set back for every loop, the loops behind the first match nothing. -/
theorem loops_expanded_iff (env : Environment Node) (s : WorkflowInstance Node) (job : Nat)
    (context : Context Node) (htree : s.doc.Tree) :
    (∀ s', run env job context s = (s', none) → (TasksExpanded env job s s' ↔
      OnlyFirstMatches Event.matchedTask? s (runStartingAgain env job context s).1)) ∧
    (∀ s', runSubjobs env job s = (s', none) → (SubjobsExpanded env job s s' ↔
      OnlyFirstMatches Event.matchedJob? s (runSubjobsStartingAgain env job s).1)) :=
  ⟨fun _ hrun ↦ tasksExpanded_iff env context htree hrun,
    fun _ hrun ↦ subjobsExpanded_iff env htree hrun⟩

theorem loops_expanded_iff_one_loop :
    TasksExpanded Lifetime.twoNodes 3 (create Lifetime.retriedThenLooped)
      (run Lifetime.twoNodes 3 (.element 1) (create Lifetime.retriedThenLooped)).1 :=
  ((loops_expanded_iff Lifetime.twoNodes (create Lifetime.retriedThenLooped) 3 (.element 1)
    Lifetime.retriedThenLooped_wellFormed.toTree).1 _ rfl).mpr (by unfold OnlyFirstMatches; decide)

/-- A job with two looped tasks, and two looped jobs. -/
def twoLoops : Document Unit where
  jobs :=
    [{ id := 1, parent := 0, condition := none, loop := some "item", status := none,
       details := none },
      { id := 2, parent := 0, condition := none, loop := some "item", status := none,
        details := none }]
  tasks :=
    [{ id := 3, job := 1, name := "fetch", queue := "default", loop := some "item", status := none,
       retval := none, error := none, details := none, retrySchedule := none,
       retryScheduleLevel := none, retryDelay := none, retryTimes := none, retryRetval := none,
       content := [], outputs := [] },
      { id := 4, job := 1, name := "store", queue := "default", loop := some "item", status := none,
        retval := none, error := none, details := none, retrySchedule := none,
        retryScheduleLevel := none, retryDelay := none, retryTimes := none, retryRetval := none,
        content := [], outputs := [] }]
  schedules := fun _ ↦ none
  nextId := 5

theorem twoLoops_tree : twoLoops.Tree where
  nextId := by decide
  jobsNodup := by decide
  jobsBound := by decide
  parents := by decide
  parentsFirst := by decide
  tasksNodup := by decide
  tasksBound := by decide

/-- The second of two loops that match two nodes each is lost, among tasks and among jobs. -/
theorem second_loop_lost :
    (∃ s', run Lifetime.twoNodes 1 (.element 0) (create twoLoops) = (s', none) ∧
      ¬TasksExpanded Lifetime.twoNodes 1 (create twoLoops) s') ∧
    ∃ s', runSubjobs Lifetime.twoNodes 0 (create twoLoops) = (s', none) ∧
      ¬SubjobsExpanded Lifetime.twoNodes 0 (create twoLoops) s' := by
  constructor
  · refine ⟨_, rfl, ?_⟩
    rw [tasksExpanded_iff Lifetime.twoNodes (.element 0) twoLoops_tree rfl]
    unfold OnlyFirstMatches
    decide
  · refine ⟨_, rfl, ?_⟩
    rw [subjobsExpanded_iff Lifetime.twoNodes twoLoops_tree rfl]
    unfold OnlyFirstMatches
    decide

end WorkflowInstance

end EvQueue
