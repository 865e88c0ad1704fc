import EvQueue.WorkflowInstanceLoops
import EvQueue.WorkflowInstanceRuns

/-!
# WorkflowInstanceJobLoops — what `run_subjobs` does with looped jobs

As for tasks: every looped job that is not skipped is matched once and removed with all that is below it,
and every clone is run once.  The other subjobs are not below it, because a job stands behind its parent.
-/

namespace EvQueue

variable {Node : Type}

namespace Event

def matchedJob? : Event Node → Option (Nat × List Node)
  | .jobMatched job nodes => some (job, nodes)
  | _ => none

def clonedJob? : Event Node → Option (Nat × Node)
  | .jobCloned job _ node => some (job, node)
  | _ => none

def jobClone? : Event Node → Option Nat
  | .jobCloned _ clone _ => some clone
  | _ => none

def run? : Event Node → Option Nat
  | .run job => some job
  | _ => none

/-- What `run` does with the tasks of its job. -/
def ofTasks : Event Node → Bool
  | .taskMatched .. | .taskCloned .. | .enqueued .. => true
  | _ => false

end Event

/-! ## Subtrees -/

namespace Document

variable {d : Document Node} {j : JobNode} {x job : Nat}

theorem descendants_append (found : List Nat) (as bs : List JobNode) :
    descendants found (as ++ bs) = descendants (descendants found as) bs := by
  induction as generalizing found with
  | nil => rfl
  | cons j as ih => exact ih _

theorem descendants_eq_self {found : List Nat} {jobs : List JobNode}
    (h : ∀ j ∈ jobs, j.parent ∉ found) : descendants found jobs = found := by
  induction jobs with
  | nil => rfl
  | cons j jobs ih =>
    unfold descendants
    rw [if_neg (h j List.mem_cons_self)]
    exact ih fun j' hj' ↦ h j' (List.mem_cons_of_mem _ hj')

theorem mem_descendants_cases {found : List Nat} {jobs : List JobNode}
    (h : x ∈ descendants found jobs) : x ∈ found ∨ x ∈ jobs.map JobNode.id := by
  apply descendants_induction (D := fun x ↦ x ∈ found ∨ x ∈ jobs.map JobNode.id) _ _ x h
  · exact fun id hid ↦ .inl hid
  · exact fun j hj _ ↦ .inr (List.mem_map_of_mem hj)

theorem mem_descendants_of_mem {found : List Nat} (jobs : List JobNode) (h : x ∈ found) :
    x ∈ descendants found jobs := by
  rcases descendants_prefix found jobs with ⟨more, hmore⟩
  rw [hmore]
  exact List.mem_append_left _ h

/-- A child of a job below `x` is below `x`. -/
theorem Tree.mem_subtree (htree : d.Tree) (hj : j ∈ d.jobs) (h : j.parent ∈ d.subtree x) :
    j.id ∈ d.subtree x := by
  rcases List.append_of_mem hj with ⟨pre, post, heq⟩
  have hfirst := htree.parentsFirst
  unfold subtree at h ⊢
  rw [heq] at hfirst h ⊢
  rw [descendants_append] at h ⊢
  unfold descendants at h ⊢
  by_cases hin : j.parent ∈ descendants [x] pre
  · rw [if_pos hin]
    apply mem_descendants_of_mem
    exact List.mem_append_right _ (List.mem_singleton.mpr rfl)
  · rw [if_neg hin] at h
    rcases mem_descendants_cases h with h | h
    · exact absurd h hin
    · -- no job behind `j` is its parent
      rcases List.mem_map.mp h with ⟨j', hj', hid⟩
      have hne := List.rel_of_pairwise_cons (List.pairwise_append.mp hfirst).2.1 hj'
      exact absurd hid.symm hne

/-- The parent of a job is not below it. -/
theorem Tree.parent_notMem (htree : d.Tree) (hj : j ∈ d.jobs) : j.parent ∉ d.subtree j.id := by
  rcases List.append_of_mem hj with ⟨pre, post, heq⟩
  have hne := (htree.parents j hj).1
  have hfirst := htree.parentsFirst
  unfold subtree
  rw [heq] at hfirst ⊢
  have hpre : ∀ j' ∈ pre, j'.parent ∉ [j.id] := by
    intro j' hj' hin
    have hne := (List.pairwise_append.mp hfirst).2.2 j' hj' j List.mem_cons_self
    exact hne (List.mem_singleton.mp hin)
  rw [descendants_append, descendants_eq_self hpre]
  unfold descendants
  rw [if_neg (by rw [List.mem_singleton]; exact hne)]
  intro h
  rcases mem_descendants_cases h with h | h
  · exact hne (List.mem_singleton.mp h)
  · rcases List.mem_map.mp h with ⟨j', hj', hid⟩
    have hne := List.rel_of_pairwise_cons (List.pairwise_append.mp hfirst).2.1 hj'
    exact hne hid.symm

theorem Tree.subtree_bound (htree : d.Tree) (hx : x < d.nextId) : ∀ y ∈ d.subtree x, y < d.nextId :=
  subtree_induction hx fun j hj _ ↦ (htree.jobsBound j hj).2

end Document

namespace WorkflowInstance

variable {env : Environment Node} {context : Context Node} {before s s' s'' : WorkflowInstance Node}
variable {id x job : Nat} {rest : List Nat} {events events' : List (Event Node)}

/-! ## Calls that touch one job -/

/-- Of the jobs only job `id` is touched, and these events are logged. -/
structure JobTouched (id : Nat) (events : List (Event Node)) (s s' : WorkflowInstance Node) :
    Prop where
  links : (s'.doc.jobs.map fun j ↦ (j.id, j.parent)) = s.doc.jobs.map fun j ↦ (j.id, j.parent)
  nextId : s.doc.nextId ≤ s'.doc.nextId
  others : ∀ x, x ≠ id → s'.doc.job? x = s.doc.job? x
  trace : s'.trace = s.trace ++ events

theorem JobTouched.refl (id : Nat) (s : WorkflowInstance Node) : JobTouched id [] s s :=
  ⟨rfl, Nat.le_refl _, fun _ _ ↦ rfl, (List.append_nil _).symm⟩

theorem JobTouched.trans (h : JobTouched id events s s') (h' : JobTouched id events' s' s'') :
    JobTouched id (events ++ events') s s'' := by
  constructor
  case links => rw [h'.links, h.links]
  case nextId => exact Nat.le_trans h.nextId h'.nextId
  case others =>
    intro x hx
    rw [h'.others x hx, h.others x hx]
  case trace => rw [h'.trace, h.trace, List.append_assoc]

theorem jobTouched_log (id : Nat) (s : WorkflowInstance Node) (e : Event Node) :
    JobTouched id [e] s (s.log e) :=
  ⟨rfl, Nat.le_refl _, fun _ _ ↦ rfl, rfl⟩

theorem job?_setJob {f : JobNode → JobNode} (hf : ∀ j, (f j).id = j.id) (x : Nat) :
    (s.setJob id f).doc.job? x = (s.doc.job? x).map fun j ↦ if j.id = id then f j else j := by
  show (s.doc.jobs.map fun j ↦ if j.id = id then f j else j).find? (fun j ↦ j.id = x) = _
  rw [List.find?_map]
  have heq : ((fun j : JobNode ↦ decide (j.id = x)) ∘
      fun j ↦ if j.id = id then f j else j) = fun j ↦ decide (j.id = x) := by
    funext j
    show decide ((if j.id = id then f j else j).id = x) = _
    by_cases hid : j.id = id
    · rw [if_pos hid, hf]
    · rw [if_neg hid]
  rw [heq]
  rfl

theorem job?_spec {j : JobNode} (h : s.doc.job? x = some j) : j ∈ s.doc.jobs ∧ j.id = x :=
  ⟨List.mem_of_find?_eq_some h, by simpa using List.find?_some h⟩

theorem jobTouched_setJob {f : JobNode → JobNode}
    (hf : ∀ j, (f j).id = j.id ∧ (f j).parent = j.parent) :
    JobTouched id [] s (s.setJob id f) := by
  constructor
  case links =>
    show ((s.doc.jobs.map fun j ↦ if j.id = id then f j else j).map
      fun j : JobNode ↦ (j.id, j.parent)) = _
    rw [List.map_map]
    apply List.map_congr_left
    intro j _
    show ((if j.id = id then f j else j).id, (if j.id = id then f j else j).parent) = _
    by_cases heq : j.id = id
    · rw [if_pos heq, (hf j).1, (hf j).2]
    · rw [if_neg heq]
  case nextId => exact Nat.le_refl _
  case others =>
    intro x hx
    rw [job?_setJob fun j ↦ (hf j).1]
    cases hfind : s.doc.job? x with
    | none => rfl
    | some j => rw [Option.map_some, if_neg (by rw [(job?_spec hfind).2]; exact hx)]
  case trace => exact (List.append_nil _).symm

theorem jobTouched_failJob (id : Nat) (s : WorkflowInstance Node) (error : String) :
    JobTouched id [] s (s.failJob id error) := by
  have h : JobTouched id [] s (s.setJob id fun j ↦
      { j with
        status := some .aborted
        details := some error }) :=
    jobTouched_setJob fun _ ↦ ⟨rfl, rfl⟩
  exact ⟨h.links, h.nextId, h.others, h.trace⟩

/-! ## `run` as its caller sees it -/

/-- No job is touched, and what is logged is about tasks. -/
structure OnlyTasks (s s' : WorkflowInstance Node) : Prop where
  jobs : s'.doc.jobs = s.doc.jobs
  nextId : s.doc.nextId ≤ s'.doc.nextId
  trace : ∃ events, s'.trace = s.trace ++ events ∧ ∀ e ∈ events, e.ofTasks = true

theorem OnlyTasks.refl (s : WorkflowInstance Node) : OnlyTasks s s :=
  ⟨rfl, Nat.le_refl _, [], (List.append_nil _).symm, nofun⟩

theorem OnlyTasks.touched (h : OnlyTasks s s') (htouched : Touched id events s' s'')
    (hevents : ∀ e ∈ events, e.ofTasks = true) : OnlyTasks s s'' := by
  rcases h.trace with ⟨old, htrace, hold⟩
  constructor
  case jobs => rw [htouched.jobs, h.jobs]
  case nextId =>
    rw [htouched.nextId]
    exact h.nextId
  case trace =>
    refine ⟨old ++ events, ?_, ?_⟩
    · rw [htouched.trace, htrace, List.append_assoc]
    · intro e he
      rcases List.mem_append.mp he with he | he
      · exact hold e he
      · exact hevents e he

theorem OnlyTasks.cloneTask (h : OnlyTasks s s') (task : TaskNode Node) :
    OnlyTasks s { s' with doc := s'.doc.cloneTask task } :=
  ⟨h.jobs, Nat.le_succ_of_le h.nextId, h.trace⟩

theorem expandTask_onlyTasks (env : Environment Node) (id : Nat) (node : Node)
    (h : OnlyTasks before s) : OnlyTasks before (expandTask env id node s).1 := by
  by_cases hopen : id ∈ s.doc.tasks.map TaskNode.id
  · rcases expandTask_spec env node hopen with ⟨task, -, hspec⟩
    rcases hexpand : expandTask env id node s with ⟨s', _ | e⟩
    · rw [hexpand] at hspec
      rcases hspec with ⟨ready, htouched⟩
      apply (h.cloneTask task).touched htouched
      simp [Event.ofTasks]
    · rw [hexpand] at hspec
      apply (h.cloneTask task).touched hspec
      simp [Event.ofTasks]
  · rw [← task?_isSome, Bool.not_eq_true, Option.isSome_eq_false_iff, Option.isNone_iff_eq_none]
      at hopen
    unfold expandTask
    rw [hopen]
    exact h

theorem taskLoop_onlyTasks (env : Environment Node) (context : Context Node)
    (before : WorkflowInstance Node) :
    SnapshotLoop.Keeps (taskLoop env context) (fun _ s ↦ OnlyTasks before s)
      (fun _ _ s ↦ OnlyTasks before s) (OnlyTasks before) := by
  constructor
  case done =>
    intro x rest s s' h hvisit
    have hspec := visitTask_spec env context x s
    rw [show visitTask env context x s = _ from hvisit] at hspec
    rcases hspec with ⟨events, htouched, hevents, -⟩
    apply h.touched htouched
    intro e he
    rcases hevents e he with ⟨ready, heq⟩
    rw [heq]
    rfl
  case failed =>
    intro x rest s s' e h hvisit
    have hspec := visitTask_spec env context x s
    rw [show visitTask env context x s = _ from hvisit] at hspec
    exact h.touched hspec nofun
  case matched =>
    intro x rest s s' nodes h hvisit
    have hspec := visitTask_spec env context x s
    rw [show visitTask env context x s = _ from hvisit] at hspec
    apply h.touched hspec.1
    simp [Event.ofTasks]
  case expand =>
    intro x rest node s s' h hexpand
    have hkeep := expandTask_onlyTasks env x node h
    rw [show expandTask env x node s = _ from hexpand] at hkeep
    exact hkeep
  case expandFailed =>
    intro x rest node s s' e h hexpand
    have hkeep := expandTask_onlyTasks env x node h
    rw [show expandTask env x node s = _ from hexpand] at hkeep
    exact hkeep
  case finish => exact fun x rest s h ↦ ⟨h.jobs, h.nextId, h.trace⟩

theorem run_jobTouched (env : Environment Node) (context : Context Node) (id job : Nat)
    (s : WorkflowInstance Node) :
    ∃ events, JobTouched id (.run job :: events) s (run env job context s).1 ∧
      ∀ e ∈ events, e.ofTasks = true := by
  have hkeeps := taskLoop_onlyTasks env context (s.log (.run job))
  unfold run
  rcases hrun : SnapshotLoop.iterate (taskLoop env context) SnapshotLoop.readOn
    ((s.doc.tasksOf job).map TaskNode.id) 0 (s.log (.run job)) with ⟨s', r⟩
  have hkeep := hkeeps.iterate (OnlyTasks.refl _) hrun
  have honly : OnlyTasks (s.log (.run job)) s' := by
    cases r with
    | none => exact hkeep.1 rfl
    | some e => exact hkeep.2 (by simp)
  rcases honly.trace with ⟨events, htrace, hevents⟩
  refine ⟨events, ?_, hevents⟩
  have hjobs : s'.doc.jobs = s.doc.jobs := honly.jobs
  constructor
  case links => rw [hjobs]
  case nextId => exact honly.nextId
  case others =>
    intro x _
    unfold Document.job?
    rw [hjobs]
  case trace =>
    rw [htrace]
    show s.trace ++ [.run job] ++ events = _
    rw [List.append_assoc]
    rfl

/-! ## The bodies of the loops of `run_subjobs` -/

/-- Nothing that `run_subjobs` logs about its loops. -/
def Unlooped (events : List (Event Node)) : Prop :=
  ∀ e ∈ events, e.matchedJob? = none ∧ e.clonedJob? = none

theorem unlooped_run (job : Nat) {events : List (Event Node)} (h : ∀ e ∈ events, e.ofTasks = true) :
    Unlooped (.run job :: events) := by
  intro e he
  rcases List.mem_cons.mp he with heq | he
  · rw [heq]
    exact ⟨rfl, rfl⟩
  · have htasks := h e he
    cases e <;> simp_all [Event.ofTasks, Event.matchedJob?, Event.clonedJob?]

theorem runs_run {events : List (Event Node)} (h : ∀ e ∈ events, e.ofTasks = true) :
    (Event.run job :: events).filterMap Event.run? = [job] := by
  show job :: events.filterMap Event.run? = [job]
  congr 1
  rw [List.filterMap_eq_nil_iff]
  intro e he
  have htasks := h e he
  cases e <;> simp_all [Event.ofTasks, Event.run?]

/-- What a visit of `run_subjobs` comes to. -/
def SubjobTurn (id : Nat) (s : WorkflowInstance Node) :
    SnapshotLoop.Turn Node (WorkflowInstance Node) String → Prop
  | .done s' => ∃ events, JobTouched id events s s' ∧ Unlooped events ∧
      (events.filterMap Event.run? = [] ∨ events.filterMap Event.run? = [id]) ∧
      ((∀ subjob, s.doc.job? id = some subjob → subjob.loop = none) ∨
        ∃ j, s'.doc.job? id = some j ∧ j.status = some .skipped)
  | .failed s' _ => ∃ events, JobTouched id events s s' ∧ Unlooped events
  | .matched s' nodes => JobTouched id [.jobMatched id nodes] s s' ∧
      ∃ subjob, s.doc.job? id = some subjob ∧ subjob.loop.isSome ∧
        s'.doc.job? id = some { subjob with loop := none }

theorem abortSubjob_turn (h : JobTouched id [] s s') (details : String) :
    SubjobTurn id s (abortSubjob id details s') := by
  refine ⟨[], ?_, nofun⟩
  have hset : JobTouched id [] s' (s'.setJob id fun j ↦
      { j with
        status := some .aborted
        details := some details }) :=
    jobTouched_setJob fun _ ↦ ⟨rfl, rfl⟩
  exact (h.trans hset).trans (jobTouched_failJob id _ evaluationError)

theorem launchSubjob_turn (env : Environment Node) {subjob : JobNode}
    (hfind : s.doc.job? id = some subjob) :
    SubjobTurn id s (launchSubjob env job id subjob.loop s) := by
  unfold launchSubjob
  cases hloop : subjob.loop with
  | some loopXpath =>
    have hset : JobTouched id [] s (s.setJob id fun j ↦ { j with loop := none }) :=
      jobTouched_setJob fun _ ↦ ⟨rfl, rfl⟩
    have hjob : (s.setJob id fun j ↦ { j with loop := none }).doc.job? id = _ :=
      job?_setJob (f := fun j ↦ { j with loop := none }) (fun _ ↦ rfl) id
    rw [hfind, Option.map_some, if_pos (job?_spec hfind).2] at hjob
    dsimp only
    generalize (s.setJob id fun j ↦ { j with loop := none }) = t at hset hjob
    cases env.evaluate t.doc (.element job) loopXpath with
    | none => exact abortSubjob_turn hset _
    | some nodes =>
      refine ⟨hset.trans (jobTouched_log id t _), subjob, hfind, ?_, hjob⟩
      rw [hloop]
      rfl
  | none =>
    rcases run_jobTouched env (.element job) id id s with ⟨events, htouched, hevents⟩
    dsimp only
    rcases hrun : run env id (.element job) s with ⟨t, _ | e⟩
    · rw [hrun] at htouched
      refine ⟨_, htouched, unlooped_run _ hevents, .inr (runs_run hevents), .inl ?_⟩
      intro subjob' heq
      rw [hfind, Option.some.injEq] at heq
      rw [← heq]
      exact hloop
    · rw [hrun] at htouched
      refine ⟨_, htouched.trans (jobTouched_failJob id t e), ?_⟩
      rw [List.append_nil]
      exact unlooped_run _ hevents

theorem visitSubjob_turn (env : Environment Node) (job id : Nat) (s : WorkflowInstance Node) :
    SubjobTurn id s (visitSubjob env job id s) := by
  unfold visitSubjob
  cases hfind : s.doc.job? id with
  | none =>
    dsimp only
    refine ⟨[], JobTouched.refl id s, nofun, .inl rfl, .inl ?_⟩
    intro subjob heq
    rw [hfind] at heq
    cases heq
  | some subjob =>
    dsimp only
    cases subjob.condition with
    | none => exact launchSubjob_turn env hfind
    | some condition =>
      dsimp only
      cases env.evaluateTest s.doc (.element job) condition with
      | invalid => exact abortSubjob_turn (JobTouched.refl id s) _
      | noResult => exact abortSubjob_turn (JobTouched.refl id s) _
      | value n =>
        dsimp only
        by_cases hn : n = 0
        · -- the job is skipped
          rw [if_pos hn]
          refine ⟨[], jobTouched_setJob fun _ ↦ ⟨rfl, rfl⟩, nofun, .inl rfl, .inr ?_⟩
          rw [job?_setJob, hfind, Option.map_some, if_pos (job?_spec hfind).2]
          · exact ⟨_, rfl, rfl⟩
          · exact fun _ ↦ rfl
        · rw [if_neg hn]
          exact launchSubjob_turn env hfind

/-- An expansion adds a clone, and runs it. -/
theorem expandSubjob_spec (env : Environment Node) (id : Nat) (node : Node)
    (s : WorkflowInstance Node) :
    ∃ events, JobTouched id (.jobCloned id s.doc.nextId node :: .run s.doc.nextId :: events)
        { s with doc := s.doc.cloneJob id } (expandSubjob env id node s).1 ∧
      ∀ e ∈ events, e.ofTasks = true := by
  have hlog := jobTouched_log id { s with doc := s.doc.cloneJob id }
    (.jobCloned id s.doc.nextId node)
  unfold expandSubjob
  dsimp only
  generalize ({ s with doc := s.doc.cloneJob id }.log (.jobCloned id s.doc.nextId node)) = t at hlog
  rcases run_jobTouched env (.matched node) id s.doc.nextId t with ⟨events, htouched, hevents⟩
  refine ⟨events, ?_, hevents⟩
  rcases hrun : run env s.doc.nextId (.matched node) t with ⟨u, _ | e⟩
  · rw [hrun] at htouched
    exact hlog.trans htouched
  · rw [hrun] at htouched
    have hfail := (hlog.trans htouched).trans (jobTouched_failJob id u e)
    rw [List.append_nil] at hfail
    exact hfail

theorem subjobLoop_logs (env : Environment Node) (job : Nat) :
    SnapshotLoop.Logs (subjobLoop env job) (fun s ↦ s.trace.filterMap Event.matchedJob?)
      (fun s ↦ s.trace.filterMap Event.clonedJob?) (fun _ _ ↦ True) := by
  have hmatched {events : List (Event Node)} (h : Unlooped events) :
      events.filterMap Event.matchedJob? = [] := by
    rw [List.filterMap_eq_nil_iff]
    exact fun e he ↦ (h e he).1
  have hcloned {events : List (Event Node)} (h : Unlooped events) :
      events.filterMap Event.clonedJob? = [] := by
    rw [List.filterMap_eq_nil_iff]
    exact fun e he ↦ (h e he).2
  constructor
  case done =>
    intro id s s' hvisit
    have hturn := visitSubjob_turn env job id s
    rw [show visitSubjob env job id s = _ from hvisit] at hturn
    rcases hturn with ⟨events, htouched, hevents, -⟩
    rw [htouched.trace, List.filterMap_append, List.filterMap_append, hmatched hevents,
      hcloned hevents, List.append_nil, List.append_nil]
    exact ⟨rfl, rfl⟩
  case failed =>
    intro id s s' e hvisit
    have hturn := visitSubjob_turn env job id s
    rw [show visitSubjob env job id s = _ from hvisit] at hturn
    rcases hturn with ⟨events, htouched, hevents⟩
    rw [htouched.trace, List.filterMap_append, hmatched hevents, List.append_nil]
  case visit =>
    intro id s s' nodes hvisit
    have hturn := visitSubjob_turn env job id s
    rw [show visitSubjob env job id s = _ from hvisit] at hturn
    rw [hturn.1.trace, List.filterMap_append, List.filterMap_append]
    exact ⟨rfl, List.append_nil _, trivial⟩
  case expand =>
    intro id node s s' _ hexpand
    rcases expandSubjob_spec env id node s with ⟨events, htouched, hevents⟩
    rw [show expandSubjob env id node s = _ from hexpand] at htouched
    have htrace : s'.trace = s.trace ++ _ := htouched.trace
    have hunlooped := unlooped_run s.doc.nextId hevents
    rw [htrace, List.filterMap_append, List.filterMap_append]
    refine ⟨?_, ?_, trivial⟩
    · show _ ++ (Event.run s.doc.nextId :: events).filterMap Event.matchedJob? = _
      rw [hmatched hunlooped, List.append_nil]
    · show _ ++ (id, node) :: (Event.run s.doc.nextId :: events).filterMap Event.clonedJob? = _
      rw [hcloned hunlooped]
  case expandFailed =>
    intro id node s s' e _ hexpand
    rcases expandSubjob_spec env id node s with ⟨events, htouched, hevents⟩
    rw [show expandSubjob env id node s = _ from hexpand] at htouched
    have htrace : s'.trace = s.trace ++ _ := htouched.trace
    have hunlooped := unlooped_run s.doc.nextId hevents
    rw [htrace, List.filterMap_append]
    show _ ++ (Event.run s.doc.nextId :: events).filterMap Event.matchedJob? = _
    rw [hmatched hunlooped, List.append_nil]
  case finish => exact fun _ _ ↦ ⟨rfl, rfl⟩

/-! ## Every looped job is matched once, and every clone run once -/

/-- Between two visits of a call of `run_subjobs` that was made in the state `before`, with the subjobs
`all`: `rest` is still to be visited, and `pending` is being expanded.  The jobs `outside` are those that
are not below any of the subjobs. -/
structure ExpandingJobs (before : WorkflowInstance Node) (job : Nat) (outside : Nat → Prop)
    (all pending rest : List Nat) (s : WorkflowInstance Node) : Prop where
  grown : before.trace <+: s.trace
  nextId : before.doc.nextId ≤ s.doc.nextId
  nodup : (pending ++ rest).Nodup
  older : ∀ x ∈ all, x < before.doc.nextId
  subset : ∀ x ∈ pending ++ rest, x ∈ all
  same : ∀ x ∈ rest, s.doc.job? x = before.doc.job? x
  outsideJob : outside job
  outsideNew : ∀ x, before.doc.nextId ≤ x → outside x
  outsideClosed : ∀ j ∈ s.doc.jobs, outside j.id → outside j.parent
  inside : ∀ x ∈ all, ¬outside x
  children : ∀ j ∈ s.doc.jobs, j.id ∈ all → j.parent = job
  matched : ∀ x nodes, .jobMatched x nodes ∈ s.since before → x ∈ all ∧
    (∃ subjob, before.doc.job? x = some subjob ∧ subjob.loop.isSome) ∧
    (x ∈ pending ∨ x ∉ s.doc.jobs.map JobNode.id)
  settled : ∀ x ∈ all, x ∈ rest ∨
    (∀ subjob, before.doc.job? x = some subjob → subjob.loop = none) ∨
    (x ∉ pending ∧ ∃ j, s.doc.job? x = some j ∧ j.status = some .skipped) ∨
    ∃ nodes, .jobMatched x nodes ∈ s.since before
  cloned : ∀ x clone node, .jobCloned x clone node ∈ s.since before →
    clone ∈ (s.since before).filterMap Event.run?
  once : ((s.since before).filterMap Event.run?).Nodup
  ran : ∀ x ∈ (s.since before).filterMap Event.run?, x < s.doc.nextId ∧ x ∉ pending ++ rest

variable {outside : Nat → Prop} {all pending : List Nat}

theorem since_jobTouched (h : before.trace <+: s.trace) (htouched : JobTouched id events s s') :
    s'.since before = s.since before ++ events := by
  unfold since
  rw [htouched.trace]
  exact List.drop_append_of_le_length h.length_le

theorem JobTouched.ids (h : JobTouched id events s s') :
    s'.doc.jobs.map JobNode.id = s.doc.jobs.map JobNode.id := by
  have hlinks := congrArg (List.map Prod.fst) h.links
  rw [List.map_map, List.map_map] at hlinks
  exact hlinks

/-- The links of the jobs stay as they are. -/
theorem JobTouched.link (h : JobTouched id events s s') {j : JobNode} (hj : j ∈ s'.doc.jobs) :
    ∃ j' ∈ s.doc.jobs, j'.id = j.id ∧ j'.parent = j.parent := by
  have hin : (j.id, j.parent) ∈ s'.doc.jobs.map fun j ↦ (j.id, j.parent) :=
    List.mem_map.mpr ⟨j, hj, rfl⟩
  rw [h.links] at hin
  rcases List.mem_map.mp hin with ⟨j', hj', heq⟩
  rw [Prod.mk.injEq] at heq
  exact ⟨j', hj', heq⟩

/-- A visit that matches nothing leaves the job behind. -/
theorem ExpandingJobs.done (h : ExpandingJobs before job outside all [] (x :: rest) s)
    (htouched : JobTouched x events s s') (hevents : Unlooped events)
    (hruns : events.filterMap Event.run? = [] ∨ events.filterMap Event.run? = [x])
    (hplain : (∀ subjob, s.doc.job? x = some subjob → subjob.loop = none) ∨
      ∃ j, s'.doc.job? x = some j ∧ j.status = some .skipped) :
    ExpandingJobs before job outside all [] rest s' := by
  have hsince := since_jobTouched h.grown htouched
  have hnotin : x ∉ rest := (List.nodup_cons.mp h.nodup).1
  have hfresh : x ∉ (s.since before).filterMap Event.run? := by
    intro hin
    exact (h.ran x hin).2 List.mem_cons_self
  have hxbound : x < s'.doc.nextId := by
    have holder := h.older x (h.subset x List.mem_cons_self)
    have hnext := h.nextId
    have hnext' := htouched.nextId
    omega
  -- the visit has run the subjob once, or not at all
  have hran : (s'.since before).filterMap Event.run? = (s.since before).filterMap Event.run? ∨
      (s'.since before).filterMap Event.run? =
        (s.since before).filterMap Event.run? ++ [x] := by
    rw [hsince, List.filterMap_append]
    rcases hruns with heq | heq
    · rw [heq, List.append_nil]
      exact .inl rfl
    · rw [heq]
      exact .inr rfl
  constructor
  case grown =>
    rw [htouched.trace]
    exact h.grown.trans (List.prefix_append _ _)
  case nextId => exact Nat.le_trans h.nextId htouched.nextId
  case nodup => exact (List.nodup_cons.mp h.nodup).2
  case older => exact h.older
  case subset => exact fun y hy ↦ h.subset y (List.mem_cons_of_mem _ hy)
  case same =>
    intro y hy
    -- the subjobs still to be visited are untouched
    rw [htouched.others y fun heq ↦ hnotin (heq ▸ hy)]
    exact h.same y (List.mem_cons_of_mem _ hy)
  case outsideJob => exact h.outsideJob
  case outsideNew => exact h.outsideNew
  case outsideClosed =>
    intro j hj
    rcases htouched.link hj with ⟨j', hj', hid, hparent⟩
    rw [← hid, ← hparent]
    exact h.outsideClosed j' hj'
  case inside => exact h.inside
  case children =>
    intro j hj
    rcases htouched.link hj with ⟨j', hj', hid, hparent⟩
    rw [← hid, ← hparent]
    exact h.children j' hj'
  case matched =>
    intro y nodes hy
    rw [hsince] at hy
    rcases List.mem_append.mp hy with hy | hy
    · rw [htouched.ids]
      exact h.matched y nodes hy
    · cases (hevents _ hy).1
  case settled =>
    intro y hy
    -- `x` was not looped, or is skipped; any other subjob is where it was
    by_cases heq : y = x
    · rw [heq]
      rcases hplain with hplain | hskipped
      · rw [← h.same x List.mem_cons_self]
        exact .inr (.inl hplain)
      · exact .inr (.inr (.inl ⟨nofun, hskipped⟩))
    · rcases h.settled y hy with hrest | hplain' | ⟨-, hskipped⟩ | ⟨nodes, hmatched⟩
      · exact .inl ((List.mem_cons.mp hrest).resolve_left heq)
      · exact .inr (.inl hplain')
      · rw [htouched.others y heq]
        exact .inr (.inr (.inl ⟨nofun, hskipped⟩))
      · rw [hsince]
        exact .inr (.inr (.inr ⟨nodes, List.mem_append_left _ hmatched⟩))
  case cloned =>
    intro y clone node hy
    have hin : clone ∈ (s.since before).filterMap Event.run? := by
      rw [hsince] at hy
      rcases List.mem_append.mp hy with hy | hy
      · exact h.cloned y clone node hy
      · cases (hevents _ hy).2
    rcases hran with heq | heq
    · rw [heq]
      exact hin
    · rw [heq]
      exact List.mem_append_left _ hin
  case once =>
    rcases hran with heq | heq
    · rw [heq]
      exact h.once
    · rw [heq]
      exact nodup_snoc h.once hfresh
  case ran =>
    intro y hy
    have hy : y ∈ (s.since before).filterMap Event.run? ∨ y = x := by
      rcases hran with heq | heq
      · rw [heq] at hy
        exact .inl hy
      · rw [heq, List.mem_append, List.mem_singleton] at hy
        exact hy
    rcases hy with hy | heq
    · have hin := h.ran y hy
      exact ⟨Nat.lt_of_lt_of_le hin.1 htouched.nextId,
        fun hrest ↦ hin.2 (List.mem_cons_of_mem _ hrest)⟩
    · rw [heq]
      exact ⟨hxbound, hnotin⟩

/-- A visit that matches opens the job for its expansion. -/
theorem ExpandingJobs.opened {nodes : List Node}
    (h : ExpandingJobs before job outside all [] (x :: rest) s)
    (htouched : JobTouched x [.jobMatched x nodes] s s')
    (hlooped : ∃ subjob, s.doc.job? x = some subjob ∧ subjob.loop.isSome) :
    ExpandingJobs before job outside all [x] rest s' := by
  have hsince := since_jobTouched h.grown htouched
  have hnotin : x ∉ rest := (List.nodup_cons.mp h.nodup).1
  -- opening a loop runs nothing
  have hran : (s'.since before).filterMap Event.run? =
      (s.since before).filterMap Event.run? := by
    rw [hsince, List.filterMap_append]
    exact List.append_nil _
  constructor
  case grown =>
    rw [htouched.trace]
    exact h.grown.trans (List.prefix_append _ _)
  case nextId => exact Nat.le_trans h.nextId htouched.nextId
  case nodup => exact h.nodup
  case older => exact h.older
  case subset => exact h.subset
  case same =>
    intro y hy
    rw [htouched.others y fun heq ↦ hnotin (heq ▸ hy)]
    exact h.same y (List.mem_cons_of_mem _ hy)
  case outsideJob => exact h.outsideJob
  case outsideNew => exact h.outsideNew
  case outsideClosed =>
    intro j hj
    rcases htouched.link hj with ⟨j', hj', hid, hparent⟩
    rw [← hid, ← hparent]
    exact h.outsideClosed j' hj'
  case inside => exact h.inside
  case children =>
    intro j hj
    rcases htouched.link hj with ⟨j', hj', hid, hparent⟩
    rw [← hid, ← hparent]
    exact h.children j' hj'
  case matched =>
    intro y nodes' hy
    rw [hsince] at hy
    rcases List.mem_append.mp hy with hy | hy
    · have hold := h.matched y nodes' hy
      rw [htouched.ids]
      exact ⟨hold.1, hold.2.1, hold.2.2.imp nofun fun hno ↦ hno⟩
    · have heq := List.mem_singleton.mp hy
      rw [Event.jobMatched.injEq] at heq
      rw [heq.1, ← h.same x List.mem_cons_self]
      exact ⟨h.subset x List.mem_cons_self, hlooped, .inl List.mem_cons_self⟩
  case settled =>
    intro y hy
    have hmatched : (.jobMatched x nodes : Event Node) ∈ s'.since before := by
      rw [hsince]
      exact List.mem_append_right _ List.mem_cons_self
    by_cases heq : y = x
    · rw [heq]
      exact .inr (.inr (.inr ⟨nodes, hmatched⟩))
    · rcases h.settled y hy with hrest | hplain | ⟨-, hskipped⟩ | ⟨nodes', hmatched'⟩
      · exact .inl ((List.mem_cons.mp hrest).resolve_left heq)
      · exact .inr (.inl hplain)
      · rw [htouched.others y heq]
        exact .inr (.inr (.inl ⟨fun hin ↦ heq (List.mem_singleton.mp hin), hskipped⟩))
      · rw [hsince]
        exact .inr (.inr (.inr ⟨nodes', List.mem_append_left _ hmatched'⟩))
  case cloned =>
    intro y clone node hy
    rw [hran]
    rw [hsince] at hy
    rcases List.mem_append.mp hy with hy | hy
    · exact h.cloned y clone node hy
    · cases List.mem_singleton.mp hy
  case once =>
    rw [hran]
    exact h.once
  case ran =>
    intro y hy
    rw [hran] at hy
    have hin := h.ran y hy
    exact ⟨Nat.lt_of_lt_of_le hin.1 htouched.nextId, hin.2⟩

/-! ## The clones of a job and its removal -/

theorem lt_nextId_cloneJob (d : Document Node) (id : Nat) : d.nextId < (d.cloneJob id).nextId := by
  have hpos := List.length_pos_of_mem (d.mem_subtree_self id)
  show d.nextId < d.nextId + (d.subtree id).length + d.tasks.length
  omega

/-- A clone is new, and so is its parent, unless it is the clone of the job itself. -/
theorem mem_cloneJob {d : Document Node} {j : JobNode} (hj : j ∈ (d.cloneJob id).jobs) :
    j ∈ d.jobs ∨ (d.nextId ≤ j.id ∧
      (d.nextId ≤ j.parent ∨ ∃ j' ∈ d.jobs, j'.id = id ∧ j.parent = j'.parent)) := by
  rcases List.mem_append.mp hj with hj | hj
  · exact .inl hj
  · rcases List.mem_map.mp hj with ⟨j', hj', heq⟩
    apply Or.inr
    rw [← heq]
    refine ⟨Nat.le_add_right _ _, ?_⟩
    by_cases hid : j'.id = id
    · rw [if_pos hid]
      exact .inr ⟨j', List.mem_of_mem_filter hj', hid, rfl⟩
    · rw [if_neg hid]
      exact .inl (Nat.le_add_right _ _)

theorem job?_cloneJob {d : Document Node} (hx : x < d.nextId) (id : Nat) :
    (d.cloneJob id).job? x = d.job? x := by
  show (d.jobs ++ _).find? _ = d.jobs.find? _
  have hold (found new : Option JobNode) (hnone : new = none) : found.or new = found := by
    rw [hnone, Option.or_none]
  rw [List.find?_append]
  apply hold
  rw [List.find?_eq_none]
  intro j hj
  rcases List.mem_map.mp hj with ⟨j', hj', heq⟩
  have hnew : d.nextId ≤ j.id := by
    rw [← heq]
    exact Nat.le_add_right _ _
  rw [decide_eq_true_eq]
  omega

theorem notMem_cloneJob {d : Document Node} (hx : x < d.nextId)
    (hnot : x ∉ d.jobs.map JobNode.id) : x ∉ (d.cloneJob id).jobs.map JobNode.id := by
  intro hin
  rcases List.mem_map.mp hin with ⟨j, hj, heq⟩
  rcases mem_cloneJob hj with hj | ⟨hnew, -⟩
  · exact hnot (List.mem_map.mpr ⟨j, hj, heq⟩)
  · omega

theorem job?_removeJob {d : Document Node} (hx : x ∉ d.subtree id) :
    (d.removeJob id).job? x = d.job? x := by
  show (d.jobs.filter _).find? _ = d.jobs.find? _
  rw [List.find?_filter]
  congr 1
  funext j
  by_cases heq : j.id = x
  · simp [heq, hx]
  · simp [heq]

/-- An expansion adds one clone with all that is below it, and runs it. -/
theorem ExpandingJobs.expand {node : Node} (h : ExpandingJobs before job outside all [x] rest s)
    (htouched : JobTouched x (.jobCloned x s.doc.nextId node :: .run s.doc.nextId :: events)
      { s with doc := s.doc.cloneJob x } s') (hevents : ∀ e ∈ events, e.ofTasks = true) :
    ExpandingJobs before job outside all [x] rest s' := by
  have hsince : s'.since before = s.since before ++
      (.jobCloned x s.doc.nextId node :: .run s.doc.nextId :: events) :=
    since_jobTouched (s := { s with doc := s.doc.cloneJob x }) h.grown htouched
  have hnotin : x ∉ rest := (List.nodup_cons.mp h.nodup).1
  have hunlooped := unlooped_run s.doc.nextId hevents
  have hran : (s'.since before).filterMap Event.run? =
      (s.since before).filterMap Event.run? ++ [s.doc.nextId] := by
    rw [hsince, List.filterMap_append]
    show _ ++ (Event.run s.doc.nextId :: events).filterMap Event.run? = _
    rw [runs_run hevents]
  have hnext : s.doc.nextId < s'.doc.nextId :=
    Nat.lt_of_lt_of_le (lt_nextId_cloneJob s.doc x) htouched.nextId
  have hold : ∀ y ∈ all, y < s.doc.nextId :=
    fun y hy ↦ Nat.lt_of_lt_of_le (h.older y hy) h.nextId
  -- the other subjobs are what they were: the copies have new numbers
  have hfind (y : Nat) (hy : y ∈ all) (hne : y ≠ x) : s'.doc.job? y = s.doc.job? y := by
    rw [htouched.others y hne]
    exact job?_cloneJob (hold y hy) x
  constructor
  case grown =>
    rw [htouched.trace]
    exact h.grown.trans (List.prefix_append _ _)
  case nextId => exact Nat.le_trans h.nextId (Nat.le_of_lt hnext)
  case nodup => exact h.nodup
  case older => exact h.older
  case subset => exact h.subset
  case same =>
    intro y hy
    rw [hfind y (h.subset y (List.mem_cons_of_mem _ hy)) fun heq ↦ hnotin (heq ▸ hy)]
    exact h.same y hy
  case outsideJob => exact h.outsideJob
  case outsideNew => exact h.outsideNew
  case outsideClosed =>
    intro j hj
    rcases htouched.link hj with ⟨j', hj', hid, hparent⟩
    rw [← hid, ← hparent]
    rcases mem_cloneJob hj' with hj' | ⟨-, hnew | ⟨j'', hj'', hid'', hparent''⟩⟩
    · exact h.outsideClosed j' hj'
    · exact fun _ ↦ h.outsideNew _ (Nat.le_trans h.nextId hnew)
    · -- the clone of the looped job has its parent
      intro _
      rw [hparent'', h.children j'' hj'' (by rw [hid'']; exact h.subset x List.mem_cons_self)]
      exact h.outsideJob
  case inside => exact h.inside
  case children =>
    intro j hj
    rcases htouched.link hj with ⟨j', hj', hid, hparent⟩
    rw [← hid, ← hparent]
    rcases mem_cloneJob hj' with hj' | ⟨hnew, -⟩
    · exact h.children j' hj'
    · intro hin
      have hlt := hold _ hin
      omega
  case matched =>
    intro y nodes hy
    rw [hsince] at hy
    rcases List.mem_append.mp hy with hy | hy
    · have holder := h.matched y nodes hy
      rw [htouched.ids]
      exact ⟨holder.1, holder.2.1, holder.2.2.imp id (notMem_cloneJob (hold y holder.1))⟩
    · rcases List.mem_cons.mp hy with heq | hy
      · cases heq
      · cases (hunlooped _ hy).1
  case settled =>
    intro y hy
    rcases h.settled y hy with hrest | hplain | ⟨hne, hskipped⟩ | ⟨nodes, hmatched⟩
    · exact .inl hrest
    · exact .inr (.inl hplain)
    · rw [hfind y hy fun heq ↦ hne (List.mem_singleton.mpr heq)]
      exact .inr (.inr (.inl ⟨hne, hskipped⟩))
    · rw [hsince]
      exact .inr (.inr (.inr ⟨nodes, List.mem_append_left _ hmatched⟩))
  case cloned =>
    intro y clone node' hy
    rw [hran]
    rw [hsince] at hy
    rcases List.mem_append.mp hy with hy | hy
    · exact List.mem_append_left _ (h.cloned y clone node' hy)
    · rcases List.mem_cons.mp hy with heq | hy
      · rw [Event.jobCloned.injEq] at heq
        rw [heq.2.1]
        exact List.mem_append_right _ List.mem_cons_self
      · cases (hunlooped _ hy).2
  case once =>
    rw [hran]
    -- the number of the clone is new
    apply nodup_snoc h.once
    intro hin
    exact absurd (h.ran _ hin).1 (Nat.lt_irrefl _)
  case ran =>
    intro y hy
    rw [hran, List.mem_append, List.mem_singleton] at hy
    rcases hy with hy | heq
    · have hin := h.ran y hy
      exact ⟨Nat.lt_trans hin.1 hnext, hin.2⟩
    · rw [heq]
      refine ⟨hnext, ?_⟩
      intro hin
      exact absurd (hold _ (h.subset _ hin)) (Nat.lt_irrefl _)

/-- The other subjobs are not below the job that is expanded. -/
theorem ExpandingJobs.notMem_subtree (h : ExpandingJobs before job outside all [x] rest s) :
    ∀ y ∈ s.doc.subtree x, ¬outside y ∧ (y ∈ all → y = x) := by
  apply Document.subtree_induction
  · exact ⟨h.inside x (h.subset x List.mem_cons_self), fun _ ↦ rfl⟩
  · intro j hj hparent
    refine ⟨fun hout ↦ hparent.1 (h.outsideClosed j hj hout), ?_⟩
    intro hin
    rw [h.children j hj hin] at hparent
    exact absurd h.outsideJob hparent.1

/-- Behind the expansion the job is removed with all that is below it. -/
theorem ExpandingJobs.closed (h : ExpandingJobs before job outside all [x] rest s) :
    ExpandingJobs before job outside all [] rest { s with doc := s.doc.removeJob x } := by
  have hnotin : x ∉ rest := (List.nodup_cons.mp h.nodup).1
  have hfind (y : Nat) (hy : y ∈ all) (hne : y ≠ x) :
      (s.doc.removeJob x).job? y = s.doc.job? y :=
    job?_removeJob fun hin ↦ hne ((h.notMem_subtree y hin).2 hy)
  constructor
  case grown => exact h.grown
  case nextId => exact h.nextId
  case nodup => exact (List.nodup_cons.mp h.nodup).2
  case older => exact h.older
  case subset => exact fun y hy ↦ h.subset y (List.mem_cons_of_mem _ hy)
  case same =>
    intro y hy
    rw [← h.same y hy]
    exact hfind y (h.subset y (List.mem_cons_of_mem _ hy)) fun heq ↦ hnotin (heq ▸ hy)
  case outsideJob => exact h.outsideJob
  case outsideNew => exact h.outsideNew
  case outsideClosed => exact fun j hj ↦ h.outsideClosed j (List.mem_of_mem_filter hj)
  case inside => exact h.inside
  case children => exact fun j hj ↦ h.children j (List.mem_of_mem_filter hj)
  case matched =>
    intro y nodes hy
    have hold := h.matched y nodes hy
    refine ⟨hold.1, hold.2.1, .inr ?_⟩
    intro hin
    rcases hold.2.2 with hpending | hgone
    · rcases List.mem_map.mp hin with ⟨j, hj, hid⟩
      have hkept := (List.mem_filter.mp hj).2
      rw [hid, List.mem_singleton.mp hpending] at hkept
      exact of_decide_eq_true hkept (s.doc.mem_subtree_self x)
    · exact hgone ((List.filter_sublist.map _).subset hin)
  case settled =>
    intro y hy
    rcases h.settled y hy with hrest | hplain | ⟨hne, hskipped⟩ | hmatched
    · exact .inl hrest
    · exact .inr (.inl hplain)
    · refine .inr (.inr (.inl ⟨nofun, ?_⟩))
      rw [hfind y hy fun heq ↦ hne (List.mem_singleton.mpr heq)]
      exact hskipped
    · exact .inr (.inr (.inr hmatched))
  case cloned => exact h.cloned
  case once => exact h.once
  case ran =>
    intro y hy
    have hin := h.ran y hy
    exact ⟨hin.1, fun hrest ↦ hin.2 (List.mem_cons_of_mem _ hrest)⟩

/-- Whatever the rule for the position is, the loop of `run_subjobs` goes from state to state like
this. -/
theorem subjobLoop_expanding (env : Environment Node) (before : WorkflowInstance Node) (job : Nat)
    (outside : Nat → Prop) (all : List Nat) :
    SnapshotLoop.Keeps (subjobLoop env job) (ExpandingJobs before job outside all [])
      (fun x rest s ↦ ExpandingJobs before job outside all [x] rest s)
      (fun s ↦ before.trace <+: s.trace) := by
  constructor
  case done =>
    intro x rest s s' h hvisit
    have hturn := visitSubjob_turn env job x s
    rw [show visitSubjob env job x s = _ from hvisit] at hturn
    rcases hturn with ⟨events, htouched, hevents, hruns, hplain⟩
    exact h.done htouched hevents hruns hplain
  case failed =>
    intro x rest s s' e h hvisit
    have hturn := visitSubjob_turn env job x s
    rw [show visitSubjob env job x s = _ from hvisit] at hturn
    rcases hturn with ⟨events, htouched, -⟩
    rw [htouched.trace]
    exact h.grown.trans (List.prefix_append _ _)
  case matched =>
    intro x rest s s' nodes h hvisit
    have hturn := visitSubjob_turn env job x s
    rw [show visitSubjob env job x s = _ from hvisit] at hturn
    rcases hturn with ⟨htouched, subjob, hfind, hlooped, -⟩
    exact h.opened htouched ⟨subjob, hfind, hlooped⟩
  case expand =>
    intro x rest node s s' h hexpand
    rcases expandSubjob_spec env x node s with ⟨events, htouched, hevents⟩
    rw [show expandSubjob env x node s = _ from hexpand] at htouched
    exact h.expand htouched hevents
  case expandFailed =>
    intro x rest node s s' e h hexpand
    rcases expandSubjob_spec env x node s with ⟨events, htouched, -⟩
    rw [show expandSubjob env x node s = _ from hexpand] at htouched
    have htrace : s'.trace = s.trace ++ _ := htouched.trace
    rw [htrace]
    exact h.grown.trans (List.prefix_append _ _)
  case finish => exact fun x rest s h ↦ h.closed

theorem expandingJobs_start (htree : s.doc.Tree) (job : Nat) :
    ExpandingJobs s job (fun y ↦ ∀ x ∈ (s.doc.subjobsOf job).map JobNode.id, y ∉ s.doc.subtree x)
      ((s.doc.subjobsOf job).map JobNode.id) [] ((s.doc.subjobsOf job).map JobNode.id)
      (s.log (.runSubjobs job)) := by
  -- the list holds the children of `job`, all of them older than any clone
  have hchild : ∀ x ∈ (s.doc.subjobsOf job).map JobNode.id, ∃ j ∈ s.doc.jobs,
      j.id = x ∧ j.parent = job := by
    intro x hx
    rcases List.mem_map.mp hx with ⟨j, hj, heq⟩
    rcases List.mem_filter.mp hj with ⟨hj, hparent⟩
    exact ⟨j, hj, heq, of_decide_eq_true hparent⟩
  have hbound : ∀ x ∈ (s.doc.subjobsOf job).map JobNode.id, x < s.doc.nextId := by
    intro x hx
    rcases hchild x hx with ⟨j, hj, heq, -⟩
    rw [← heq]
    exact (htree.jobsBound j hj).2
  have hsince : (s.log (.runSubjobs job)).since s = [.runSubjobs job] := List.drop_left
  constructor
  case grown => exact List.prefix_append _ _
  case nextId => exact Nat.le_refl _
  case nodup => exact htree.jobsNodup.sublist (List.filter_sublist.map _)
  case older => exact hbound
  case subset => exact fun x hx ↦ hx
  case same => exact fun x _ ↦ rfl
  case outsideJob =>
    intro x hx
    rcases hchild x hx with ⟨j, hj, heq, hparent⟩
    rw [← heq, ← hparent]
    exact htree.parent_notMem hj
  case outsideNew =>
    intro y hy x hx hin
    have hlt := htree.subtree_bound (hbound x hx) y hin
    omega
  case outsideClosed =>
    intro j hj hout x hx hin
    exact hout x hx (htree.mem_subtree hj hin)
  case inside => exact fun x hx hout ↦ hout x hx (s.doc.mem_subtree_self x)
  case children =>
    intro j hj hin
    rcases hchild j.id hin with ⟨j', hj', heq, hparent⟩
    rw [← List.inj_on_of_nodup_map htree.jobsNodup hj' hj heq]
    exact hparent
  case matched =>
    intro x nodes hx
    rw [hsince] at hx
    cases List.mem_singleton.mp hx
  case settled => exact fun x hx ↦ .inl hx
  case cloned =>
    intro x clone node hx
    rw [hsince] at hx
    cases List.mem_singleton.mp hx
  case once =>
    rw [hsince]
    exact List.nodup_nil
  case ran =>
    rw [hsince]
    exact nofun

theorem job?_of_mem (htree : s.doc.Tree) {j : JobNode} (hj : j ∈ s.doc.jobs) :
    s.doc.job? j.id = some j := by
  cases hfind : s.doc.job? j.id with
  | none =>
    have hno := List.find?_eq_none.mp hfind j hj
    simp at hno
  | some j' =>
    have hspec := job?_spec hfind
    rw [List.inj_on_of_nodup_map htree.jobsNodup hspec.1 hj hspec.2]

end WorkflowInstance

end EvQueue
