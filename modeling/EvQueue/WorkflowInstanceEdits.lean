import Mathlib.Logic.Relation
import EvQueue.WorkflowInstanceReexecutions

/-!
# WorkflowInstanceEdits — a launch as a sequence of edits

`run_subjobs` edits the document in small steps: it prepares and enqueues tasks, clones tasks that are in
the document, writes to jobs, and clones and removes the subjobs that it was called for.  What it does to
the whole document is what these edits do, one after the other.
-/

namespace EvQueue

variable {Node : Type}

namespace WorkflowInstance

/-- A task is prepared, and its retry parameters are left as they are. -/
structure Spares (f : TaskNode Node → TaskNode Node) : Prop extends Prepares f where
  retry : ∀ t, TaskNode.SameRetry t (f t)

/-- One edit; `A` are the jobs that may be cloned and removed. -/
inductive Edit (env : Environment Node) (A : Nat → Prop) :
    WorkflowInstance Node → WorkflowInstance Node → Prop where
  | log (s : WorkflowInstance Node) (e : Event Node) (he : e.launched? = none) : Edit env A s (s.log e)
  | setTask (s : WorkflowInstance Node) (id : Nat) (f : TaskNode Node → TaskNode Node)
      (hf : Spares f) : Edit env A s (s.setTask id f)
  | enqueueTask (s : WorkflowInstance Node) (id : Nat) : Edit env A s (s.enqueueTask env id)
  | cloneTask (s : WorkflowInstance Node) (task : TaskNode Node) (ht : task ∈ s.doc.tasks) :
      Edit env A s { s with doc := s.doc.cloneTask task }
  | removeTask (s : WorkflowInstance Node) (id : Nat) :
      Edit env A s { s with doc := s.doc.removeTask id }
  | setJob (s : WorkflowInstance Node) (id : Nat) (f : JobNode → JobNode)
      (hf : ∀ j, (f j).id = j.id ∧ (f j).parent = j.parent) : Edit env A s (s.setJob id f)
  | failJob (s : WorkflowInstance Node) (id : Nat) (error : String) :
      Edit env A s (s.failJob id error)
  | cloneJob (s : WorkflowInstance Node) (id : Nat) (hid : A id) :
      Edit env A s { s with doc := s.doc.cloneJob id }
  | removeJob (s : WorkflowInstance Node) (id : Nat) (hid : A id) :
      Edit env A s { s with doc := s.doc.removeJob id }

abbrev Edits (env : Environment Node) (A : Nat → Prop) :
    WorkflowInstance Node → WorkflowInstance Node → Prop :=
  Relation.ReflTransGen (Edit env A)

variable {env : Environment Node} {A : Nat → Prop} {first s : WorkflowInstance Node}

theorem spares_content (content : TaskNode Node → List (Content Node)) :
    Spares fun t : TaskNode Node ↦ { t with content := content t } :=
  ⟨⟨fun _ ↦ rfl, fun _ ↦ rfl, fun _ ↦ .inl rfl, fun _ ↦ rfl⟩, fun _ ↦ ⟨rfl, rfl, rfl, rfl⟩⟩

theorem spares_loop : Spares fun t : TaskNode Node ↦ { t with loop := none } :=
  ⟨⟨fun _ ↦ rfl, fun _ ↦ rfl, fun _ ↦ .inl rfl, fun _ ↦ rfl⟩, fun _ ↦ ⟨rfl, rfl, rfl, rfl⟩⟩

theorem spares_abort (details : String) : Spares fun t : TaskNode Node ↦
    { t with
      status := some .aborted
      details := some details } :=
  ⟨⟨fun _ ↦ rfl, fun _ ↦ rfl, fun _ ↦ .inr rfl, fun _ ↦ rfl⟩, fun _ ↦ ⟨rfl, rfl, rfl, rfl⟩⟩

/-! ## `run` -/

theorem replaceValue_edits (id : Nat) (context : Context Node) (h : Edits env A first s) :
    Edits env A first (replaceValue env id context s).1 := by
  apply replaceValue_induction env _ context h
  intro s content hs
  exact hs.tail (.setTask s id _ (spares_content fun _ ↦ content))

theorem startTask_edits (task : TaskNode Node) (h : Edits env A first s) :
    Edits env A first (s.startTask env task) :=
  (h.tail (.log s _ rfl)).tail (.enqueueTask _ _)

theorem visitTask_edits (context : Context Node) (id : Nat) (h : Edits env A first s) :
    Edits env A first (visitTask env context id s).state := by
  unfold visitTask
  cases s.doc.task? id with
  | none => exact h
  | some task =>
    dsimp only
    by_cases hterminated : task.status = some .terminated
    · rw [if_pos hterminated]
      exact h
    · rw [if_neg hterminated]
      cases task.loop with
      | some loopXpath =>
        have hloop := h.tail (.setTask s id _ spares_loop)
        dsimp only
        generalize (s.setTask id fun t ↦ { t with loop := none }) = t at hloop
        cases env.evaluate t.doc context loopXpath with
        | none => exact hloop.tail (.setTask t id _ (spares_abort _))
        | some nodes => exact hloop.tail (.log t _ rfl)
      | none =>
        have hvalue := replaceValue_edits id context h
        dsimp only
        rcases hrun : replaceValue env id context s with ⟨t, _ | e⟩
        · rw [hrun] at hvalue
          exact startTask_edits task hvalue
        · rw [hrun] at hvalue
          exact hvalue

theorem expandTask_edits (id : Nat) (node : Node) (h : Edits env A first s) :
    Edits env A first (expandTask env id node s).1 := by
  unfold expandTask
  cases hfind : s.doc.task? id with
  | none => exact h
  | some task =>
    have hclone := h.tail (.cloneTask s task (task?_spec hfind).1)
    have hvalue := replaceValue_edits s.doc.nextId (.matched node)
      (hclone.tail (.log _ (.taskCloned id s.doc.nextId node) rfl))
    dsimp only
    rcases hrun : replaceValue env s.doc.nextId (.matched node)
      ({ s with doc := s.doc.cloneTask task }.log (.taskCloned id s.doc.nextId node)) with ⟨t, _ | e⟩
    · rw [hrun] at hvalue ⊢
      exact startTask_edits _ hvalue
    · rw [hrun] at hvalue ⊢
      exact hvalue

theorem run_edits (job : Nat) (context : Context Node) (h : Edits env A first s) :
    Edits env A first (run env job context s).1 :=
  SnapshotLoop.iterate_induction (fun id _ hs ↦ visitTask_edits context id hs)
    (fun id node _ hs ↦ expandTask_edits id node hs) (fun id s hs ↦ hs.tail (.removeTask s id))
    (h.tail (.log s _ rfl))

/-! ## `run_subjobs` -/

theorem abortSubjob_edits (id : Nat) (details : String) (h : Edits env A first s) :
    Edits env A first (abortSubjob id details s).state :=
  (h.tail (.setJob s id (fun j ↦
    { j with
      status := some .aborted
      details := some details }) fun _ ↦ ⟨rfl, rfl⟩)).tail (.failJob _ _ _)

theorem launchSubjob_edits (job id : Nat) (loop : Option String) (h : Edits env A first s) :
    Edits env A first (launchSubjob env job id loop s).state := by
  unfold launchSubjob
  cases loop with
  | some loopXpath =>
    have hloop : Edits env A first (s.setJob id fun j ↦ { j with loop := none }) :=
      h.tail (.setJob s id _ fun _ ↦ ⟨rfl, rfl⟩)
    dsimp only
    generalize (s.setJob id fun j ↦ { j with loop := none }) = t at hloop
    cases env.evaluate t.doc (.element job) loopXpath with
    | none => exact abortSubjob_edits id _ hloop
    | some nodes => exact hloop.tail (.log t _ rfl)
  | none =>
    have hkeep := run_edits id (.element job) h
    dsimp only
    rcases hrun : run env id (.element job) s with ⟨t, _ | e⟩
    · rw [hrun] at hkeep
      exact hkeep
    · rw [hrun] at hkeep
      exact hkeep.tail (.failJob t id e)

theorem visitSubjob_edits (job id : Nat) (h : Edits env A first s) :
    Edits env A first (visitSubjob env job id s).state := by
  unfold visitSubjob
  cases s.doc.job? id with
  | none => exact h
  | some subjob =>
    dsimp only
    cases subjob.condition with
    | none => exact launchSubjob_edits job id subjob.loop h
    | some condition =>
      dsimp only
      cases env.evaluateTest s.doc (.element job) condition with
      | invalid => exact abortSubjob_edits id _ h
      | noResult => exact abortSubjob_edits id _ h
      | value n =>
        dsimp only
        by_cases hn : n = 0
        · rw [if_pos hn]
          exact h.tail (.setJob s id _ fun _ ↦ ⟨rfl, rfl⟩)
        · rw [if_neg hn]
          exact launchSubjob_edits job id subjob.loop h

theorem expandSubjob_edits (id : Nat) (hid : A id) (node : Node) (h : Edits env A first s) :
    Edits env A first (expandSubjob env id node s).1 := by
  have hkeep := run_edits s.doc.nextId (.matched node)
    ((h.tail (.cloneJob s id hid)).tail (.log _ (.jobCloned id s.doc.nextId node) rfl))
  unfold expandSubjob
  dsimp only
  rcases hrun : run env s.doc.nextId (.matched node)
    ({ s with doc := s.doc.cloneJob id }.log (.jobCloned id s.doc.nextId node)) with ⟨t, _ | e⟩
  · rw [hrun] at hkeep ⊢
    exact hkeep
  · rw [hrun] at hkeep ⊢
    exact hkeep.tail (.failJob t id e)

theorem subjobLoop_edits (env : Environment Node) (A : Nat → Prop) (first : WorkflowInstance Node)
    (job : Nat) : SnapshotLoop.Keeps (subjobLoop env job)
      (fun rest s ↦ (∀ id ∈ rest, A id) ∧ Edits env A first s)
      (fun id rest s ↦ (∀ x ∈ id :: rest, A x) ∧ Edits env A first s) (Edits env A first) := by
  have htail {id : Nat} {rest : List Nat} (h : ∀ x ∈ id :: rest, A x) : ∀ x ∈ rest, A x :=
    fun x hx ↦ h x (List.mem_cons_of_mem _ hx)
  constructor
  case done =>
    intro id rest s s' h hvisit
    have hedits := visitSubjob_edits job id h.2
    rw [show visitSubjob env job id s = _ from hvisit] at hedits
    exact ⟨htail h.1, hedits⟩
  case failed =>
    intro id rest s s' e h hvisit
    have hedits := visitSubjob_edits job id h.2
    rw [show visitSubjob env job id s = _ from hvisit] at hedits
    exact hedits
  case matched =>
    intro id rest s s' nodes h hvisit
    have hedits := visitSubjob_edits job id h.2
    rw [show visitSubjob env job id s = _ from hvisit] at hedits
    exact ⟨h.1, hedits⟩
  case expand =>
    intro id rest node s s' h hexpand
    have hedits := expandSubjob_edits id (h.1 id List.mem_cons_self) node h.2
    rw [show expandSubjob env id node s = _ from hexpand] at hedits
    exact ⟨h.1, hedits⟩
  case expandFailed =>
    intro id rest node s s' e h hexpand
    have hedits := expandSubjob_edits id (h.1 id List.mem_cons_self) node h.2
    rw [show expandSubjob env id node s = _ from hexpand] at hedits
    exact hedits
  case finish =>
    intro id rest s h
    exact ⟨htail h.1, h.2.tail (.removeJob s id (h.1 id List.mem_cons_self))⟩

/-- A launch is a sequence of edits, in which only the subjobs are cloned and removed. -/
theorem runSubjobs_edits (env : Environment Node) (job : Nat) (s : WorkflowInstance Node) :
    Edits env (fun id ↦ id ∈ (s.doc.subjobsOf job).map JobNode.id) (s.log (.runSubjobs job))
      (runSubjobs env job s).1 := by
  unfold runSubjobs
  rcases hrun : SnapshotLoop.iterate (subjobLoop env job) SnapshotLoop.readOn
    ((s.doc.subjobsOf job).map JobNode.id) 0 (s.log (.runSubjobs job)) with ⟨s', e⟩
  have hkeep := (subjobLoop_edits env _ (s.log (.runSubjobs job)) job).iterate
    ⟨fun _ hid ↦ hid, Relation.ReflTransGen.refl⟩ hrun
  cases e with
  | none => exact (hkeep.1 rfl).2
  | some e => exact hkeep.2 (by simp)

/-! ## What edits keep -/

variable {s' s'' : WorkflowInstance Node} {id : Nat}

/-- Every task has the retry parameters of a task that was there before. -/
structure Inherits (s s' : WorkflowInstance Node) : Prop where
  schedules : s'.doc.schedules = s.doc.schedules
  tasks : ∀ t' ∈ s'.doc.tasks, ∃ t ∈ s.doc.tasks, TaskNode.SameRetry t t'

theorem Inherits.refl (s : WorkflowInstance Node) : Inherits s s :=
  ⟨rfl, fun t ht ↦ ⟨t, ht, TaskNode.SameRetry.refl t⟩⟩

theorem Inherits.trans (h : Inherits s s') (h' : Inherits s' s'') : Inherits s s'' := by
  constructor
  case schedules => exact h'.schedules.trans h.schedules
  case tasks =>
    intro t'' ht''
    rcases h'.tasks t'' ht'' with ⟨t', ht', hsame'⟩
    rcases h.tasks t' ht' with ⟨t, ht, hsame⟩
    exact ⟨t, ht, hsame.trans hsame'⟩

theorem inherits_setTask {f : TaskNode Node → TaskNode Node}
    (hf : ∀ t, TaskNode.SameRetry t (f t)) : Inherits s (s.setTask id f) := by
  constructor
  case schedules => rfl
  case tasks =>
    intro t' ht'
    rcases List.mem_map.mp ht' with ⟨t, ht, heq⟩
    refine ⟨t, ht, ?_⟩
    rw [← heq]
    split
    · exact hf t
    · exact TaskNode.SameRetry.refl t

theorem inherits_abortTask (error : String) : Inherits s (s.abortTask id error) := by
  have h : Inherits s (s.setTask id fun t ↦
      { t with
        status := some .aborted
        error := some error }) :=
    inherits_setTask fun _ ↦ ⟨rfl, rfl, rfl, rfl⟩
  exact ⟨h.schedules, h.tasks⟩

theorem inherits_enqueueTask (env : Environment Node) (s : WorkflowInstance Node) (id : Nat) :
    Inherits s (s.enqueueTask env id) := by
  rcases enqueueTask_cases env s id with heq | ⟨error, heq⟩ | heq
  · rw [heq]
    exact Inherits.refl s
  · rw [heq]
    exact inherits_abortTask error
  · have h : Inherits s (s.setTask id fun t ↦ { t with status := some .queued }) :=
      inherits_setTask fun _ ↦ ⟨rfl, rfl, rfl, rfl⟩
    rw [heq]
    exact ⟨h.schedules, h.tasks⟩

theorem Edit.inherits (h : Edit env A s s') : Inherits s s' := by
  cases h with
  | log e he => exact ⟨rfl, (Inherits.refl s).tasks⟩
  | setTask id f hf => exact inherits_setTask hf.retry
  | enqueueTask id => exact inherits_enqueueTask env s id
  | cloneTask task ht =>
    refine ⟨rfl, fun t' ht' ↦ ?_⟩
    rcases List.mem_append.mp ht' with ht' | ht'
    · exact ⟨t', ht', TaskNode.SameRetry.refl t'⟩
    · rw [List.mem_singleton.mp ht']
      exact ⟨task, ht, ⟨rfl, rfl, rfl, rfl⟩⟩
  | removeTask id =>
    exact ⟨rfl, fun t' ht' ↦ ⟨t', List.mem_of_mem_filter ht', TaskNode.SameRetry.refl t'⟩⟩
  | setJob id f hf => exact ⟨rfl, (Inherits.refl s).tasks⟩
  | failJob id error => exact ⟨rfl, (Inherits.refl s).tasks⟩
  | cloneJob id hid =>
    refine ⟨rfl, fun t' ht' ↦ ?_⟩
    rcases List.mem_append.mp ht' with ht' | ht'
    · exact ⟨t', ht', TaskNode.SameRetry.refl t'⟩
    · rcases List.mem_mapIdx.mp ht' with ⟨i, hi, heq⟩
      rw [← heq]
      exact ⟨_, List.mem_of_mem_filter (List.getElem_mem hi), ⟨rfl, rfl, rfl, rfl⟩⟩
  | removeJob id hid =>
    exact ⟨rfl, fun t' ht' ↦ ⟨t', List.mem_of_mem_filter ht', TaskNode.SameRetry.refl t'⟩⟩

theorem Edits.inherits (h : Edits env A s s') : Inherits s s' := by
  induction h with
  | refl => exact Inherits.refl s
  | tail _ hedit ih => exact ih.trans hedit.inherits

/-- Every task is in a job of the document. -/
def JobsKnown (s : WorkflowInstance Node) : Prop :=
  ∀ t ∈ s.doc.tasks, t.job ∈ s.doc.jobs.map JobNode.id

theorem jobsKnown_setTask {f : TaskNode Node → TaskNode Node} (hf : ∀ t, (f t).job = t.job)
    (h : s.JobsKnown) : (s.setTask id f).JobsKnown := by
  intro t' ht'
  rcases List.mem_map.mp ht' with ⟨t, ht, heq⟩
  have hjob : t'.job = t.job := by
    rw [← heq]
    split
    · exact hf t
    · rfl
  rw [hjob]
  exact h t ht

theorem jobsKnown_enqueueTask (env : Environment Node) (h : s.JobsKnown) :
    (s.enqueueTask env id).JobsKnown := by
  rcases enqueueTask_cases env s id with heq | ⟨error, heq⟩ | heq
  · rw [heq]
    exact h
  · rw [heq]
    exact jobsKnown_setTask (fun _ ↦ rfl) h
  · rw [heq]
    exact jobsKnown_setTask (fun _ ↦ rfl) h

theorem map_id_setJob {f : JobNode → JobNode} (hf : ∀ j, (f j).id = j.id) :
    (s.setJob id f).doc.jobs.map JobNode.id = s.doc.jobs.map JobNode.id := by
  show (s.doc.jobs.map fun j ↦ if j.id = id then f j else j).map JobNode.id = _
  rw [List.map_map]
  apply List.map_congr_left
  intro j _
  show (if j.id = id then f j else j).id = j.id
  split
  · exact hf j
  · rfl

theorem map_id_failJob (error : String) :
    (s.failJob id error).doc.jobs.map JobNode.id = s.doc.jobs.map JobNode.id := by
  apply map_id_setJob
  exact fun _ ↦ rfl

theorem Edit.jobsKnown (h : Edit env A s s') (hknown : s.JobsKnown) : s'.JobsKnown := by
  cases h with
  | log e he => exact hknown
  | setTask id f hf => exact jobsKnown_setTask hf.job hknown
  | enqueueTask id => exact jobsKnown_enqueueTask env hknown
  | cloneTask task ht =>
    intro t' ht'
    rcases List.mem_append.mp ht' with ht' | ht'
    · exact hknown t' ht'
    · rw [List.mem_singleton.mp ht']
      exact hknown task ht
  | removeTask id => exact fun t' ht' ↦ hknown t' (List.mem_of_mem_filter ht')
  | setJob id f hf =>
    unfold JobsKnown
    rw [map_id_setJob fun j ↦ (hf j).1]
    exact hknown
  | failJob id error =>
    intro t ht
    rw [map_id_failJob]
    exact hknown t ht
  | cloneJob id hid =>
    intro t' ht'
    show t'.job ∈ (s.doc.jobs ++ _).map JobNode.id
    rw [List.map_append, List.mem_append]
    rcases List.mem_append.mp ht' with ht' | ht'
    · exact .inl (hknown t' ht')
    · -- the job of a cloned task is cloned with it
      rcases List.mem_mapIdx.mp ht' with ⟨i, hi, heq⟩
      have hin := List.mem_filter.mp (List.getElem_mem hi)
      rcases List.mem_map.mp (hknown _ hin.1) with ⟨j, hj, hjob⟩
      right
      rw [← heq, List.map_map]
      refine List.mem_map.mpr ⟨j, List.mem_filter.mpr ⟨hj, ?_⟩, ?_⟩
      · rw [hjob]
        exact hin.2
      · show s.doc.nextId + (s.doc.subtree id).idxOf j.id = _
        rw [hjob]
  | removeJob id hid =>
    intro t' ht'
    rcases List.mem_filter.mp ht' with ⟨ht', hout⟩
    rcases List.mem_map.mp (hknown t' ht') with ⟨j, hj, hjob⟩
    refine List.mem_map.mpr ⟨j, List.mem_filter.mpr ⟨hj, ?_⟩, hjob⟩
    rw [hjob]
    exact hout

theorem Edits.jobsKnown (h : Edits env A s s') (hknown : s.JobsKnown) : s'.JobsKnown := by
  induction h with
  | refl => exact hknown
  | tail _ hedit ih => exact hedit.jobsKnown ih

/-- No edit logs a launch. -/
theorem Edit.launched (h : Edit env A s s') : s'.view.launched = s.view.launched := by
  cases h with
  | log e he =>
    rw [view_log, he]
    exact List.append_nil _
  | enqueueTask id =>
    rcases enqueueTask_cases env s id with heq | ⟨error, heq⟩ | heq
    · rw [heq]
    · rw [heq]
      rfl
    · rw [heq]
      rfl
  | _ => rfl

theorem Edits.launched (h : Edits env A s s') : s'.view.launched = s.view.launched := by
  induction h with
  | refl => rfl
  | tail _ hedit ih => exact hedit.launched.trans ih

end WorkflowInstance

end EvQueue
