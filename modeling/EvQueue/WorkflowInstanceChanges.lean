import EvQueue.WorkflowInstanceRuns

/-!
# WorkflowInstanceChanges — the elementary changes that `run_subjobs` is made of

Whatever the document, `run_subjobs` only enqueues tasks, prepares them, clones and removes nodes, and
writes to jobs.  What each of these changes preserves is preserved by the whole call.
-/

namespace EvQueue

variable {Node : Type}

namespace WorkflowInstance

/-- What is written to a task by `run`, besides its queueing: its parameters, its loop, or that its loop
could not be evaluated. -/
structure Prepares (f : TaskNode Node → TaskNode Node) : Prop where
  id : ∀ t, (f t).id = t.id
  job : ∀ t, (f t).job = t.job
  status : ∀ t, (f t).status = t.status ∨ (f t).status = some .aborted
  retval : ∀ t, (f t).retval = t.retval

/-- `P` is preserved by the elementary changes. -/
structure Closed (env : Environment Node) (P : WorkflowInstance Node → Prop) : Prop where
  log : ∀ s e, P s → P (s.log e)
  setTask : ∀ s id f, Prepares f → P s → P (s.setTask id f)
  enqueueTask : ∀ s id, P s → P (s.enqueueTask env id)
  cloneTask : ∀ s (task : TaskNode Node), P s → P { s with doc := s.doc.cloneTask task }
  removeTask : ∀ s id, P s → P { s with doc := s.doc.removeTask id }
  setJob : ∀ s id f, P s → P (s.setJob id f)
  failJob : ∀ s id error, P s → P (s.failJob id error)
  cloneJob : ∀ s id, P s → P { s with doc := s.doc.cloneJob id }
  removeJob : ∀ s id, P s → P { s with doc := s.doc.removeJob id }

variable {env : Environment Node} {P : WorkflowInstance Node → Prop} {s : WorkflowInstance Node}

theorem Closed.replaceValue (h : Closed env P) (id : Nat) (context : Context Node) (hs : P s) :
    P (replaceValue env id context s).1 := by
  apply replaceValue_induction env _ context hs
  intro s content
  exact h.setTask s id _ ⟨fun _ ↦ rfl, fun _ ↦ rfl, fun _ ↦ .inl rfl, fun _ ↦ rfl⟩

theorem Closed.startTask (h : Closed env P) (task : TaskNode Node) (hs : P s) :
    P (s.startTask env task) :=
  h.enqueueTask _ _ (h.log _ _ hs)

theorem Closed.visitTask (h : Closed env P) (context : Context Node) (id : Nat) (hs : P s) :
    P (visitTask env context id s).state := by
  unfold WorkflowInstance.visitTask
  cases s.doc.task? id with
  | none => exact hs
  | some task =>
    dsimp only
    by_cases hterminated : task.status = some .terminated
    · rw [if_pos hterminated]
      exact hs
    · rw [if_neg hterminated]
      cases task.loop with
      | some loopXpath =>
        have hloop := h.setTask s id (fun t ↦ { t with loop := none })
          ⟨fun _ ↦ rfl, fun _ ↦ rfl, fun _ ↦ .inl rfl, fun _ ↦ rfl⟩ hs
        dsimp only
        generalize (s.setTask id fun t ↦ { t with loop := none }) = t at hloop
        cases env.evaluate t.doc context loopXpath with
        | none =>
          exact h.setTask t id _
            ⟨fun _ ↦ rfl, fun _ ↦ rfl, fun _ ↦ .inr rfl, fun _ ↦ rfl⟩ hloop
        | some nodes => exact h.log t _ hloop
      | none =>
        have hvalue := h.replaceValue id context hs
        dsimp only
        rcases hrun : WorkflowInstance.replaceValue env id context s with ⟨t, _ | e⟩
        · rw [hrun] at hvalue
          exact h.startTask task hvalue
        · rw [hrun] at hvalue
          exact hvalue

theorem Closed.expandTask (h : Closed env P) (id : Nat) (node : Node) (hs : P s) :
    P (expandTask env id node s).1 := by
  unfold WorkflowInstance.expandTask
  cases s.doc.task? id with
  | none => exact hs
  | some task =>
    have hvalue := h.replaceValue s.doc.nextId (.matched node)
      (h.log _ (.taskCloned id s.doc.nextId node) (h.cloneTask s task hs))
    dsimp only
    rcases hrun : WorkflowInstance.replaceValue env s.doc.nextId (.matched node)
      ({ s with doc := s.doc.cloneTask task }.log (.taskCloned id s.doc.nextId node)) with ⟨t, _ | e⟩
    · rw [hrun] at hvalue ⊢
      exact h.startTask _ hvalue
    · rw [hrun] at hvalue ⊢
      exact hvalue

theorem Closed.run (h : Closed env P) (job : Nat) (context : Context Node) (hs : P s) :
    P (run env job context s).1 :=
  SnapshotLoop.iterate_induction (fun id _ hs ↦ h.visitTask context id hs)
    (fun id node _ hs ↦ h.expandTask id node hs) (fun id s hs ↦ h.removeTask s id hs) (h.log s _ hs)

theorem Closed.abortSubjob (h : Closed env P) (id : Nat) (details : String) (hs : P s) :
    P (abortSubjob id details s).state :=
  h.failJob _ _ _ (h.setJob s id _ hs)

theorem Closed.launchSubjob (h : Closed env P) (job id : Nat) (loop : Option String) (hs : P s) :
    P (launchSubjob env job id loop s).state := by
  unfold WorkflowInstance.launchSubjob
  cases loop with
  | some loopXpath =>
    have hloop := h.setJob s id (fun j ↦ { j with loop := none }) hs
    dsimp only
    generalize (s.setJob id fun j ↦ { j with loop := none }) = t at hloop
    cases env.evaluate t.doc (.element job) loopXpath with
    | none => exact h.abortSubjob id _ hloop
    | some nodes => exact h.log t _ hloop
  | none =>
    have hkeep := h.run id (.element job) hs
    dsimp only
    rcases hrun : WorkflowInstance.run env id (.element job) s with ⟨t, _ | e⟩
    · rw [hrun] at hkeep
      exact hkeep
    · rw [hrun] at hkeep
      exact h.failJob t id e hkeep

theorem Closed.visitSubjob (h : Closed env P) (job id : Nat) (hs : P s) :
    P (visitSubjob env job id s).state := by
  unfold WorkflowInstance.visitSubjob
  cases s.doc.job? id with
  | none => exact hs
  | some subjob =>
    dsimp only
    cases subjob.condition with
    | none => exact h.launchSubjob job id subjob.loop hs
    | some condition =>
      dsimp only
      cases env.evaluateTest s.doc (.element job) condition with
      | invalid => exact h.abortSubjob id _ hs
      | noResult => exact h.abortSubjob id _ hs
      | value n =>
        dsimp only
        by_cases hn : n = 0
        · rw [if_pos hn]
          exact h.setJob s id _ hs
        · rw [if_neg hn]
          exact h.launchSubjob job id subjob.loop hs

theorem Closed.expandSubjob (h : Closed env P) (id : Nat) (node : Node) (hs : P s) :
    P (expandSubjob env id node s).1 := by
  have hkeep := h.run s.doc.nextId (.matched node)
    (h.log _ (.jobCloned id s.doc.nextId node) (h.cloneJob s id hs))
  unfold WorkflowInstance.expandSubjob
  dsimp only
  rcases hrun : WorkflowInstance.run env s.doc.nextId (.matched node)
    ({ s with doc := s.doc.cloneJob id }.log (.jobCloned id s.doc.nextId node)) with ⟨t, _ | e⟩
  · rw [hrun] at hkeep ⊢
    exact hkeep
  · rw [hrun] at hkeep ⊢
    exact h.failJob t id e hkeep

/-- What the elementary changes preserve, `run_subjobs` preserves. -/
theorem Closed.runSubjobs (h : Closed env P) (job : Nat) (hs : P s) : P (runSubjobs env job s).1 :=
  SnapshotLoop.iterate_induction (fun id _ hs ↦ h.visitSubjob job id hs)
    (fun id node _ hs ↦ h.expandSubjob id node hs) (fun id s hs ↦ h.removeJob s id hs) (h.log s _ hs)

end WorkflowInstance

end EvQueue
