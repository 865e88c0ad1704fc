import Mathlib.Data.List.Perm.Subperm
import EvQueue.WorkflowInstanceFrames

/-!
# WorkflowInstanceCancelling — what the calls do to an instance that is being cancelled

A call only adds to the queues and to the retrier, behind what it found there.  Once the flag is set it
adds nothing: the counters do not grow, and every task that is queued or executing behind the call was
so before.
-/

namespace EvQueue

variable {Node : Type}

namespace WorkflowInstance

variable {env : Environment Node} {before s s' s'' : WorkflowInstance Node} {id job : Nat}
variable {task : TaskNode Node} {k r : Int}

/-! ## The queues, the retrier and the counters -/

/-- What is in the queues and in the retrier was there before, or was added, which takes a flag that is
not set. -/
structure Extends (before s : WorkflowInstance Node) : Prop where
  isCancelling : s.isCancelling = before.isCancelling
  queued : before.queued <+: s.queued
  retrier : before.retrier <+: s.retrier
  held : before.isCancelling = true → s.queued = before.queued ∧ s.retrier = before.retrier ∧
    s.runningTally ≤ before.runningTally ∧ s.retryingTally ≤ before.retryingTally

theorem Extends.refl (s : WorkflowInstance Node) : Extends s s :=
  ⟨rfl, List.prefix_rfl, List.prefix_rfl, fun _ ↦ ⟨rfl, rfl, Int.le_refl _, Int.le_refl _⟩⟩

theorem Extends.trans (h : Extends before s) (h' : Extends s s') : Extends before s' := by
  constructor
  case isCancelling => rw [h'.isCancelling, h.isCancelling]
  case queued => exact h.queued.trans h'.queued
  case retrier => exact h.retrier.trans h'.retrier
  case held =>
    intro hcancel
    have hfirst := h.held hcancel
    rw [← h.isCancelling] at hcancel
    have hsecond := h'.held hcancel
    exact ⟨hsecond.1.trans hfirst.1, hsecond.2.1.trans hfirst.2.1,
      Int.le_trans hsecond.2.2.1 hfirst.2.2.1, Int.le_trans hsecond.2.2.2 hfirst.2.2.2⟩

/-- The document and the number of errors are not looked at. -/
theorem Extends.change (h : Extends before s) (doc : Document Node) (errorTally : Int)
    (trace : List (Event Node)) : Extends before { s with doc, errorTally, trace } :=
  ⟨h.isCancelling, h.queued, h.retrier, h.held⟩

theorem extends_enqueueTask (env : Environment Node) (s : WorkflowInstance Node) (id : Nat) :
    Extends s (s.enqueueTask env id) := by
  unfold enqueueTask
  cases s.doc.task? id with
  | none => exact Extends.refl s
  | some task =>
    dsimp only
    by_cases hcancel : s.isCancelling = true
    · rw [if_pos hcancel]
      exact (Extends.refl s).change _ _ _
    · rw [if_neg hcancel]
      by_cases hqueue : env.enqueueTask task.queue = true
      · -- only without the flag
        rw [if_pos hqueue]
        exact ⟨rfl, List.prefix_append _ _, List.prefix_rfl, fun hset ↦ absurd hset hcancel⟩
      · rw [if_neg hqueue]
        exact (Extends.refl s).change _ _ _

theorem extends_closed (env : Environment Node) (before : WorkflowInstance Node) :
    Closed env (Extends before) where
  log _ _ h := h.change _ _ _
  setTask _ _ _ _ h := h.change _ _ _
  enqueueTask s x h := h.trans (extends_enqueueTask env s x)
  cloneTask _ _ h := h.change _ _ _
  removeTask _ _ h := h.change _ _ _
  setJob _ _ _ h := h.change _ _ _
  failJob _ _ _ h := h.change _ _ _
  cloneJob _ _ h := h.change _ _ _
  removeJob _ _ h := h.change _ _ _

theorem extends_start (env : Environment Node) (s : WorkflowInstance Node) :
    Extends s (s.start env).1 :=
  (extends_closed env s).runSubjobs 0 (Extends.refl s)

theorem extends_taskRestart (env : Environment Node) (s : WorkflowInstance Node) (id : Nat) :
    Extends s (s.taskRestart env id).1 := by
  have h := extends_enqueueTask env s id
  refine ⟨h.isCancelling, h.queued, h.retrier, ?_⟩
  intro hcancel
  have hheld := h.held hcancel
  refine ⟨hheld.1, hheld.2.1, hheld.2.2.1, ?_⟩
  show (s.enqueueTask env id).retryingTally - 1 ≤ s.retryingTally
  omega

theorem extends_taskExecute (env : Environment Node) (s : WorkflowInstance Node) (id : Nat) :
    Extends s (s.taskExecute env id).1 := by
  have habort (error : String) :
      Extends s { s.abortTask id error with runningTally := s.runningTally - 1 } := by
    refine ⟨rfl, List.prefix_rfl, List.prefix_rfl, fun _ ↦ ⟨rfl, rfl, ?_, Int.le_refl _⟩⟩
    show s.runningTally - 1 ≤ s.runningTally
    omega
  unfold taskExecute
  cases s.doc.task? id with
  | none => exact Extends.refl s
  | some task =>
    dsimp only
    split
    · exact habort _
    · cases env.getTask task.name with
      | none => exact habort _
      | some method =>
        dsimp only
        split
        · exact (Extends.refl s).change _ _ _
        · exact habort _

theorem extends_retryTask (env : Environment Node) (id : Nat) (hcancel : s.isCancelling = false) :
    Extends s (s.retryTask env id) := by
  cases hfind : s.doc.task? id with
  | none =>
    unfold retryTask
    rw [hfind]
    exact Extends.refl s
  | some task =>
    rcases retryTask_eq env hfind with ⟨d, -, heq⟩
    rw [heq]
    cases (task.retry env.uninitialised s.doc.schedules).2 with
    | exhausted => exact (Extends.refl s).change _ _ _
    | passedOver => exact (Extends.refl s).change _ _ _
    | planned =>
      refine ⟨rfl, List.prefix_rfl, List.prefix_append _ _, ?_⟩
      intro hset
      rw [hcancel] at hset
      cases hset

theorem extends_recordStop (env : Environment Node) (s : WorkflowInstance Node)
    (task : TaskNode Node) (retval : Int) (output : String) :
    Extends s (s.recordStop env task retval output) := by
  have hset {s' : WorkflowInstance Node} (h : Extends s s') (f : TaskNode Node → TaskNode Node) :
      Extends s (s'.setTask task.id f) := h.change _ _ _
  have habort {s' : WorkflowInstance Node} (h : Extends s s') (error : String) :
      Extends s (s'.abortTask task.id error) := h.change _ _ _
  have hstop := hset (Extends.refl s) fun t ↦
    { t with
      status := some .terminated
      retval := some retval }
  unfold recordStop
  dsimp only
  generalize (s.setTask task.id fun t ↦
    { t with
      status := some .terminated
      retval := some retval }) = s' at hstop
  by_cases hzero : retval = 0
  · rw [if_pos hzero]
    cases env.getTask task.name with
    | none => exact habort hstop _
    | some method =>
      cases method with
      | text => exact hset hstop _
      | xml =>
        dsimp only
        split
        · exact hset hstop _
        · exact habort hstop _
  · rw [if_neg hzero]
    split
    · exact hset (hset hstop _) _
    · rename_i hcancel
      exact (hset hstop _).trans (extends_retryTask env task.id (by simpa using hcancel))

theorem extends_taskStop (env : Environment Node) (s : WorkflowInstance Node) (id : Nat)
    (retval : Int) (output : String) : Extends s (s.taskStop env id retval output).1 := by
  unfold taskStop
  cases s.doc.task? id with
  | none => exact Extends.refl s
  | some task =>
    have hstop := extends_recordStop env s task retval output
    have hrun := (extends_closed env _).runSubjobs task.job hstop
    have hless {s' : WorkflowInstance Node} (h : Extends s s') :
        Extends s { s' with runningTally := s'.runningTally - 1 } := by
      refine ⟨h.isCancelling, h.queued, h.retrier, ?_⟩
      intro hcancel
      have hheld := h.held hcancel
      refine ⟨hheld.1, hheld.2.1, ?_, hheld.2.2.2⟩
      show s'.runningTally - 1 ≤ s.runningTally
      omega
    dsimp only
    split
    · exact hless hrun
    · exact hless hstop

/-! ## The tasks that are queued or executing -/

/-- The active tasks were active before, with the same status. -/
def Subsides (before s : WorkflowInstance Node) : Prop :=
  ∀ t ∈ s.doc.tasks, t.active = true → ∃ t' ∈ before.doc.tasks, t'.id = t.id ∧ t'.status = t.status

theorem Subsides.refl (s : WorkflowInstance Node) : Subsides s s :=
  fun t ht _ ↦ ⟨t, ht, rfl, rfl⟩

theorem active_congr {t t' : TaskNode Node} (h : t'.status = t.status) : t'.active = t.active := by
  unfold TaskNode.active
  rw [h]

theorem Subsides.trans (h : Subsides before s) (h' : Subsides s s') : Subsides before s' := by
  intro t ht hactive
  rcases h' t ht hactive with ⟨t', ht', hid, hstatus⟩
  rcases h t' ht' ((active_congr hstatus).trans hactive) with ⟨t'', ht'', hid', hstatus'⟩
  exact ⟨t'', ht'', hid'.trans hid, hstatus'.trans hstatus⟩

/-- A task that is written to keeps its status, or gets one that is not active. -/
theorem subsides_setTask (s : WorkflowInstance Node) (id : Nat) {f : TaskNode Node → TaskNode Node}
    (hf : ∀ t, (f t).id = t.id) (hstatus : ∀ t, (f t).status = t.status ∨ (f t).active = false) :
    Subsides s (s.setTask id f) := by
  intro t ht hactive
  rcases List.mem_map.mp ht with ⟨t', ht', heq⟩
  by_cases hid : t'.id = id
  · rw [if_pos hid] at heq
    rw [← heq] at hactive ⊢
    rcases hstatus t' with hsame | hno
    · exact ⟨t', ht', (hf t').symm, hsame.symm⟩
    · rw [hno] at hactive
      cases hactive
  · rw [if_neg hid] at heq
    rw [← heq]
    exact ⟨t', ht', rfl, rfl⟩

theorem subsides_abortTask (s : WorkflowInstance Node) (id : Nat) (error : String) :
    Subsides s (s.abortTask id error) :=
  subsides_setTask s id (fun _ ↦ rfl) fun _ ↦ .inr rfl

theorem subsides_enqueueTask (env : Environment Node) (id : Nat) (hcancel : s.isCancelling = true) :
    Subsides s (s.enqueueTask env id) := by
  unfold enqueueTask
  cases s.doc.task? id with
  | none => exact Subsides.refl s
  | some task =>
    dsimp only
    rw [if_pos hcancel]
    exact subsides_abortTask s id _

theorem subsides_taskExecute (env : Environment Node) (id : Nat) (hcancel : s.isCancelling = true) :
    Subsides s (s.taskExecute env id).1 := by
  unfold taskExecute
  cases s.doc.task? id with
  | none => exact Subsides.refl s
  | some task =>
    dsimp only
    rw [if_pos hcancel]
    exact subsides_abortTask s id _

theorem subsides_recordStop (env : Environment Node) (task : TaskNode Node) (retval : Int)
    (output : String) (hcancel : s.isCancelling = true) :
    Subsides s (s.recordStop env task retval output) := by
  have hstop : Subsides s (s.setTask task.id fun t ↦
      { t with
        status := some .terminated
        retval := some retval }) :=
    subsides_setTask s task.id (fun _ ↦ rfl) fun _ ↦ .inr rfl
  have hset {s' : WorkflowInstance Node} (h : Subsides s s') (f : TaskNode Node → TaskNode Node)
      (hf : ∀ t, (f t).id = t.id) (hstatus : ∀ t, (f t).status = t.status) :
      Subsides s (s'.setTask task.id f) :=
    h.trans (subsides_setTask s' task.id hf fun t ↦ .inl (hstatus t))
  unfold recordStop
  dsimp only
  by_cases hzero : retval = 0
  · rw [if_pos hzero]
    cases env.getTask task.name with
    | none => exact hstop.trans (subsides_abortTask _ _ _)
    | some method =>
      cases method with
      | text => exact hset hstop _ (fun _ ↦ rfl) fun _ ↦ rfl
      | xml =>
        dsimp only
        split
        · exact hset hstop _ (fun _ ↦ rfl) fun _ ↦ rfl
        · exact hstop.trans (subsides_abortTask _ _ _)
  · -- nothing is retried any more
    rw [if_neg hzero, if_pos]
    · refine hset (hset hstop _ ?_ ?_) _ ?_ ?_
      all_goals exact fun _ ↦ rfl
    · exact hcancel

/-- The ids of the active tasks. -/
def activeIds (s : WorkflowInstance Node) : List Nat :=
  (s.doc.tasks.filter TaskNode.active).map TaskNode.id

theorem mem_activeIds : id ∈ s.activeIds ↔ ∃ t ∈ s.doc.tasks, t.active = true ∧ t.id = id := by
  unfold activeIds
  simp only [List.mem_map, List.mem_filter, and_assoc]

theorem tasks_nodup (h : s.view.Inv k r) : (s.doc.tasks.map TaskNode.id).Nodup := by
  have hnodup := h.tasksNodup
  unfold view at hnodup
  rw [List.map_map] at hnodup
  exact hnodup

theorem nodup_activeIds (h : s.view.Inv k r) : s.activeIds.Nodup :=
  (tasks_nodup h).sublist (List.filter_sublist.map _)

theorem length_activeIds (h : s.view.Inv k r) : s.runningTally = (s.activeIds.length : Nat) + k := by
  have hrunning : s.runningTally = _ := h.running
  have hcount : s.view.tasks.countP TaskKey.active = s.doc.tasks.countP TaskNode.active := by
    show (s.doc.tasks.map TaskNode.key).countP TaskKey.active = _
    rw [List.countP_map]
    rfl
  rw [hrunning, hcount, List.countP_eq_length_filter]
  unfold activeIds
  rw [List.length_map]

/-- With the flag `run_subjobs` makes no task active: the active ones are kept, and their number, which
is the counter, does not grow. -/
theorem subsides_runSubjobs (env : Environment Node) (h : s.view.Inv k r)
    (hnot : job ∉ s.view.launched) (hbound : job < s.view.nextId)
    (hsuccess : job ≠ 0 → (∃ t ∈ s.view.tasks, t.job = job) ∧
      ∀ t ∈ s.view.tasks, t.job = job → t.successful = true) (hcancel : s.isCancelling = true) :
    Subsides s (runSubjobs env job s).1 := by
  have hinv := runSubjobs_inv env h hnot hbound hsuccess
  have hheld := ((extends_closed env s).runSubjobs job (Extends.refl s)).held hcancel
  have hkeep {t : TaskNode Node} (ht : t ∈ s.doc.tasks) (hactive : t.active = true) :
      (runSubjobs env job s).1.doc.task? t.id = some t := by
    rcases task?_of_mem h (List.mem_map_of_mem ht) with ⟨t', hfind, hkey⟩
    have hsame : t' = t :=
      List.inj_on_of_nodup_map (tasks_nodup h) (task?_spec hfind).1 ht (congrArg TaskKey.id hkey)
    subst hsame
    refine (runSubjobs_holding env h hnot hbound hsuccess ⟨hfind, ?_⟩).1
    intro hnone
    simp [TaskNode.active, hnone] at hactive
  generalize (runSubjobs env job s).1 = s' at hinv hheld hkeep
  have hsub : s.activeIds ⊆ s'.activeIds := by
    intro x hx
    rcases mem_activeIds.mp hx with ⟨t, ht, hactive, hid⟩
    exact mem_activeIds.mpr ⟨t, (task?_spec (hkeep ht hactive)).1, hactive, hid⟩
  have hlength : s'.activeIds.length ≤ s.activeIds.length := by
    have hrunning := length_activeIds h
    have hrunning' := length_activeIds hinv
    have hle := hheld.2.2.1
    omega
  have hperm := (List.subperm_of_subset (nodup_activeIds h) hsub).perm_of_length_le hlength
  intro t ht hactive
  rcases mem_activeIds.mp (hperm.mem_iff.mpr (mem_activeIds.mpr ⟨t, ht, hactive, rfl⟩)) with
    ⟨t', ht', hactive', hid⟩
  have hsame : t' = t :=
    List.inj_on_of_nodup_map (tasks_nodup hinv) (task?_spec (hkeep ht' hactive')).1 ht hid
  rw [← hsame]
  exact ⟨t', ht', rfl, rfl⟩

theorem subsides_taskStop (env : Environment Node) (h : s.view.Inv 0 0)
    (hfind : s.doc.task? id = some task) (hstatus : task.status = some .executing) (retval : Int)
    (output : String) (hcancel : s.isCancelling = true) :
    Subsides s (s.taskStop env id retval output).1 := by
  have hstop := subsides_recordStop env task retval output hcancel
  have hinv := recordStop_inv env h hfind hstatus retval output
  have hflag := (extends_recordStop env s task retval output).isCancelling
  have hlast {s' : WorkflowInstance Node} (hs' : s.recordStop env task retval output = s') :=
    recordStop_last env h hfind hstatus retval output hs'
  rw [hcancel] at hflag
  unfold taskStop
  rw [hfind]
  dsimp only
  generalize heq : s.recordStop env task retval output = s' at hstop hinv hflag
  split
  · rename_i hall
    have hready := hlast heq hall
    exact hstop.trans (subsides_runSubjobs env hinv hready.1 hready.2.1 (fun _ ↦ hready.2.2) hflag)
  · exact hstop

end WorkflowInstance

end EvQueue
