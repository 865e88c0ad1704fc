import EvQueue.WorkflowInstanceView

/-!
# WorkflowInstanceTasks — `run` keeps the invariant

`run` keeps the invariant of the view, whatever the environment answers, and touches only the tasks of
its job.  The tasks its loop still has to visit are part of what is kept: nothing has happened to them
yet.
-/

namespace EvQueue

variable {Node : Type}

def TaskNode.key (t : TaskNode Node) : TaskKey :=
  { id := t.id
    job := t.job
    status := t.status
    retval := t.retval }

namespace Event

def launched? : Event Node → Option Nat
  | .runSubjobs job => some job
  | _ => none

def isReady : Event Node → Bool
  | .enqueued _ ready => ready
  | _ => true

end Event

namespace Document

theorem task?_setTask {d : Document Node} {id : Nat} {f : TaskNode Node → TaskNode Node}
    (hf : ∀ t, (f t).id = t.id) (x : Nat) :
    (d.setTask id f).task? x = (d.task? x).map fun t ↦ if t.id = id then f t else t := by
  show (d.tasks.map fun t ↦ if t.id = id then f t else t).find? (fun t ↦ t.id = x) = _
  rw [List.find?_map]
  have hsame : ((fun t : TaskNode Node ↦ decide (t.id = x)) ∘
      fun t ↦ if t.id = id then f t else t) = fun t ↦ decide (t.id = x) := by
    funext t
    show decide ((if t.id = id then f t else t).id = x) = _
    by_cases heq : t.id = id
    · rw [if_pos heq, hf]
    · rw [if_neg heq]
  rw [hsame]
  rfl

theorem task?_setTask_of_ne {d : Document Node} {id x : Nat} {f : TaskNode Node → TaskNode Node}
    (hf : ∀ t, (f t).id = t.id) (hne : x ≠ id) : (d.setTask id f).task? x = d.task? x := by
  rw [task?_setTask hf]
  cases hfind : d.task? x with
  | none => rfl
  | some t =>
    have hid : t.id = x := by simpa using List.find?_some hfind
    rw [Option.map_some, if_neg (by rw [hid]; exact hne)]

end Document

namespace WorkflowInstance

def view (s : WorkflowInstance Node) : View :=
  { jobs := s.doc.jobs.map fun j ↦ (j.id, j.parent)
    tasks := s.doc.tasks.map TaskNode.key
    nextId := s.doc.nextId
    running := s.runningTally
    retrying := s.retryingTally
    queued := s.queued
    retrier := s.retrier
    launched := s.trace.filterMap Event.launched?
    ready := s.trace.all Event.isReady }

variable {env : Environment Node} {s s' : WorkflowInstance Node} {context : Context Node}
variable {k r : Int} {id job : Nat} {task : TaskNode Node}

/-! ## The view of the elementary changes -/

theorem view_setTask {f : TaskNode Node → TaskNode Node} {g : TaskKey → TaskKey}
    (h : ∀ t, (f t).key = g t.key) : (s.setTask id f).view = s.view.setTask id g := by
  have htasks : (s.doc.setTask id f).tasks.map TaskNode.key =
      (s.doc.tasks.map TaskNode.key).map fun t ↦ if t.id = id then g t else t := by
    unfold Document.setTask
    rw [List.map_map, List.map_map]
    apply List.map_congr_left
    intro t _
    show (if t.id = id then f t else t).key = if t.id = id then g t.key else t.key
    by_cases hid : t.id = id
    · rw [if_pos hid, if_pos hid, h]
    · rw [if_neg hid, if_neg hid]
  unfold view View.setTask
  show { view s with tasks := (s.doc.setTask id f).tasks.map TaskNode.key } = _
  rw [htasks]
  rfl

theorem view_setTask_same {f : TaskNode Node → TaskNode Node} (h : ∀ t, (f t).key = t.key) :
    (s.setTask id f).view = s.view := by
  rw [view_setTask (g := fun t ↦ t) h]
  unfold View.setTask
  have htasks : (s.view.tasks.map fun t ↦ if t.id = id then t else t) = s.view.tasks := by
    rw [List.map_congr_left (g := fun t ↦ t), List.map_id']
    intro t _
    by_cases hid : t.id = id
    · rw [if_pos hid]
    · rw [if_neg hid]
  rw [htasks]

theorem view_setJob {f : JobNode → JobNode} (h : ∀ j, (f j).id = j.id ∧ (f j).parent = j.parent) :
    (s.setJob id f).view = s.view := by
  have hjobs : (s.doc.setJob id f).jobs.map (fun j ↦ (j.id, j.parent)) =
      s.doc.jobs.map fun j ↦ (j.id, j.parent) := by
    unfold Document.setJob
    rw [List.map_map]
    apply List.map_congr_left
    intro j _
    show ((if j.id = id then f j else j).id, (if j.id = id then f j else j).parent) = _
    by_cases hid : j.id = id
    · rw [if_pos hid, (h j).1, (h j).2]
    · rw [if_neg hid]
  show { view s with
    jobs := (s.doc.setJob id f).jobs.map fun j : JobNode ↦ (j.id, j.parent) } = _
  rw [hjobs]
  rfl

theorem view_log (e : Event Node) : (s.log e).view = { s.view with
    launched := s.view.launched ++ e.launched?.toList
    ready := s.view.ready && e.isReady } := by
  unfold view log
  simp only [List.filterMap_append, List.all_append, List.filterMap_cons, List.filterMap_nil,
    List.all_cons, List.all_nil, Bool.and_true]
  cases e <;> rfl

/-- Most events are not looked at. -/
theorem view_log_same {e : Event Node} (hlaunched : e.launched? = none) (hready : e.isReady = true) :
    (s.log e).view = s.view := by
  rw [view_log, hlaunched, hready]
  simp

theorem view_failJob (error : String) : (s.failJob id error).view = s.view := by
  unfold failJob
  show { (s.setJob id _) with errorTally := _ }.view = _
  apply view_setJob
  intro j
  exact ⟨rfl, rfl⟩

theorem task?_spec (h : s.doc.task? id = some task) : task ∈ s.doc.tasks ∧ task.id = id := by
  have hid := List.find?_some h
  exact ⟨List.mem_of_find?_eq_some h, by simpa using hid⟩

theorem key_mem (h : s.doc.task? id = some task) : task.key ∈ s.view.tasks :=
  List.mem_map_of_mem (task?_spec h).1

/-- A task of the view is found in the document. -/
theorem task?_of_mem {t : TaskKey} (h : s.view.Inv k r) (ht : t ∈ s.view.tasks) :
    ∃ task, s.doc.task? t.id = some task ∧ task.key = t := by
  cases hfind : s.doc.task? t.id with
  | none =>
    rcases List.mem_map.mp ht with ⟨task, hin, hkey⟩
    have hno := List.find?_eq_none.mp hfind task hin
    rw [← hkey] at hno
    simp [TaskNode.key] at hno
  | some task =>
    exact ⟨task, rfl, h.task_unique (key_mem hfind) ht (task?_spec hfind).2⟩

theorem view_abortTask (error : String) :
    (s.abortTask id error).view = s.view.setTask id (TaskKey.setStatus .aborted) := by
  unfold abortTask
  show (s.setTask id _).view = _
  apply view_setTask
  intro t
  rfl

/-! ## Values and retry parameters -/

theorem view_replaceValue (env : Environment Node) (context : Context Node) (id : Nat) :
    (replaceValue env id context s).1.view = s.view := by
  apply replaceValue_induction env (P := fun s' ↦ s'.view = s.view)
  · intro s' content h
    rw [view_setTask_same, h]
    exact fun _ ↦ rfl
  · rfl

theorem view_scheduleUpdate (task : TaskNode Node) (scheduleName : String) (retry : Int × Int) :
    (s.scheduleUpdate task scheduleName retry).1.view = s.view := by
  unfold scheduleUpdate
  cases s.doc.schedules scheduleName with
  | none => rfl
  | some levels =>
    dsimp only
    split
    · exact view_setTask_same fun t ↦ rfl
    · rw [view_setTask_same, view_setTask_same]
      · intro t
        rfl
      · intro t
        rfl

theorem view_retryParameters {retry : Int × Int}
    (h : s.retryParameters env task = some (s', retry)) : s'.view = s.view := by
  unfold retryParameters at h
  split at h
  · rw [Option.some.injEq] at h
    have hview := view_scheduleUpdate (s := s) task ‹String› env.uninitialised
    rw [h] at hview
    exact hview
  · split at h
    · simp only [Option.some.injEq, Prod.mk.injEq] at h
      rw [h.1]
    · cases h

theorem view_nextLevel (task : TaskNode Node) (retry : Int × Int) :
    (s.nextLevel task retry).1.view = s.view := by
  unfold nextLevel
  cases task.retrySchedule with
  | none => rfl
  | some scheduleName =>
    dsimp only
    by_cases hend : retry.2 = 0
    · rw [if_pos hend]
      exact view_scheduleUpdate task scheduleName retry
    · rw [if_neg hend]

/-! ## A task is enqueued -/

theorem enqueueTask_keeps (env : Environment Node) {t : TaskKey} (h : s.view.Inv k r)
    (ht : s.view.Startable t) :
    (s.enqueueTask env t.id).view.Inv k r ∧
      View.Frame (fun x ↦ x.id = t.id ∧ x.job = t.job) s.view (s.enqueueTask env t.id).view := by
  have hframe (status : TaskStatus) :=
    h.frame_setTask ht.mem (TaskKey.setStatus status) (fun _ ↦ rfl) fun _ ↦ rfl
  rcases enqueueTask_cases env s t.id with heq | ⟨error, heq⟩ | heq
  · rw [heq]
    exact ⟨h, View.Frame.refl _ _⟩
  · rw [heq, view_abortTask]
    exact ⟨h.abort ht, hframe .aborted⟩
  · have hview : (s.enqueueTask env t.id).view =
        { s.view.setTask t.id (TaskKey.setStatus .queued) with
          running := s.view.running + 1
          queued := s.view.queued ++ [t.id] } := by
      rw [heq]
      show { (s.setTask t.id _).view with
        running := s.view.running + 1
        queued := s.view.queued ++ [t.id] } = _
      rw [view_setTask (g := TaskKey.setStatus .queued) fun _ ↦ rfl]
    have hqueued := hframe .queued
    rw [hview]
    exact ⟨h.enqueue ht, hqueued.jobs, hqueued.launched, hqueued.nextId, hqueued.tasks⟩

/-- The tasks of the parent of a job are successful once the parent was launched. -/
theorem parentSuccessful_eq (h : s.view.Inv k r) {parent : Nat} (hjob : (job, parent) ∈ s.view.jobs)
    (hparent : parent ∈ s.view.launched) : s.doc.parentSuccessful job = true := by
  unfold Document.parentSuccessful
  rcases List.mem_map.mp hjob with ⟨j, hj, heq⟩
  have hid : j.id = job := congrArg Prod.fst heq
  cases hfind : s.doc.job? job with
  | none =>
    have hno := List.find?_eq_none.mp hfind j hj
    simp [hid] at hno
  | some j' =>
    have hin : (j'.id, j'.parent) ∈ s.view.jobs :=
      List.mem_map.mpr ⟨j', List.mem_of_find?_eq_some hfind, rfl⟩
    have hid' : j'.id = job := by simpa using List.find?_some hfind
    rw [hid'] at hin
    have hsame : j'.parent = parent := h.parent_unique hin hjob
    dsimp only
    rw [hsame, List.all_eq_true]
    intro t ht
    rcases List.mem_filter.mp ht with ⟨ht, htjob⟩
    have htjob : t.job = parent := by simpa using htjob
    have hkey : t.key ∈ s.view.tasks := List.mem_map_of_mem ht
    have hpos : parent ≠ 0 := by
      have hbound := (h.tasksBound t.key hkey).2.1
      rw [← htjob]
      exact hbound
    exact (h.launched parent hparent hpos).2 t.key hkey htjob

theorem startTask_keeps (env : Environment Node) (h : s.view.Inv k r) (ht : task.key ∈ s.view.tasks)
    (hnone : task.status = none) {parent : Nat} (hjob : (task.job, parent) ∈ s.view.jobs)
    (hparent : parent ∈ s.view.launched) :
    (s.startTask env task).view.Inv k r ∧
      View.Frame (fun x ↦ x.id = task.id ∧ x.job = task.job) s.view (s.startTask env task).view := by
  have hlog : (s.log (.enqueued task.id (s.doc.parentSuccessful task.job))).view = s.view := by
    apply view_log_same
    · rfl
    · exact parentSuccessful_eq h hjob hparent
  have hstart := h.startable_of_none ht hnone hjob hparent
  unfold startTask
  have hkeep := enqueueTask_keeps (s := s.log _) env (hlog ▸ h) (hlog ▸ hstart)
  rw [hlog] at hkeep
  exact hkeep

/-! ## `run` -/

/-- Before the tasks `rest` of a job: `v` was reached from `first`, and nothing has happened to them. -/
structure Visiting (k r : Int) (job : Nat) (first : View) (rest : List Nat) (v : View) : Prop where
  inv : v.Inv k r
  frame : View.Frame (fun x ↦ x.job = job) first v
  nodup : rest.Nodup
  bound : ∀ id ∈ rest, id < v.nextId
  untouched : ∀ t ∈ v.tasks, t.id ∈ rest → t.job = job ∧ t.status = none

variable {first v v' : View} {rest : List Nat} {id : Nat}

theorem Visiting.tail (h : Visiting k r job first (id :: rest) v) : Visiting k r job first rest v :=
  { h with
    nodup := (List.nodup_cons.mp h.nodup).2
    bound := fun x hx ↦ h.bound x (List.mem_cons_of_mem _ hx)
    untouched := fun t ht hx ↦ h.untouched t ht (List.mem_cons_of_mem _ hx) }

/-- A call that changes one task of the job leaves those still to be visited alone. -/
theorem Visiting.change (h : Visiting k r job first rest v) (hid : id ∉ rest) (hinv : v'.Inv k r)
    (hframe : View.Frame (fun x ↦ x.id = id ∧ x.job = job) v v') : Visiting k r job first rest v' := by
  constructor
  case inv => exact hinv
  case frame => exact h.frame.trans (hframe.mono fun x hx ↦ hx.2)
  case nodup => exact h.nodup
  case bound => exact fun x hx ↦ Nat.lt_of_lt_of_le (h.bound x hx) hframe.nextId
  case untouched =>
    intro t ht hx
    apply h.untouched t _ hx
    apply (hframe.tasks t _).mp ht
    intro hsame
    rw [hsame.1] at hx
    exact hid hx

/-- The task that is visited, when it is still there. -/
theorem Visiting.found (h : Visiting k r job first (id :: rest) s.view)
    (hfind : s.doc.task? id = some task) :
    task.key ∈ s.view.tasks ∧ task.id = id ∧ task.job = job ∧ task.status = none := by
  have hspec := task?_spec hfind
  have hkey := key_mem hfind
  have huntouched := h.untouched task.key hkey (by
    show task.id ∈ id :: rest
    rw [hspec.2]
    exact List.mem_cons_self)
  exact ⟨hkey, hspec.2, huntouched.1, huntouched.2⟩

variable {parent : Nat}

theorem Visiting.startTask (env : Environment Node) (h : Visiting k r job first rest s.view)
    (hjob : (job, parent) ∈ first.jobs) (hparent : parent ∈ first.launched)
    (ht : task.key ∈ s.view.tasks) (htjob : task.job = job) (hnone : task.status = none)
    (hid : task.id ∉ rest) : Visiting k r job first rest (s.startTask env task).view := by
  rw [← h.frame.jobs, ← htjob] at hjob
  rw [← h.frame.launched] at hparent
  have hkeep := startTask_keeps env h.inv ht hnone hjob hparent
  rw [htjob] at hkeep
  exact h.change hid hkeep.1 hkeep.2

theorem Visiting.startable (h : Visiting k r job first rest v) (hjob : (job, parent) ∈ first.jobs)
    (hparent : parent ∈ first.launched) {t : TaskKey} (ht : t ∈ v.tasks) (htjob : t.job = job)
    (hnone : t.status = none) : v.Startable t := by
  rw [← h.frame.jobs, ← htjob] at hjob
  rw [← h.frame.launched] at hparent
  exact h.inv.startable_of_none ht hnone hjob hparent

theorem Visiting.abort (h : Visiting k r job first rest v) (hjob : (job, parent) ∈ first.jobs)
    (hparent : parent ∈ first.launched) {t : TaskKey} (ht : t ∈ v.tasks) (htjob : t.job = job)
    (hnone : t.status = none) :
    (v.setTask t.id (TaskKey.setStatus .aborted)).Inv k r ∧
      View.Frame (fun x ↦ x.job = job) first (v.setTask t.id (TaskKey.setStatus .aborted)) := by
  have hframe := h.inv.frame_setTask ht (TaskKey.setStatus .aborted) (fun _ ↦ rfl) fun _ ↦ rfl
  constructor
  · exact h.inv.abort (h.startable hjob hparent ht htjob hnone)
  · apply h.frame.trans
    apply hframe.mono
    intro x hx
    rw [← htjob]
    exact hx.2

/-- A visit leaves the other tasks as they are, and before an expansion the looped task, too. -/
theorem visitTask_keeps (env : Environment Node) (context : Context Node)
    (h : Visiting k r job first (id :: rest) s.view) (hjob : (job, parent) ∈ first.jobs)
    (hparent : parent ∈ first.launched) :
    match visitTask env context id s with
    | .done s' => Visiting k r job first rest s'.view
    | .failed s' _ => s'.view.Inv k r ∧ View.Frame (fun x ↦ x.job = job) first s'.view
    | .matched s' _ => Visiting k r job first (id :: rest) s'.view := by
  have hnotin := (List.nodup_cons.mp h.nodup).1
  unfold visitTask
  cases hfind : s.doc.task? id with
  | none => exact h.tail
  | some task =>
    have htask := h.found hfind
    dsimp only
    rw [if_neg (by simp [htask.2.2.2])]
    cases task.loop with
    | some loopXpath =>
      have hloop : (s.setTask id fun t ↦ { t with loop := none }).view = s.view :=
        view_setTask_same fun t ↦ rfl
      dsimp only
      generalize (s.setTask id fun t ↦ { t with loop := none }) = s' at hloop
      cases env.evaluate s'.doc context loopXpath with
      | none =>
        -- the loop expression is wrong: the task is aborted
        dsimp only
        rw [view_setTask (g := TaskKey.setStatus .aborted) fun _ ↦ rfl, hloop, ← htask.2.1]
        exact h.tail.abort hjob hparent htask.1 htask.2.2.1 htask.2.2.2
      | some nodes =>
        dsimp only
        rw [view_log_same rfl rfl, hloop]
        exact h
    | none =>
      have hvalue := view_replaceValue (s := s) env context id
      dsimp only
      rcases hrun : replaceValue env id context s with ⟨s', _ | e⟩
      · rw [hrun] at hvalue
        rw [← hvalue] at h htask
        apply h.tail.startTask env hjob hparent htask.1 htask.2.2.1 htask.2.2.2
        rw [htask.2.1]
        exact hnotin
      · rw [hrun] at hvalue
        dsimp only at hvalue ⊢
        rw [hvalue]
        exact ⟨h.inv, h.frame⟩

/-- A clone is a new task, which nothing has happened to. -/
theorem Visiting.cloneTask (h : Visiting k r job first rest s.view) (hjob : task.job = job)
    (hkey : task.key ∈ s.view.tasks) (hnone : task.status = none) :
    Visiting k r job first rest { s with doc := s.doc.cloneTask task }.view := by
  have hview : { s with doc := s.doc.cloneTask task }.view = { s.view with
      jobs := s.view.jobs ++ []
      tasks := s.view.tasks ++ [{ task.key with id := s.doc.nextId }]
      nextId := s.view.nextId + 1 } := by
    rw [List.append_nil]
    unfold view Document.cloneTask
    rw [List.map_append]
    rfl
  have hbound := h.inv.tasksBound task.key hkey
  have hlaunched : task.key.job ∉ s.view.launched := by
    apply h.inv.not_launched hkey
    simp [TaskKey.successful, TaskNode.key, hnone]
  rw [hview]
  constructor
  case inv =>
    apply h.inv.append
    · omega
    · exact List.nodup_nil
    · exact fun _ hj ↦ absurd hj List.not_mem_nil
    · exact List.nodup_singleton _
    · intro t ht
      rw [List.mem_singleton.mp ht]
      show s.view.nextId ≤ s.view.nextId ∧ s.view.nextId < s.view.nextId + 1 ∧
        task.key.job < s.view.nextId + 1 ∧ task.key.job ≠ 0
      omega
    · intro t ht
      rw [List.mem_singleton.mp ht]
      exact ⟨hnone, hlaunched⟩
  case frame =>
    apply h.frame.trans
    refine ⟨List.append_nil _, rfl, Nat.le_succ _, ?_⟩
    intro t ht
    rw [List.mem_append, List.mem_singleton]
    constructor
    · intro hin
      rcases hin with hin | heq
      · exact hin
      · rw [heq] at ht
        exact absurd hjob ht
    · exact .inl
  case nodup => exact h.nodup
  case bound => exact fun x hx ↦ Nat.lt_succ_of_lt (h.bound x hx)
  case untouched =>
    intro t ht hx
    rcases List.mem_append.mp ht with ht | ht
    · exact h.untouched t ht hx
    · rw [List.mem_singleton.mp ht]
      exact ⟨hjob, hnone⟩

theorem expandTask_keeps (env : Environment Node) (node : Node)
    (h : Visiting k r job first (id :: rest) s.view) (hjob : (job, parent) ∈ first.jobs)
    (hparent : parent ∈ first.launched) :
    Visiting k r job first (id :: rest) (expandTask env id node s).1.view := by
  unfold expandTask
  cases hfind : s.doc.task? id with
  | none => exact h
  | some task =>
    have htask := h.found hfind
    have hclone := h.cloneTask htask.2.2.1 htask.1 htask.2.2.2
    have hfresh : s.doc.nextId ∉ id :: rest := by
      intro hin
      exact absurd (h.bound _ hin) (Nat.lt_irrefl _)
    dsimp only
    generalize hlog : ({ s with doc := s.doc.cloneTask task }.log
      (.taskCloned id s.doc.nextId node)) = s'
    have hview : s'.view = { s with doc := s.doc.cloneTask task }.view := by
      rw [← hlog]
      exact view_log_same rfl rfl
    rw [← hview] at hclone
    have hmem : { task with id := s.doc.nextId }.key ∈ s'.view.tasks := by
      rw [hview]
      apply List.mem_map_of_mem
      exact List.mem_append_right _ (List.mem_singleton.mpr rfl)
    have hvalue := view_replaceValue (s := s') env (.matched node) s.doc.nextId
    rcases hrun : replaceValue env s.doc.nextId (.matched node) s' with ⟨t, _ | e⟩
    · rw [hrun] at hvalue
      rw [← hvalue] at hclone hmem
      exact hclone.startTask env hjob hparent hmem htask.2.2.1 htask.2.2.2 hfresh
    · rw [hrun] at hvalue
      dsimp only at hvalue ⊢
      rw [hvalue]
      exact hclone

theorem removeTask_keeps (h : Visiting k r job first (id :: rest) s.view) :
    Visiting k r job first rest { s with doc := s.doc.removeTask id }.view := by
  have hview : { s with doc := s.doc.removeTask id }.view = { s.view with
      jobs := s.view.jobs
      tasks := s.view.tasks.filter fun t ↦ t.id ≠ id } := by
    unfold view Document.removeTask
    rw [List.filter_map]
    rfl
  rw [hview]
  constructor
  case inv =>
    apply h.inv.filter
    · exact List.Sublist.refl _
    · intro t ht
      by_cases hid : t.id = id
      · apply Or.inr
        apply (h.untouched t ht _).2
        rw [hid]
        exact List.mem_cons_self
      · exact .inl (decide_eq_true hid)
  case frame =>
    apply h.frame.trans
    refine ⟨rfl, rfl, Nat.le_refl _, ?_⟩
    intro t ht
    rw [List.mem_filter]
    constructor
    · exact And.left
    · intro hin
      refine ⟨hin, decide_eq_true ?_⟩
      intro hid
      apply ht
      apply (h.untouched t hin _).1
      rw [hid]
      exact List.mem_cons_self
  case nodup => exact h.tail.nodup
  case bound => exact h.tail.bound
  case untouched =>
    intro t ht hx
    exact h.tail.untouched t (List.mem_of_mem_filter ht) hx

/-- The tasks still to be visited are the invariant of the loop of `run`. -/
theorem taskLoop_keeps (env : Environment Node) (context : Context Node)
    (hjob : (job, parent) ∈ first.jobs) (hparent : parent ∈ first.launched) :
    SnapshotLoop.Keeps (taskLoop env context)
      (fun rest s ↦ Visiting k r job first rest s.view)
      (fun id rest s ↦ Visiting k r job first (id :: rest) s.view)
      (fun s ↦ s.view.Inv k r ∧ View.Frame (fun x ↦ x.job = job) first s.view) := by
  constructor
  case done =>
    intro id rest s s' h hvisit
    have hkeep := visitTask_keeps env context h hjob hparent
    rw [show visitTask env context id s = _ from hvisit] at hkeep
    exact hkeep
  case failed =>
    intro id rest s s' e h hvisit
    have hkeep := visitTask_keeps env context h hjob hparent
    rw [show visitTask env context id s = _ from hvisit] at hkeep
    exact hkeep
  case matched =>
    intro id rest s s' nodes h hvisit
    have hkeep := visitTask_keeps env context h hjob hparent
    rw [show visitTask env context id s = _ from hvisit] at hkeep
    exact hkeep
  case expand =>
    intro id rest node s s' h hexpand
    have hkeep := expandTask_keeps env node h hjob hparent
    rw [show expandTask env id node s = _ from hexpand] at hkeep
    exact hkeep
  case expandFailed =>
    intro id rest node s s' e h hexpand
    have hkeep := expandTask_keeps env node h hjob hparent
    rw [show expandTask env id node s = _ from hexpand] at hkeep
    exact ⟨hkeep.inv, hkeep.frame⟩
  case finish =>
    intro id rest s h
    exact removeTask_keeps h

/-- `run` of a job whose parent was launched, and that nothing has happened to, keeps the invariant and
touches only the tasks of the job. -/
theorem run_keeps (env : Environment Node) (context : Context Node) (h : s.view.Inv k r)
    (hjob : (job, parent) ∈ s.view.jobs) (hparent : parent ∈ s.view.launched)
    (hnone : ∀ t ∈ s.view.tasks, t.job = job → t.status = none) :
    (run env job context s).1.view.Inv k r ∧
      View.Frame (fun x ↦ x.job = job) s.view (run env job context s).1.view := by
  have hids : (s.doc.tasksOf job).map TaskNode.id =
      (s.view.tasks.filter fun t ↦ t.job = job).map TaskKey.id := by
    show _ = ((s.doc.tasks.map TaskNode.key).filter fun t ↦ t.job = job).map TaskKey.id
    rw [List.filter_map, List.map_map]
    rfl
  have hlog : (s.log (.run job)).view = s.view := view_log_same rfl rfl
  have hstart : Visiting k r job s.view ((s.doc.tasksOf job).map TaskNode.id)
      (s.log (.run job)).view := by
    rw [hlog, hids]
    constructor
    case inv => exact h
    case frame => exact View.Frame.refl _ _
    case nodup => exact h.tasksNodup.sublist (List.filter_sublist.map _)
    case bound =>
      intro x hx
      rcases List.mem_map.mp hx with ⟨t, ht, hid⟩
      rw [← hid]
      exact (h.tasksBound t (List.mem_of_mem_filter ht)).1
    case untouched =>
      intro t ht hx
      rcases List.mem_map.mp hx with ⟨t', ht', hid⟩
      rcases List.mem_filter.mp ht' with ⟨ht', hin⟩
      rw [h.task_unique ht' ht hid] at hin
      have hin : t.job = job := of_decide_eq_true hin
      exact ⟨hin, hnone t ht hin⟩
  unfold run
  rcases hrun : SnapshotLoop.iterate (taskLoop env context) SnapshotLoop.readOn
    ((s.doc.tasksOf job).map TaskNode.id) 0 (s.log (.run job)) with ⟨s', e⟩
  have hkeep := (taskLoop_keeps env context hjob hparent).iterate hstart hrun
  cases e with
  | none => exact ⟨(hkeep.1 rfl).inv, (hkeep.1 rfl).frame⟩
  | some e => exact hkeep.2 (by simp)

end WorkflowInstance

end EvQueue
