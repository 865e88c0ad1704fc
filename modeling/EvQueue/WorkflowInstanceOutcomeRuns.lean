import EvQueue.WorkflowInstanceEnds
import EvQueue.WorkflowInstanceOutcome

/-!
# WorkflowInstanceOutcomeRuns — every run comes to the same outcome

The instance is followed through a function that tells where each task stands.  A call for a task moves this
task on along its course, and a launch begins the courses of the tasks of the subjobs, whichever other tasks
are under way.
-/

namespace EvQueue

open Runs

variable {Node : Type}

namespace WorkflowInstance

variable {env : Environment Node} {results : Nat → Nat → Int × String} {doc : Document Node}
variable {standings : Nat → Standing Node} {s s' : WorkflowInstance Node} {e : Standing Node}
variable {t : TaskNode Node} {context : Context Node} {id job : Nat} {position : Nat}

/-- Where the tasks of the document stand, in a run that begins with `doc`. -/
structure Tracks (env : Environment Node) (results : Nat → Nat → Int × String) (doc : Document Node)
    (standings : Nat → Standing Node) (s : WorkflowInstance Node) : Prop where
  jobs : s.doc.jobs = doc.jobs
  ids : s.doc.tasks.map TaskNode.id = doc.tasks.map TaskNode.id
  nextId : s.doc.nextId = doc.nextId
  schedules : s.doc.schedules = doc.schedules
  isCancelling : s.isCancelling = false
  task : ∀ t ∈ doc.tasks, s.doc.task? t.id = some (standings t.id).task
  waits : ∀ t ∈ doc.tasks, (t.id ∈ s.retrier ↔ (standings t.id).waits = true)
  course : ∀ t ∈ doc.tasks, Standing.Course env doc.schedules results t (standings t.id)
  errors : s.errorTally = (doc.tasks.countP fun t ↦ (standings t.id).failed : Nat)

theorem task_unique (hdoc : doc.WellFormed) {t t' : TaskNode Node} (ht : t ∈ doc.tasks)
    (ht' : t' ∈ doc.tasks) (hid : t.id = t'.id) : t = t' :=
  List.inj_on_of_nodup_map hdoc.tasksNodup ht ht' hid

/-- A call moves the task it is made for on along its course. -/
theorem Tracks.acts (hdoc : doc.WellFormed) (h : Tracks env results doc standings s) (ht : t ∈ doc.tasks)
    (hacts : Acts t.id e s s') (hcourse : Standing.Course env doc.schedules results t e)
    (hnot : (standings t.id).failed = false) :
    Tracks env results doc (Function.update standings t.id e) s' := by
  constructor
  case jobs => exact hacts.task.jobs.trans h.jobs
  case ids => exact hacts.task.ids.trans h.ids
  case nextId => exact hacts.task.nextId.trans h.nextId
  case schedules => exact hacts.task.schedules.trans h.schedules
  case isCancelling => exact hacts.isCancelling.trans h.isCancelling
  case task =>
    intro x hx
    by_cases hid : x.id = t.id
    · rw [hid, Function.update_self]
      exact hacts.task.task
    · rw [Function.update_of_ne hid, hacts.task.others x.id hid]
      exact h.task x hx
  case waits =>
    intro x hx
    by_cases hid : x.id = t.id
    · rw [hid, Function.update_self]
      exact hacts.waits
    · rw [Function.update_of_ne hid, hacts.others x.id hid]
      exact h.waits x hx
  case course =>
    intro x hx
    by_cases hid : x.id = t.id
    · rw [task_unique hdoc hx ht hid, Function.update_self]
      exact hcourse
    · rw [Function.update_of_ne hid]
      exact h.course x hx
  case errors =>
    have hone := countP_of_differ (p := fun x : TaskNode Node ↦ (standings x.id).failed)
      (q := fun x : TaskNode Node ↦ (Function.update standings t.id e x.id).failed)
      (List.Nodup.of_map _ hdoc.tasksNodup) ht (fun x hx hne ↦ by
        rw [Function.update_of_ne fun hid ↦ hne (task_unique hdoc hx ht hid)]) hnot
    rw [Function.update_self] at hone
    rw [hacts.errors, h.errors, hone, Nat.cast_add]

/-- What is logged does not matter. -/
theorem Tracks.log (h : Tracks env results doc standings s) (event : Event Node) :
    Tracks env results doc standings (s.log event) :=
  ⟨h.jobs, h.ids, h.nextId, h.schedules, h.isCancelling, h.task, h.waits, h.course, h.errors⟩

/-! ## Launches -/

/-- An input that is not computed. -/
def Given (c : Content Node) : Prop := ∀ select, c ≠ .value select ∧ c ≠ .copy select

theorem replaceValues_given (env : Environment Node) (context : Context Node) (id : Nat)
    {rest : List (Content Node)} (h : ∀ c ∈ rest, Given c) (done : List (Content Node))
    (s : WorkflowInstance Node) : replaceValues env context id done rest s = (s, none) := by
  induction rest generalizing done with
  | nil => rfl
  | cons c rest ih =>
    have hrest := ih fun c hc ↦ h c (List.mem_cons_of_mem _ hc)
    cases c with
    | value select => exact absurd rfl (h _ List.mem_cons_self select).1
    | text text => exact hrest _
    | copy select => exact hrest _
    | node node => exact hrest _

theorem replaceCopies_given (env : Environment Node) (context : Context Node) (id : Nat)
    {rest : List (Content Node)} (h : ∀ c ∈ rest, Given c) (done : List (Content Node))
    (s : WorkflowInstance Node) : replaceCopies env context id done rest s = (s, none) := by
  induction rest generalizing done with
  | nil => rfl
  | cons c rest ih =>
    have hrest := ih fun c hc ↦ h c (List.mem_cons_of_mem _ hc)
    cases c with
    | copy select => exact absurd rfl (h _ List.mem_cons_self select).2
    | text text => exact hrest _
    | value select => exact hrest _
    | node node => exact hrest _

/-- A task without a loop and without computed inputs is started as it is. -/
theorem visitTask_plain (env : Environment Node) (context : Context Node)
    (hfind : s.doc.task? id = some t) (hstatus : t.status = none) (hloop : t.loop = none)
    (hcontent : ∀ c ∈ t.content, Given c) :
    visitTask env context id s = .done (s.startTask env t) := by
  have hvalue : replaceValue env id context s = (s, none) := by
    unfold replaceValue
    rw [hfind]
    dsimp only
    rw [replaceValues_given env context id hcontent]
    dsimp only
    rw [hfind]
    exact replaceCopies_given env context id hcontent [] s
  unfold visitTask
  rw [hfind]
  dsimp only
  rw [if_neg (by rw [hstatus]; exact nofun), hloop, hvalue]

theorem launched_startTask (env : Environment Node) (s : WorkflowInstance Node) (t : TaskNode Node) :
    (s.startTask env t).view.launched = s.view.launched := by
  have h : Edits env (fun _ ↦ False) s (s.startTask env t) := startTask_edits t .refl
  exact h.launched

theorem Tracks.startTask (hdoc : doc.WellFormed) (h : Tracks env results doc standings s)
    (ht : t ∈ doc.tasks) (hfresh : standings t.id = .fresh t) :
    Tracks env results doc (Function.update standings t.id (t.enqueue env false))
      (s.startTask env t) := by
  have hlog := h.log (.enqueued t.id (s.doc.parentSuccessful t.job))
  have hfind := hlog.task t ht
  have hout : t.id ∉ s.retrier := by
    rw [h.waits t ht, hfresh]
    exact Bool.false_ne_true
  rw [hfresh] at hfind
  have hacts := acts_enqueueTask (s := s.log (.enqueued t.id (s.doc.parentSuccessful t.job))) env hfind hout
  rw [hlog.isCancelling] at hacts
  exact hlog.acts hdoc ht hacts (.inr .refl) (by rw [hfresh]; rfl)

/-- The tasks of the snapshot are started one after the other. -/
theorem Tracks.iterateTasks (hdoc : doc.WellFormed) (hplain : doc.Plain) (context : Context Node)
    {xs : List Nat} (h : Tracks env results doc standings s) (hnodup : xs.Nodup)
    (hxs : ∀ x ∈ xs, ∃ t ∈ doc.tasks, t.id = x ∧ standings x = .fresh t) (position : Nat) :
    ∃ standings' s', SnapshotLoop.iterate (taskLoop env context) SnapshotLoop.readOn xs position s =
        (s', none) ∧ Tracks env results doc standings' s' ∧ s'.view.launched = s.view.launched ∧
      ∀ t ∈ doc.tasks, standings' t.id =
        if t.id ∈ xs then t.enqueue env false else standings t.id := by
  induction xs generalizing standings s with
  | nil => exact ⟨standings, s, rfl, h, rfl, fun t _ ↦ (if_neg List.not_mem_nil).symm⟩
  | cons x xs ih =>
    rcases hxs x List.mem_cons_self with ⟨t, ht, htid, hfresh⟩
    subst htid
    have hfind := h.task t ht
    rw [hfresh] at hfind
    have hvisit := visitTask_plain env context hfind (hdoc.noStatus t ht) (hplain.tasks t ht).1
      (hplain.tasks t ht).2
    have hrest : ∀ y ∈ xs, ∃ t' ∈ doc.tasks, t'.id = y ∧
        Function.update standings t.id (t.enqueue env false) y = .fresh t' := by
      intro y hy
      rcases hxs y (List.mem_cons_of_mem _ hy) with ⟨t', ht', hid, hfresh'⟩
      refine ⟨t', ht', hid, ?_⟩
      have hne : y ≠ t.id := fun heq ↦ (List.nodup_cons.mp hnodup).1 (heq ▸ hy)
      rw [Function.update_of_ne hne]
      exact hfresh'
    rcases ih (h.startTask hdoc ht hfresh) (List.nodup_cons.mp hnodup).2 hrest with
      ⟨standings', s', hrun, htracks, hlaunched, hstandings⟩
    refine ⟨standings', s', ?_, htracks, hlaunched.trans (launched_startTask env s t), ?_⟩
    · unfold SnapshotLoop.iterate
      rw [show (taskLoop env context).visit t.id s = _ from hvisit]
      exact hrun
    · intro t' ht'
      rw [hstandings t' ht']
      by_cases hid : t'.id = t.id
      · have hsame := task_unique hdoc ht' ht hid
        subst hsame
        rw [if_neg (List.nodup_cons.mp hnodup).1, Function.update_self, if_pos List.mem_cons_self]
      · rw [Function.update_of_ne hid]
        simp only [List.mem_cons, hid, false_or]

/-- The document has the tasks of each job that it began with. -/
theorem Tracks.mem_tasksOf (hdoc : doc.WellFormed) (h : Tracks env results doc standings s) (x : Nat) :
    x ∈ (s.doc.tasksOf job).map TaskNode.id ↔ ∃ t ∈ doc.tasks, t.id = x ∧ t.job = job := by
  have hnodup : (s.doc.tasks.map TaskNode.id).Nodup := by
    rw [h.ids]
    exact hdoc.tasksNodup
  -- a task of the document and the one it was
  have hsame : ∀ t' ∈ s.doc.tasks, ∀ t ∈ doc.tasks, t.id = t'.id → t'.job = t.job := by
    intro t' ht' t ht hid
    have hfind := h.task t ht
    have hfound := task?_spec hfind
    rw [List.inj_on_of_nodup_map hnodup ht' hfound.1 (hid.symm.trans hfound.2.symm)]
    exact (h.course t ht).place.2
  constructor
  · intro hin
    rcases List.mem_map.mp hin with ⟨t', ht', hid⟩
    rcases List.mem_filter.mp ht' with ⟨ht', hjob⟩
    have hids : t'.id ∈ doc.tasks.map TaskNode.id := by
      rw [← h.ids]
      exact List.mem_map_of_mem ht'
    rcases List.mem_map.mp hids with ⟨t, ht, htid⟩
    refine ⟨t, ht, htid.trans hid, ?_⟩
    rw [← hsame t' ht' t ht htid]
    exact of_decide_eq_true hjob
  · intro hin
    rcases hin with ⟨t, ht, hid, hjob⟩
    have hfound := task?_spec (h.task t ht)
    refine List.mem_map.mpr ⟨_, List.mem_filter.mpr ⟨hfound.1, decide_eq_true ?_⟩, hfound.2.trans hid⟩
    rw [hsame _ hfound.1 t ht hfound.2.symm]
    exact hjob

/-- `run` starts the tasks of its job. -/
theorem Tracks.run (hdoc : doc.WellFormed) (hplain : doc.Plain) (context : Context Node)
    (h : Tracks env results doc standings s)
    (hfresh : ∀ t ∈ doc.tasks, t.job = job → standings t.id = .fresh t) :
    ∃ standings' s', WorkflowInstance.run env job context s = (s', none) ∧
      Tracks env results doc standings' s' ∧ s'.view.launched = s.view.launched ∧
      ∀ t ∈ doc.tasks, standings' t.id =
        if t.job = job then t.enqueue env false else standings t.id := by
  have hnodup : ((s.doc.tasksOf job).map TaskNode.id).Nodup := by
    have hall : (s.doc.tasks.map TaskNode.id).Nodup := by
      rw [h.ids]
      exact hdoc.tasksNodup
    exact hall.sublist (List.filter_sublist.map _)
  have hxs : ∀ x ∈ (s.doc.tasksOf job).map TaskNode.id, ∃ t ∈ doc.tasks, t.id = x ∧
      standings x = .fresh t := by
    intro x hx
    rcases (h.mem_tasksOf hdoc x).mp hx with ⟨t, ht, hid, hjob⟩
    rw [← hid]
    exact ⟨t, ht, rfl, hfresh t ht hjob⟩
  rcases (h.log (.run job)).iterateTasks hdoc hplain context hnodup hxs 0 with
    ⟨standings', s', hrun, htracks, hlaunched, hstandings⟩
  refine ⟨standings', s', hrun, htracks, ?_, ?_⟩
  · rw [hlaunched, view_log]
    exact List.append_nil _
  · intro t ht
    rw [hstandings t ht]
    have hiff : t.id ∈ (s.doc.tasksOf job).map TaskNode.id ↔ t.job = job := by
      rw [h.mem_tasksOf hdoc]
      constructor
      · intro hin
        rcases hin with ⟨t', ht', hid, hjob⟩
        rw [← task_unique hdoc ht' ht hid]
        exact hjob
      · exact fun hjob ↦ ⟨t, ht, rfl, hjob⟩
    simp only [hiff]

/-- A job without a condition and a loop is run as it is. -/
theorem visitSubjob_plain (env : Environment Node) (parent : Nat) {j : JobNode}
    (hfind : s.doc.job? id = some j) (hcondition : j.condition = none) (hloop : j.loop = none)
    (hrun : WorkflowInstance.run env id (.element parent) s = (s', none)) :
    visitSubjob env parent id s = .done s' := by
  unfold visitSubjob
  rw [hfind]
  dsimp only
  rw [hcondition]
  dsimp only
  unfold launchSubjob
  rw [hloop, hrun]

/-- The subjobs of the snapshot are run one after the other. -/
theorem Tracks.iterateSubjobs (hdoc : doc.WellFormed) (hplain : doc.Plain) (parent : Nat) {xs : List Nat}
    (h : Tracks env results doc standings s) (hnodup : xs.Nodup)
    (hxs : ∀ x ∈ xs, x ∈ doc.jobs.map JobNode.id)
    (hfresh : ∀ t ∈ doc.tasks, t.job ∈ xs → standings t.id = .fresh t) (position : Nat) :
    ∃ standings', Tracks env results doc standings' (SnapshotLoop.iterate (subjobLoop env parent)
        SnapshotLoop.readOn xs position s).1 ∧
      ∀ t ∈ doc.tasks, standings' t.id =
        if t.job ∈ xs then t.enqueue env false else standings t.id := by
  induction xs generalizing standings s with
  | nil => exact ⟨standings, h, fun t _ ↦ (if_neg List.not_mem_nil).symm⟩
  | cons x xs ih =>
    rcases List.mem_map.mp (hxs x List.mem_cons_self) with ⟨j, hj, hjid⟩
    subst hjid
    have hfind : s.doc.job? j.id = some j := by
      unfold Document.job?
      rw [h.jobs]
      exact job?_of_mem (s := create doc) hdoc.toTree hj
    rcases h.run hdoc hplain (.element parent) fun t ht hjob ↦
      hfresh t ht (hjob ▸ List.mem_cons_self) with ⟨standings₁, s₁, hrun, htracks, -, hstandings₁⟩
    have hvisit := visitSubjob_plain env parent hfind (hplain.jobs j hj).1 (hplain.jobs j hj).2 hrun
    have hout : j.id ∉ xs := (List.nodup_cons.mp hnodup).1
    have hrest : ∀ t ∈ doc.tasks, t.job ∈ xs → standings₁ t.id = .fresh t := by
      intro t ht hjob
      have hne : t.job ≠ j.id := fun heq ↦ hout (heq ▸ hjob)
      rw [hstandings₁ t ht, if_neg hne]
      exact hfresh t ht (List.mem_cons_of_mem _ hjob)
    rcases ih htracks (List.nodup_cons.mp hnodup).2 (fun y hy ↦ hxs y (List.mem_cons_of_mem _ hy)) hrest
      with ⟨standings', htracks', hstandings'⟩
    refine ⟨standings', ?_, ?_⟩
    · unfold SnapshotLoop.iterate
      rw [show (subjobLoop env parent).visit j.id s = _ from hvisit]
      exact htracks'
    · intro t ht
      rw [hstandings' t ht, hstandings₁ t ht]
      by_cases hjob : t.job = j.id
      · simp [hjob]
      · simp [hjob]

/-- `run_subjobs` starts the tasks of the subjobs of its job. -/
theorem Tracks.runSubjobs (hdoc : doc.WellFormed) (hplain : doc.Plain)
    (h : Tracks env results doc standings s) (parent : Nat)
    (hfresh : ∀ t ∈ doc.tasks, t.job ∈ (doc.subjobsOf parent).map JobNode.id →
      standings t.id = .fresh t) :
    ∃ standings', Tracks env results doc standings' (WorkflowInstance.runSubjobs env parent s).1 ∧
      ∀ t ∈ doc.tasks, standings' t.id =
        if t.job ∈ (doc.subjobsOf parent).map JobNode.id then t.enqueue env false
        else standings t.id := by
  have hsub : s.doc.subjobsOf parent = doc.subjobsOf parent := by
    unfold Document.subjobsOf
    rw [h.jobs]
  unfold WorkflowInstance.runSubjobs
  rw [hsub]
  apply (h.log (.runSubjobs parent)).iterateSubjobs hdoc hplain parent
  · exact hdoc.jobsNodup.sublist (List.filter_sublist.map _)
  · exact fun x hx ↦ (List.filter_sublist.map _).subset hx
  · exact hfresh

/-! ## How far a run has come -/

theorem Tracks.exists_task (h : Tracks env results doc standings s) {task : TaskNode Node}
    (hfind : s.doc.task? id = some task) : ∃ t ∈ doc.tasks, t.id = id ∧ (standings id).task = task := by
  have hin : id ∈ doc.tasks.map TaskNode.id := by
    rw [← h.ids, ← (task?_spec hfind).2]
    exact List.mem_map_of_mem (task?_spec hfind).1
  rcases List.mem_map.mp hin with ⟨t, ht, hid⟩
  have htask := h.task t ht
  rw [hid, hfind] at htask
  exact ⟨t, ht, hid, (Option.some.inj htask).symm⟩

/-- What the view shows of a task. -/
theorem Tracks.key_mem (h : Tracks env results doc standings s) (ht : t ∈ doc.tasks) :
    (standings t.id).task.key ∈ s.view.tasks ∧ (standings t.id).task.key.job = t.job :=
  ⟨WorkflowInstance.key_mem (h.task t ht), (h.course t ht).place.2⟩

/-- Below a job that was not launched the tasks are as they were. -/
theorem Tracks.fresh (h : Tracks env results doc standings s) {k r : Int} (hinv : s.view.Inv k r)
    {j : JobNode} (hj : j ∈ doc.jobs) (hnot : j.parent ∉ s.view.launched) (ht : t ∈ doc.tasks)
    (hjob : t.job = j.id) : standings t.id = .fresh t := by
  have hview : (j.id, j.parent) ∈ s.view.jobs := by
    unfold view
    rw [h.jobs]
    exact List.mem_map.mpr ⟨j, hj, rfl⟩
  have hkey := h.key_mem ht
  exact (h.course t ht).eq_fresh (hinv.dormant _ hview hnot _ hkey.1 (hkey.2.trans hjob))

/-- Every task of a job that was launched is successful. -/
theorem Tracks.successful (h : Tracks env results doc standings s) {k r : Int} (hinv : s.view.Inv k r)
    (hlaunched : job ∈ s.view.launched) (hne : job ≠ 0) (ht : t ∈ doc.tasks) (hjob : t.job = job) :
    (standings t.id).task.successful = true :=
  (hinv.launched job hlaunched hne).2 _ (h.key_mem ht).1 ((h.key_mem ht).2.trans hjob)

/-- All tasks of the job are there, and successful. -/
def AllSuccessful (doc : Document Node) (standings : Nat → Standing Node) (job : Nat) : Prop :=
  (∃ t ∈ doc.tasks, t.job = job) ∧
    ∀ t ∈ doc.tasks, t.job = job → (standings t.id).task.successful = true

/-- The tasks below the jobs that were launched are on their courses. -/
def Started (doc : Document Node) (standings : Nat → Standing Node) (s : WorkflowInstance Node) : Prop :=
  ∀ j ∈ doc.jobs, j.parent ∈ s.view.launched →
    ∀ t ∈ doc.tasks, t.job = j.id → (standings t.id).task.status ≠ none

/-- The jobs that could be launched were launched. -/
structure Progress (env : Environment Node) (results : Nat → Nat → Int × String) (doc : Document Node)
    (standings : Nat → Standing Node) (s : WorkflowInstance Node) : Prop where
  tracks : Tracks env results doc standings s
  top : 0 ∈ s.view.launched
  started : Started doc standings s
  launched : ∀ job, AllSuccessful doc standings job → job ∈ s.view.launched

theorem Progress.running (h : Progress env results doc standings s) (runningTally : Int) :
    Progress env results doc standings { s with runningTally } :=
  ⟨⟨h.tracks.jobs, h.tracks.ids, h.tracks.nextId, h.tracks.schedules, h.tracks.isCancelling, h.tracks.task,
    h.tracks.waits, h.tracks.course, h.tracks.errors⟩, h.top, h.started, h.launched⟩

theorem Started.update (h : Started doc standings s) (hlaunched : s'.view.launched = s.view.launched)
    (hstatus : e.task.status ≠ none) (id : Nat) :
    Started doc (Function.update standings id e) s' := by
  intro j hj hparent t' ht' hjob
  rw [hlaunched] at hparent
  by_cases hid : t'.id = id
  · rw [hid, Function.update_self]
    exact hstatus
  · rw [Function.update_of_ne hid]
    exact h j hj hparent t' ht' hjob

/-- What happens to a task matters to its own job only. -/
theorem AllSuccessful.of_update (hdoc : doc.WellFormed) (ht : t ∈ doc.tasks) (hne : job ≠ t.job)
    (h : AllSuccessful doc (Function.update standings t.id e) job) : AllSuccessful doc standings job := by
  refine ⟨h.1, ?_⟩
  intro t' ht' hjob
  have hid : t'.id ≠ t.id := by
    intro hid
    rw [task_unique hdoc ht' ht hid] at hjob
    exact hne hjob.symm
  have hold := h.2 t' ht' hjob
  rw [Function.update_of_ne hid] at hold
  exact hold

theorem Acts.launched (h : Acts id e s s') : s'.view.launched = s.view.launched := by
  unfold view
  rw [h.trace]

/-- What a call leaves that makes its task go on. -/
theorem Progress.moved (hdoc : doc.WellFormed) (h : Progress env results doc standings s)
    (ht : t ∈ doc.tasks) (hacts : Acts t.id e s s')
    (hnext : (standings t.id).next env doc.schedules results = some e) :
    Tracks env results doc (Function.update standings t.id e) s' ∧
      Started doc (Function.update standings t.id e) s' := by
  have hcourse := h.tracks.course t ht
  have hstatus := hcourse.status_of_next (hdoc.noStatus t ht) hnext
  refine ⟨h.tracks.acts hdoc ht hacts (hcourse.step (hdoc.noStatus t ht) hnext) ?_,
    h.started.update hacts.launched hstatus t.id⟩
  apply hcourse.not_failed
  rw [hnext]
  exact nofun

/-- A task goes on, and its job is not complete. -/
theorem Progress.acts (hdoc : doc.WellFormed) (h : Progress env results doc standings s)
    (ht : t ∈ doc.tasks) (hacts : Acts t.id e s s')
    (hnext : (standings t.id).next env doc.schedules results = some e)
    (hnot : ¬AllSuccessful doc (Function.update standings t.id e) t.job) :
    Progress env results doc (Function.update standings t.id e) s' := by
  have hmoved := h.moved hdoc ht hacts hnext
  refine ⟨hmoved.1, ?_, hmoved.2, ?_⟩
  · rw [hacts.launched]
    exact h.top
  · intro job hall
    rw [hacts.launched]
    apply h.launched job
    have hne : job ≠ t.job := fun heq ↦ hnot (heq ▸ hall)
    exact hall.of_update hdoc ht hne

/-- A job is launched that was not launched before. -/
theorem Tracks.launch (hdoc : doc.WellFormed) (hplain : doc.Plain)
    (h : Tracks env results doc standings s) {k r : Int} (hinv : s.view.Inv k r)
    (hstarted : Started doc standings s) (hnot : job ∉ s.view.launched)
    (htop : 0 ∈ s.view.launched ∨ job = 0)
    (hothers : ∀ x ≠ job, AllSuccessful doc standings x → x ∈ s.view.launched) :
    ∃ standings', Progress env results doc standings' (WorkflowInstance.runSubjobs env job s).1 := by
  have hfresh : ∀ t ∈ doc.tasks, t.job ∈ (doc.subjobsOf job).map JobNode.id →
      standings t.id = .fresh t := by
    intro t ht hjob
    rcases List.mem_map.mp hjob with ⟨j, hj, hid⟩
    rcases List.mem_filter.mp hj with ⟨hj, hparent⟩
    apply h.fresh hinv hj _ ht hid.symm
    rw [of_decide_eq_true hparent]
    exact hnot
  rcases h.runSubjobs hdoc hplain job hfresh with ⟨standings', htracks, hstandings⟩
  have henqueued (t : TaskNode Node) : Standing.Follows t (t.enqueue env false) :=
    Standing.follows_enqueue (e := .fresh t) rfl rfl false
  refine ⟨standings', htracks, ?_, ?_, ?_⟩
  · rw [launched_runSubjobs, List.mem_append, List.mem_singleton]
    exact htop.imp_right Eq.symm
  · intro j hj hparent t ht hjob
    rw [launched_runSubjobs, List.mem_append, List.mem_singleton] at hparent
    rw [hstandings t ht]
    by_cases hsub : t.job ∈ (doc.subjobsOf job).map JobNode.id
    · rw [if_pos hsub]
      exact (henqueued t).status
    · rw [if_neg hsub]
      rcases hparent with hparent | hparent
      · exact hstarted j hj hparent t ht hjob
      · refine absurd (List.mem_map.mpr ⟨j, List.mem_filter.mpr ⟨hj, ?_⟩, hjob.symm⟩) hsub
        exact decide_eq_true hparent
  · intro x hall
    rw [launched_runSubjobs, List.mem_append, List.mem_singleton]
    by_cases heq : x = job
    · exact .inr heq
    · apply Or.inl
      apply hothers x heq
      refine ⟨hall.1, ?_⟩
      intro t ht hjob
      have hsuccessful := hall.2 t ht hjob
      rw [hstandings t ht] at hsuccessful
      by_cases hsub : t.job ∈ (doc.subjobsOf job).map JobNode.id
      · -- a task that was just started has not ended
        rw [if_pos hsub, t.not_successful_enqueue] at hsuccessful
        cases hsuccessful
      · rw [if_neg hsub] at hsuccessful
        exact hsuccessful

/-- A call for a task that is not the last one of its job. -/
theorem Progress.acts_unsuccessful (hdoc : doc.WellFormed) (h : Progress env results doc standings s)
    (ht : t ∈ doc.tasks) (hacts : Acts t.id e s s')
    (hnext : (standings t.id).next env doc.schedules results = some e)
    (hnot : e.task.successful = false) :
    Progress env results doc (Function.update standings t.id e) s' := by
  apply h.acts hdoc ht hacts hnext
  intro hall
  have hsuccessful := hall.2 t ht rfl
  rw [Function.update_self, hnot] at hsuccessful
  cases hsuccessful

theorem Progress.taskExecute (hdoc : doc.WellFormed) (h : Progress env results doc standings s)
    (hinv : s.view.Inv 0 0) (hid : id ∈ s.queued) :
    ∃ standings', Progress env results doc standings'
      ({ s with queued := s.queued.erase id }.taskExecute env id).1 := by
  rcases task?_of_queued hinv hid with ⟨task, hfind, hstatus⟩
  rcases h.tracks.exists_task hfind with ⟨t, ht, htid, htask⟩
  subst htid
  have hout := notMem_retrier hinv hfind (by simp [hstatus])
  have hacts := acts_taskExecute env hfind hout
  have hwaits : (standings t.id).waits = false := by
    rw [Bool.eq_false_iff, ne_eq, ← h.tracks.waits t ht]
    exact hout
  refine ⟨_, h.acts_unsuccessful hdoc ht hacts ?_ (task.not_successful_execute env _)⟩
  unfold Standing.next
  rw [hwaits, if_neg Bool.false_ne_true, htask, hstatus, h.tracks.isCancelling]

theorem Progress.taskRestart (hdoc : doc.WellFormed) (h : Progress env results doc standings s)
    (hinv : s.view.Inv 0 0) (hid : id ∈ s.retrier) :
    ∃ standings', Progress env results doc standings'
      ({ s with retrier := s.retrier.erase id }.taskRestart env id).1 := by
  rcases hinv.retrier id hid with ⟨key, hkey, hkeyid, -⟩
  rcases task?_of_mem hinv hkey with ⟨task, hfind, -⟩
  rw [hkeyid] at hfind
  rcases h.tracks.exists_task hfind with ⟨t, ht, htid, htask⟩
  subst htid
  have hacts := acts_taskRestart env hfind hinv.retrierNodup
  have hwaits := (h.tracks.waits t ht).mp hid
  refine ⟨_, h.acts_unsuccessful hdoc ht hacts ?_ (task.not_successful_enqueue env _)⟩
  unfold Standing.next
  rw [if_pos hwaits, htask, h.tracks.isCancelling]

/-- The tasks of the document that are in a job, and those that they were. -/
theorem Tracks.complete_iff (hdoc : doc.WellFormed) (h : Tracks env results doc standings s)
    (ht : t ∈ doc.tasks) : (s.doc.tasksOf t.job).length =
      (s.doc.tasksOf t.job).countP TaskNode.successful ↔ AllSuccessful doc standings t.job := by
  have hnodup : (s.doc.tasks.map TaskNode.id).Nodup := by
    rw [h.ids]
    exact hdoc.tasksNodup
  rw [eq_comm, List.countP_eq_length]
  constructor
  · intro hall
    refine ⟨⟨t, ht, rfl⟩, ?_⟩
    intro t' ht' hjob
    apply hall _ (List.mem_filter.mpr ⟨(task?_spec (h.task t' ht')).1, decide_eq_true ?_⟩)
    exact (h.course t' ht').place.2.trans hjob
  · intro hall x hx
    rcases List.mem_filter.mp hx with ⟨hxin, hjob⟩
    rcases (h.mem_tasksOf hdoc x.id).mp (List.mem_map_of_mem hx) with ⟨t', ht', hid, hjob'⟩
    have hfound := task?_spec (h.task t' ht')
    rw [← List.inj_on_of_nodup_map hnodup hfound.1 hxin (hfound.2.trans hid)]
    exact hall.2 t' ht' hjob'

theorem Progress.taskStop (hdoc : doc.WellFormed) (hplain : doc.Plain)
    (h : Progress env results doc standings s) (hinv : s.view.Inv 0 0) {task : TaskNode Node}
    (hfind : s.doc.task? id = some task) (hstatus : task.status = some .executing) {retval : Int}
    {output : String} (hresult : (retval, output) = results id task.outputs.length) :
    ∃ standings', Progress env results doc standings' (s.taskStop env id retval output).1 := by
  rcases h.tracks.exists_task hfind with ⟨t, ht, htid, htask⟩
  subst htid
  have htaskid := (task?_spec hfind).2
  have hout := notMem_retrier hinv hfind (by simp [hstatus])
  have hacts := acts_recordStop env hfind hout retval output
  have hstopped := recordStop_inv env hinv hfind hstatus retval output
  have hlast {s' : WorkflowInstance Node} (hs' : s.recordStop env task retval output = s') :=
    recordStop_last env hinv hfind hstatus retval output hs'
  have hwaits : (standings t.id).waits = false := by
    rw [Bool.eq_false_iff, ne_eq, ← h.tracks.waits t ht]
    exact hout
  -- the result reported is the one due at this attempt, so the standing of the task moves on
  have hnext : (standings t.id).next env doc.schedules results =
      some (task.stop env false doc.schedules retval output) := by
    unfold Standing.next
    rw [hwaits, if_neg Bool.false_ne_true, htask, hstatus]
    dsimp only
    rw [htaskid, ← hresult]
  have hjob : task.job = t.job := by
    rw [← htask]
    exact (h.tracks.course t ht).place.2
  rw [h.tracks.isCancelling, h.tracks.schedules] at hacts
  unfold WorkflowInstance.taskStop
  rw [hfind]
  dsimp only
  generalize task.stop env false doc.schedules retval output = e at hacts hnext
  generalize heq : s.recordStop env task retval output = s' at hacts hstopped
  have hmoved := h.moved hdoc ht hacts hnext
  have hcomplete := hmoved.1.complete_iff hdoc ht
  rw [← hjob] at hcomplete
  by_cases hall : (s'.doc.tasksOf task.job).length =
      (s'.doc.tasksOf task.job).countP TaskNode.successful
  · -- the job is launched
    rw [if_pos hall]
    have htop : 0 ∈ s'.view.launched := by
      rw [hacts.launched]
      exact h.top
    have hothers : ∀ x ≠ task.job, AllSuccessful doc (Function.update standings t.id e) x →
        x ∈ s'.view.launched := by
      intro x hne hx
      rw [hacts.launched]
      rw [hjob] at hne
      exact h.launched x (hx.of_update hdoc ht hne)
    rcases hmoved.1.launch hdoc hplain hstopped hmoved.2 (hlast heq hall).1 (.inl htop) hothers with
      ⟨standings', hprogress⟩
    exact ⟨standings', hprogress.running _⟩
  · rw [if_neg hall]
    rw [hcomplete, hjob] at hall
    exact ⟨_, (h.acts hdoc ht hacts hnext hall).running _⟩

end WorkflowInstance

/-! ## The end of a run -/

namespace Document

/-- A job below one that is found is found, too. -/
theorem mem_descendants_child {found : List Nat} {jobs : List JobNode} {j : JobNode}
    (hfirst : jobs.Pairwise fun j j' ↦ j.parent ≠ j'.id) (hj : j ∈ jobs)
    (h : j.parent ∈ descendants found jobs) : j.id ∈ descendants found jobs := by
  induction jobs generalizing found with
  | nil => cases hj
  | cons first jobs ih =>
    rw [List.pairwise_cons] at hfirst
    unfold descendants at h ⊢
    rcases List.mem_cons.mp hj with heq | hj
    · -- its parent was found before it, for no job behind it is its parent
      rw [heq] at h ⊢
      by_cases hin : first.parent ∈ found
      · rw [if_pos hin]
        exact mem_descendants_of_mem _ (List.mem_append_right _ (List.mem_singleton.mpr rfl))
      · rw [if_neg hin] at h
        rcases mem_descendants_cases h with hfound | hlater
        · exact absurd hfound hin
        · rcases List.mem_map.mp hlater with ⟨j', hj', hid⟩
          exact absurd hid.symm (hfirst.1 j' hj')
    · exact ih hfirst.2 hj h

end Document

namespace WorkflowInstance

variable {env : Environment Node} {results : Nat → Nat → Int × String} {doc : Document Node}
variable {standings : Nat → Standing Node} {s : WorkflowInstance Node} {t : TaskNode Node} {job : Nat}

/-- Nothing is under way any more. -/
def Idle (doc : Document Node) (standings : Nat → Standing Node) : Prop :=
  ∀ t ∈ doc.tasks, (standings t.id).task.status ≠ none → (standings t.id).Over

theorem Tracks.idle (h : Tracks env results doc standings s)
    (hactive : ∀ t ∈ s.doc.tasks, t.active = false) (hretrier : s.retrier = []) : Idle doc standings := by
  intro t ht hstatus
  have hnot := hactive _ (task?_spec (h.task t ht)).1
  have hwaits : ¬(standings t.id).waits = true := by
    rw [← h.waits t ht, hretrier]
    exact List.not_mem_nil
  refine ⟨Bool.eq_false_iff.mpr hwaits, ?_⟩
  unfold TaskNode.active at hnot
  cases heq : (standings t.id).task.status with
  | none => exact absurd heq hstatus
  | some status =>
    rw [heq] at hnot
    cases status with
    | queued => simp at hnot
    | executing => simp at hnot
    | terminated => exact .inl rfl
    | aborted => exact .inr rfl

/-- Where nothing is under way any more, a task that has a status has come to its outcome. -/
theorem Tracks.eq_outcome (hdoc : doc.WellFormed) (hlimited : doc.Limited)
    (h : Tracks env results doc standings s) (hidle : Idle doc standings) (ht : t ∈ doc.tasks)
    (hstatus : (standings t.id).task.status ≠ none) :
    standings t.id = t.outcome env doc.schedules results :=
  (h.course t ht).eq_outcome (hlimited t ht) (hdoc.noStatus t ht) hstatus (hidle t ht hstatus)

/-- The job succeeds when its tasks come to their outcomes. -/
theorem succeeds_iff : doc.succeeds env results job = true ↔ (∃ t ∈ doc.tasks, t.job = job) ∧
    ∀ t ∈ doc.tasks, t.job = job → (t.outcome env doc.schedules results).task.successful = true := by
  unfold Document.succeeds Document.tasksOf
  rw [Bool.and_eq_true, Bool.not_eq_true', ← Bool.not_eq_true, List.isEmpty_iff, List.filter_eq_nil_iff,
    List.all_eq_true]
  simp only [List.mem_filter, decide_eq_true_iff, not_forall, not_not, exists_prop, and_imp]

/-- A task of a job that was launched has a status, and the parent of the job was launched, too. -/
theorem parent_launched (h : Tracks env results doc standings s) {k r : Int} (hinv : s.view.Inv k r)
    {j : JobNode} (hj : j ∈ doc.jobs) (ht : t ∈ doc.tasks) (hjob : t.job = j.id)
    (hstatus : (standings t.id).task.status ≠ none) : j.parent ∈ s.view.launched := by
  have hkey := h.key_mem ht
  apply hinv.parent_launched hkey.1 hstatus (j.id, j.parent)
  · unfold view
    rw [h.jobs]
    exact List.mem_map.mpr ⟨j, hj, rfl⟩
  · exact (hkey.2.trans hjob).symm

theorem status_of_successful (h : t.successful = true) : t.status ≠ none := by
  intro hnone
  simp [TaskNode.successful, hnone] at h

/-- **At the end, the jobs that were launched are those that the outcome says.** -/
theorem Progress.launched_iff (hdoc : doc.WellFormed) (hlimited : doc.Limited)
    (h : Progress env results doc standings s) (hinv : s.view.Inv 0 0) (hidle : Idle doc standings) :
    job ∈ s.view.launched ↔ job ∈ doc.launches env results := by
  have hchild {j : JobNode} (hj : j ∈ doc.jobs) (hsucceeds : doc.succeeds env results j.id = true)
      (hparent : j.parent ∈ doc.launches env results) : j.id ∈ doc.launches env results :=
    Document.mem_descendants_child (hdoc.parentsFirst.sublist List.filter_sublist)
      (List.mem_filter.mpr ⟨hj, hsucceeds⟩) hparent
  constructor
  · rcases exists_level hdoc.jobsNodup (fun j hj ↦ (hdoc.parents j hj).1) hdoc.parentsFirst with
      ⟨level, n, hlevel⟩
    -- the parent of a job is one level higher
    induction hn : level job using Nat.strongRecOn generalizing job with
    | ind m ih =>
      intro hlaunched
      by_cases hzero : job = 0
      · rw [hzero]
        exact Document.mem_descendants_of_mem _ (List.mem_singleton.mpr rfl)
      · have hall : ∀ t ∈ doc.tasks, t.job = job → (standings t.id).task.successful = true :=
          fun t ht ↦ h.tracks.successful hinv hlaunched hzero ht
        rcases (hinv.launched job hlaunched hzero).1 with ⟨key, hkey, hkeyjob⟩
        rcases task?_of_mem hinv hkey with ⟨task, hfind, htask⟩
        rcases h.tracks.exists_task hfind with ⟨t, ht, htid, hstanding⟩
        have hjob : t.job = job := by
          rw [← hkeyjob, ← htask, ← (h.tracks.key_mem ht).2, htid, hstanding]
        have hstatus := status_of_successful (hall t ht hjob)
        rcases List.mem_map.mp (hdoc.tasksBound t ht).2 with ⟨j, hj, hjid⟩
        have hparent := parent_launched h.tracks hinv hj ht hjid.symm hstatus
        have hdeep := (hlevel j hj).1
        rw [hjid, hjob, hn] at hdeep
        have hin := ih (level j.parent) (by omega) rfl hparent
        rw [← hjob, ← hjid]
        apply hchild hj _ hin
        rw [succeeds_iff, hjid, hjob]
        refine ⟨⟨t, ht, hjob⟩, ?_⟩
        intro t' ht' hjob'
        have hsuccessful := hall t' ht' hjob'
        rw [h.tracks.eq_outcome hdoc hlimited hidle ht' (status_of_successful hsuccessful)] at hsuccessful
        exact hsuccessful
  · intro hin
    apply Document.descendants_induction (D := fun x ↦ x ∈ s.view.launched) _ _ job hin
    · intro x hx
      rw [List.mem_singleton.mp hx]
      exact h.top
    · intro j hj hparent
      rcases List.mem_filter.mp hj with ⟨hj, hsucceeds⟩
      rw [succeeds_iff] at hsucceeds
      apply h.launched
      refine ⟨hsucceeds.1, ?_⟩
      intro t ht hjob
      rw [h.tracks.eq_outcome hdoc hlimited hidle ht (h.started j hj hparent t ht hjob)]
      exact hsucceeds.2 t ht hjob

/-- At the end every task has come to its outcome, or is as it was. -/
theorem Progress.standing_eq (hdoc : doc.WellFormed) (hlimited : doc.Limited)
    (h : Progress env results doc standings s) (hinv : s.view.Inv 0 0) (hidle : Idle doc standings)
    (ht : t ∈ doc.tasks) : standings t.id =
      if doc.starts env results t then t.outcome env doc.schedules results else .fresh t := by
  have hstarts : doc.starts env results t = true ↔ (standings t.id).task.status ≠ none := by
    unfold Document.starts
    rw [List.any_eq_true]
    constructor
    · intro hin
      rcases hin with ⟨j, hj, hin⟩
      have hin := of_decide_eq_true hin
      exact h.started j hj ((h.launched_iff hdoc hlimited hinv hidle).mpr hin.2) t ht hin.1.symm
    · intro hstatus
      rcases List.mem_map.mp (hdoc.tasksBound t ht).2 with ⟨j, hj, hjid⟩
      have hparent := parent_launched h.tracks hinv hj ht hjid.symm hstatus
      refine ⟨j, hj, decide_eq_true ⟨hjid, ?_⟩⟩
      exact (h.launched_iff hdoc hlimited hinv hidle).mp hparent
  by_cases hstatus : (standings t.id).task.status = none
  · rw [if_neg (mt hstarts.mp (not_not.mpr hstatus))]
    exact (h.tracks.course t ht).eq_fresh hstatus
  · rw [if_pos (hstarts.mpr hstatus)]
    exact h.tracks.eq_outcome hdoc hlimited hidle ht hstatus

/-- The document at the end. -/
theorem Progress.doc_eq (hdoc : doc.WellFormed) (hlimited : doc.Limited)
    (h : Progress env results doc standings s) (hinv : s.view.Inv 0 0) (hidle : Idle doc standings) :
    s.doc = doc.outcome env results ∧ s.errorTasks = .ofNat (doc.errors env results) := by
  have hstanding := fun t ht ↦ h.standing_eq hdoc hlimited hinv hidle (t := t) ht
  have htasks : s.doc.tasks = doc.tasks.map fun t ↦
      if doc.starts env results t then (t.outcome env doc.schedules results).task else t := by
    apply tasks_eq_map h.tracks.ids hdoc.tasksNodup
    intro t ht
    have hfind := h.tracks.task t ht
    rw [hstanding t ht] at hfind
    rw [show s.doc.tasks.find? _ = _ from hfind]
    split <;> rfl
  constructor
  · have hjobs := h.tracks.jobs
    have hnextId := h.tracks.nextId
    have hschedules := h.tracks.schedules
    unfold Document.outcome
    rw [← htasks, ← hjobs, ← hnextId, ← hschedules]
  · unfold WorkflowInstance.errorTasks
    rw [h.tracks.errors, WorkflowInstance.ofInt_natCast]
    unfold Document.errors
    congr 1
    apply List.countP_congr
    intro t ht
    rw [hstanding t ht]
    by_cases hstarts : doc.starts env results t = true
    · rw [if_pos hstarts, hstarts, Bool.true_and]
    · rw [if_neg hstarts, Bool.eq_false_iff.mpr hstarts, Bool.false_and]
      exact Iff.rfl

end WorkflowInstance

/-! ## Runs -/

deriving instance Inhabited for TaskNode

namespace Lifetime

variable {env : Environment Node} {results : Nat → Nat → Int × String} {doc : Document Node}
variable {l l' : Lifetime Node}

/-- The call answers what `env` and `results` say, and is not `Cancel`. -/
def Answers (env : Environment Node) (results : Nat → Nat → Int × String) (l : Lifetime Node) :
    Operation Node → Prop
  | .taskExecute env' _ => env' = env
  | .taskStop env' id retval output => env' = env ∧
      ∀ task, l.workflow.doc.task? id = some task → (retval, output) = results id task.outputs.length
  | .taskRestart env' _ => env' = env
  | .cancel => False

/-- The workflow is sound, and on the way to its outcome. -/
def Progress (env : Environment Node) (results : Nat → Nat → Int × String) (doc : Document Node)
    (l : Lifetime Node) : Prop :=
  l.Sound ∧ ∃ standings, WorkflowInstance.Progress env results doc standings l.workflow

theorem step_progress (hdoc : doc.WellFormed) (hplain : doc.Plain) {operation : Operation Node}
    (h : l.Progress env results doc) (hanswers : l.Answers env results operation)
    (hstep : l.step operation = some l') : l'.Progress env results doc := by
  rcases h with ⟨hsound, standings, hprogress⟩
  refine ⟨step_sound hsound hstep, ?_⟩
  cases operation with
  | taskExecute env' id =>
    rcases step_taskExecute hstep with ⟨hid, heq⟩
    rw [heq, show env' = env from hanswers]
    exact hprogress.taskExecute hdoc hsound.inv hid
  | taskStop env' id retval output =>
    rcases step_taskStop hstep with ⟨task, hfind, hstatus, heq⟩
    rw [heq, show env' = env from hanswers.1]
    exact hprogress.taskStop hdoc hplain hsound.inv hfind hstatus (hanswers.2 task hfind)
  | taskRestart env' id =>
    rcases step_taskRestart hstep with ⟨hid, heq⟩
    rw [heq, show env' = env from hanswers]
    exact hprogress.taskRestart hdoc hsound.inv hid
  | cancel => exact hanswers.elim

/-- Where the tasks stand before `Start`. -/
theorem create_tracks (env : Environment Node) (results : Nat → Nat → Int × String)
    (hdoc : doc.WellFormed) : ∃ standings, WorkflowInstance.Tracks env results doc standings (.create doc) ∧
      ∀ t ∈ doc.tasks, standings t.id = .fresh t := by
  have hfind : ∀ t ∈ doc.tasks, doc.task? t.id = some t := fun t ht ↦
    WorkflowInstance.task?_of_mem_tasks (WorkflowInstance.create_inv hdoc) ht
  have hfresh : ∀ t ∈ doc.tasks, Standing.fresh ((doc.task? t.id).getD default) = .fresh t := by
    intro t ht
    rw [hfind t ht]
    rfl
  refine ⟨fun id ↦ .fresh ((doc.task? id).getD default), ?_, hfresh⟩
  constructor
  case jobs => rfl
  case ids => rfl
  case nextId => rfl
  case schedules => rfl
  case isCancelling => rfl
  case task =>
    intro t ht
    rw [hfresh t ht]
    exact hfind t ht
  case waits => exact fun t _ ↦ iff_of_false List.not_mem_nil Bool.false_ne_true
  case course => exact fun t ht ↦ .inl (hfresh t ht)
  case errors =>
    have hnone : doc.tasks.countP (fun t ↦ (Standing.fresh ((doc.task? t.id).getD default)).failed) = 0 :=
      List.countP_eq_zero.mpr fun _ _ ↦ Bool.false_ne_true
    rw [hnone]
    rfl

theorem start_progress (env : Environment Node) (results : Nat → Nat → Int × String)
    (hdoc : doc.WellFormed) (hplain : doc.Plain) : (start env doc).Progress env results doc := by
  rcases create_tracks env results hdoc with ⟨standings, htracks, hfresh⟩
  refine ⟨start_sound env hdoc, ?_⟩
  apply htracks.launch hdoc hplain (WorkflowInstance.create_inv hdoc) _ List.not_mem_nil (.inr rfl)
  · -- no task has ended
    intro x _ hall
    rcases hall.1 with ⟨t, ht, hjob⟩
    have hsuccessful := hall.2 t ht hjob
    rw [hfresh t ht] at hsuccessful
    exact absurd (hdoc.noStatus t ht) (WorkflowInstance.status_of_successful hsuccessful)
  · exact fun j _ hparent ↦ absurd hparent List.not_mem_nil

/-- **A workflow comes to its outcome, in whatever order the engine makes its calls.**  Where no loop, no
condition and no input is evaluated, every retry is limited, nothing is cancelled and every call finds the same
queues and tasks, the document at the end, with every status, return value, output and retry, and the number of
errors depend on the results of the single executions alone. -/
theorem doc_eq_outcome_of_run (env : Environment Node) (results : Nat → Nat → Int × String)
    (doc : Document Node) (operations : List (Operation Node)) (l : Lifetime Node)
    (hdoc : doc.WellFormed) (hplain : doc.Plain) (hlimited : doc.Limited)
    (hanswers : Meets step (Answers env results) (start env doc) operations)
    (hrun : run step (start env doc) operations = some l) (hend : l.deleted = 1)
    (hcount : Countable l.workflow) :
    l.workflow.doc = doc.outcome env results ∧
      l.workflow.errorTasks = .ofNat (doc.errors env results) := by
  rcases run_invariant (fun _ _ _ ↦ step_progress hdoc hplain) (start_progress env results hdoc hplain)
    hanswers hrun with ⟨hsound, standings, hprogress⟩
  have hended : l.workflow.workflowEnded = true := by
    by_contra hno
    have hzero := hsound.deleted
    rw [if_neg hno, hend] at hzero
    cases hzero
  have hover := nothing_of_ended hsound.inv hcount hended
  exact hprogress.doc_eq hdoc hlimited hsound.inv (hprogress.tracks.idle hover.1 hover.2)

/-- Two tasks side by side, of which one is retried, and a task behind them. -/
def bothThenStore : Document Unit where
  jobs :=
    [{ id := 1, parent := 0, condition := none, loop := none, status := none, details := none },
      { id := 2, parent := 1, condition := none, loop := none, status := none, details := none }]
  tasks := [("fetch", 1), ("check", 1), ("store", 2)].mapIdx fun i (name, job) ↦
    { id := i + 3, job, name, queue := "default", loop := none, status := none, retval := none,
      error := none, details := none, retrySchedule := none, retryScheduleLevel := none,
      retryDelay := some 60, retryTimes := some 1, retryRetval := none, content := [], outputs := [] }
  schedules := fun _ ↦ none
  nextId := 6

theorem bothThenStore_wellFormed : bothThenStore.WellFormed where
  nextId := by decide
  jobsNodup := by decide
  jobsBound := by decide
  parents := by decide
  parentsFirst := by decide
  tasksNodup := by decide
  tasksBound := by decide
  noStatus := by decide

theorem bothThenStore_plain : bothThenStore.Plain := by
  refine ⟨by decide, ?_⟩
  intro t ht
  have hall : bothThenStore.tasks.all (fun t ↦ t.loop.isNone ∧ t.content.isEmpty) = true := by decide
  have hplain := of_decide_eq_true (List.all_eq_true.mp hall t ht)
  rw [Option.isNone_iff_eq_none, List.isEmpty_iff] at hplain
  refine ⟨hplain.1, ?_⟩
  rw [hplain.2]
  exact nofun

theorem bothThenStore_limited : bothThenStore.Limited := by
  have hall : bothThenStore.tasks.all (fun t ↦ t.retrySchedule.isNone ∧ 0 ≤ t.retryTimes.getD 0) = true := by
    decide
  intro t ht
  have hlimited := of_decide_eq_true (List.all_eq_true.mp hall t ht)
  refine ⟨?_, ?_, nofun⟩
  · intro name hname
    rw [hname] at hlimited
    exact absurd hlimited.1 nofun
  · intro n hn
    rw [Option.mem_def.mp hn] at hlimited
    exact hlimited.2

/-- The second task fails once; its retry is restarted while the first one is executed. -/
def retriedMeanwhile : List (Operation Unit) :=
  [.taskExecute twoNodes 4, .taskStop twoNodes 4 1 "", .taskExecute twoNodes 3, .taskRestart twoNodes 4,
    .taskExecute twoNodes 4, .taskStop twoNodes 3 0 "", .taskStop twoNodes 4 0 "",
    .taskExecute twoNodes 5, .taskStop twoNodes 5 0 ""]

def secondFailsOnce (id n : Nat) : Int × String := (if id = 4 ∧ n = 0 then 1 else 0, "")

theorem doc_eq_outcome_retriedMeanwhile : ∃ l, run step (start twoNodes bothThenStore) retriedMeanwhile =
      some l ∧
    l.workflow.doc = bothThenStore.outcome twoNodes secondFailsOnce ∧
    l.workflow.errorTasks = .ofNat (bothThenStore.errors twoNodes secondFailsOnce) := by
  refine ⟨_, rfl, doc_eq_outcome_of_run twoNodes secondFailsOnce bothThenStore retriedMeanwhile _
    bothThenStore_wellFormed bothThenStore_plain bothThenStore_limited ?_ rfl rfl (by decide)⟩
  have hstop {l : Lifetime Unit} {id : Nat} {retval : Int} {output : String} {task : TaskNode Unit}
      (hfind : l.workflow.doc.task? id = some task)
      (hresult : (retval, output) = secondFailsOnce id task.outputs.length) :
      l.Answers twoNodes secondFailsOnce (.taskStop twoNodes id retval output) :=
    ⟨rfl, fun _ hfind' ↦ by rw [Option.some.inj (hfind'.symm.trans hfind)]; exact hresult⟩
  exact .cons rfl rfl (.cons (hstop rfl rfl) rfl (.cons rfl rfl (.cons rfl rfl (.cons rfl rfl
    (.cons (hstop rfl rfl) rfl (.cons (hstop rfl rfl) rfl (.cons rfl rfl
      (.cons (hstop rfl rfl) rfl trivial))))))))

end Lifetime

end EvQueue
