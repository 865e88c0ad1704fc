import EvQueue.WorkflowInstanceClones

/-!
# WorkflowInstanceLoops — what `run` does with looped tasks

The trace tells what a call of `run` matched, cloned and enqueued.  Every looped task is matched once and
removed, and every clone is enqueued once.  How many clones there are depends on where the loop over the
matched nodes begins.
-/

namespace EvQueue

variable {Node : Type}

namespace Event

def matchedTask? : Event Node → Option (Nat × List Node)
  | .taskMatched task nodes => some (task, nodes)
  | _ => none

def clonedTask? : Event Node → Option (Nat × Node)
  | .taskCloned task _ node => some (task, node)
  | _ => none

def taskClone? : Event Node → Option Nat
  | .taskCloned _ clone _ => some clone
  | _ => none

def enqueued? : Event Node → Option Nat
  | .enqueued task _ => some task
  | _ => none

end Event

namespace WorkflowInstance

variable {env : Environment Node} {context : Context Node} {before s s' s'' : WorkflowInstance Node}
variable {id x job : Nat} {task : TaskNode Node} {rest : List Nat}

/-- The events of a call. -/
def since (s before : WorkflowInstance Node) : List (Event Node) := s.trace.drop before.trace.length

theorem trace_eq (h : before.trace <+: s.trace) : s.trace = before.trace ++ s.since before :=
  (List.prefix_iff_eq_append.mp h).symm

/-! ## Calls that touch one task -/

/-- Only task `id` is touched, and these events are logged. -/
structure Touched (id : Nat) (events : List (Event Node)) (s s' : WorkflowInstance Node) : Prop where
  jobs : s'.doc.jobs = s.doc.jobs
  tasks : ∃ f : TaskNode Node → TaskNode Node, (∀ t, (f t).id = t.id ∧ (f t).job = t.job) ∧
    s'.doc.tasks = s.doc.tasks.map fun t ↦ if t.id = id then f t else t
  nextId : s'.doc.nextId = s.doc.nextId
  isCancelling : s'.isCancelling = s.isCancelling
  queued : ∃ more, s'.queued = s.queued ++ more ∧ ∀ x ∈ more, x = id
  trace : s'.trace = s.trace ++ events

variable {events events' : List (Event Node)}

theorem Touched.ids (h : Touched id events s s') :
    s'.doc.tasks.map TaskNode.id = s.doc.tasks.map TaskNode.id := by
  rcases h.tasks with ⟨f, hf, heq⟩
  rw [heq, List.map_map]
  apply List.map_congr_left
  intro t _
  show (if t.id = id then f t else t).id = t.id
  by_cases hid : t.id = id
  · rw [if_pos hid, (hf t).1]
  · rw [if_neg hid]

theorem Touched.others (h : Touched id events s s') {x : Nat} (hx : x ≠ id) :
    s'.doc.task? x = s.doc.task? x := by
  rcases h.tasks with ⟨f, hf, heq⟩
  have hset : s'.doc.task? x = (s.doc.setTask id f).task? x := by
    unfold Document.task?
    rw [heq]
    rfl
  rw [hset]
  exact Document.task?_setTask_of_ne (fun t ↦ (hf t).1) hx

theorem Touched.count_queued (h : Touched id events s s') {x : Nat} (hx : x ≠ id) :
    s'.queued.count x = s.queued.count x := by
  rcases h.queued with ⟨more, heq, hmore⟩
  rw [heq, List.count_append, List.count_eq_zero_of_not_mem fun hin ↦ hx (hmore x hin), Nat.add_zero]

theorem Touched.refl (id : Nat) (s : WorkflowInstance Node) : Touched id [] s s where
  jobs := rfl
  tasks := ⟨fun t ↦ t, fun _ ↦ ⟨rfl, rfl⟩, by simp⟩
  nextId := rfl
  isCancelling := rfl
  queued := ⟨[], (List.append_nil _).symm, nofun⟩
  trace := (List.append_nil _).symm

theorem Touched.trans (h : Touched id events s s') (h' : Touched id events' s' s'') :
    Touched id (events ++ events') s s'' := by
  constructor
  case jobs => rw [h'.jobs, h.jobs]
  case tasks =>
    rcases h.tasks with ⟨f, hf, heq⟩
    rcases h'.tasks with ⟨f', hf', heq'⟩
    refine ⟨fun t ↦ f' (f t), fun t ↦ ⟨(hf' _).1.trans (hf t).1, (hf' _).2.trans (hf t).2⟩, ?_⟩
    rw [heq', heq, List.map_map]
    apply List.map_congr_left
    intro t _
    by_cases hid : t.id = id
    · simp [hid, (hf t).1]
    · simp [hid]
  case nextId => rw [h'.nextId, h.nextId]
  case isCancelling => rw [h'.isCancelling, h.isCancelling]
  case queued =>
    rcases h.queued with ⟨more, heq, hmore⟩
    rcases h'.queued with ⟨more', heq', hmore'⟩
    refine ⟨more ++ more', by rw [heq', heq, List.append_assoc], ?_⟩
    intro x hx
    exact (List.mem_append.mp hx).elim (hmore x) (hmore' x)
  case trace => rw [h'.trace, h.trace, List.append_assoc]

theorem touched_log (id : Nat) (s : WorkflowInstance Node) (e : Event Node) :
    Touched id [e] s (s.log e) :=
  { Touched.refl id s with trace := rfl }

theorem touched_setTask {f : TaskNode Node → TaskNode Node}
    (hf : ∀ t, (f t).id = t.id ∧ (f t).job = t.job) : Touched id [] s (s.setTask id f) :=
  { Touched.refl id s with tasks := ⟨f, hf, rfl⟩ }

theorem touched_abortTask (error : String) : Touched id [] s (s.abortTask id error) := by
  have h : Touched id [] s (s.setTask id fun t ↦
      { t with
        status := some .aborted
        error := some error }) :=
    touched_setTask fun _ ↦ ⟨rfl, rfl⟩
  exact ⟨h.jobs, h.tasks, h.nextId, h.isCancelling, h.queued, h.trace⟩

theorem touched_enqueueTask (env : Environment Node) (s : WorkflowInstance Node) (id : Nat) :
    Touched id [] s (s.enqueueTask env id) := by
  rcases enqueueTask_cases env s id with heq | ⟨error, heq⟩ | heq
  · rw [heq]
    exact Touched.refl id s
  · rw [heq]
    exact touched_abortTask error
  · have h : Touched id [] s (s.setTask id fun t ↦ { t with status := some .queued }) :=
      touched_setTask fun _ ↦ ⟨rfl, rfl⟩
    rw [heq]
    exact ⟨h.jobs, h.tasks, h.nextId, h.isCancelling, ⟨[id], rfl, by simp⟩, h.trace⟩

theorem touched_replaceValue (env : Environment Node) (context : Context Node) (id : Nat)
    (s : WorkflowInstance Node) : Touched id [] s (replaceValue env id context s).1 := by
  apply replaceValue_induction env (P := Touched id [] s)
  · intro s' content h
    exact h.trans (touched_setTask fun _ ↦ ⟨rfl, rfl⟩)
  · exact Touched.refl id s

theorem touched_startTask (env : Environment Node) (s : WorkflowInstance Node)
    (task : TaskNode Node) :
    ∃ ready, Touched task.id [.enqueued task.id ready] s (s.startTask env task) := by
  refine ⟨s.doc.parentSuccessful task.job, ?_⟩
  unfold startTask
  generalize s.doc.parentSuccessful task.job = ready
  have hlog := touched_log task.id s (.enqueued task.id ready)
  have hqueue := touched_enqueueTask env (s.log (.enqueued task.id ready)) task.id
  exact hlog.trans hqueue

/-! ## The bodies of the loops of `run` -/

theorem task?_isSome : (s.doc.task? id).isSome = true ↔ id ∈ s.doc.tasks.map TaskNode.id := by
  unfold Document.task?
  rw [List.find?_isSome, List.mem_map]
  simp only [decide_eq_true_eq]

/-- A visit matches exactly the tasks with a loop, and enqueues the others. -/
theorem visitTask_spec (env : Environment Node) (context : Context Node) (id : Nat)
    (s : WorkflowInstance Node) :
    match visitTask env context id s with
    | .done s' => ∃ events, Touched id events s s' ∧
        (∀ e ∈ events, ∃ ready, e = .enqueued id ready) ∧ events.length ≤ 1 ∧
        ∀ task, s.doc.task? id = some task → task.status = some .terminated ∨ task.loop = none
    | .failed s' _ => Touched id [] s s'
    | .matched s' nodes => Touched id [.taskMatched id nodes] s s' ∧
        ∃ task, s.doc.task? id = some task ∧ task.loop.isSome ∧ task.status ≠ some .terminated ∧
          s'.doc.task? id = some { task with loop := none } := by
  unfold visitTask
  cases hfind : s.doc.task? id with
  | none =>
    dsimp only
    refine ⟨[], Touched.refl id s, by simp, by simp, ?_⟩
    intro task heq
    cases heq
  | some task =>
    dsimp only
    by_cases hstatus : task.status = some .terminated
    · rw [if_pos hstatus]
      refine ⟨[], Touched.refl id s, by simp, by simp, ?_⟩
      intro task' heq
      rw [Option.some.injEq] at heq
      rw [← heq]
      exact .inl hstatus
    · rw [if_neg hstatus]
      cases hloop : task.loop with
      | some loopXpath =>
        have htouched : Touched id [] s (s.setTask id fun t ↦ { t with loop := none }) :=
          touched_setTask fun _ ↦ ⟨rfl, rfl⟩
        have hset : (s.doc.setTask id fun t ↦ { t with loop := none }).task? id = _ :=
          Document.task?_setTask (f := fun t : TaskNode Node ↦ { t with loop := none })
            (fun _ ↦ rfl) id
        rw [hfind, Option.map_some, if_pos (task?_spec hfind).2] at hset
        replace hset : (s.setTask id fun t ↦ { t with loop := none }).doc.task? id = _ := hset
        dsimp only
        -- the attribute goes before the expression is evaluated, which may raise
        generalize (s.setTask id fun t ↦ { t with loop := none }) = t at htouched hset
        cases env.evaluate t.doc context loopXpath with
        | none => exact htouched.trans (touched_setTask fun _ ↦ ⟨rfl, rfl⟩)
        | some nodes =>
          refine ⟨htouched.trans (touched_log id t _), task, rfl, ?_, hstatus, hset⟩
          rw [hloop]
          rfl
      | none =>
        have htouched := touched_replaceValue env context id s
        dsimp only
        rcases hrun : replaceValue env id context s with ⟨t, _ | e⟩
        · rw [hrun] at htouched
          rcases touched_startTask env t task with ⟨ready, hstart⟩
          rw [(task?_spec hfind).2] at hstart
          refine ⟨_, htouched.trans hstart, ?_, by simp, ?_⟩
          · intro e he
            exact ⟨ready, List.mem_singleton.mp he⟩
          · intro task' heq
            rw [Option.some.injEq] at heq
            rw [← heq]
            exact .inr hloop
        · rw [hrun] at htouched
          exact htouched

/-- An expansion adds a clone, and enqueues it when its values can be computed. -/
theorem expandTask_spec (env : Environment Node) (node : Node)
    (hopen : id ∈ s.doc.tasks.map TaskNode.id) :
    ∃ task, s.doc.task? id = some task ∧
      match expandTask env id node s with
      | (s', none) => ∃ ready, Touched s.doc.nextId
          [.taskCloned id s.doc.nextId node, .enqueued s.doc.nextId ready]
          { s with doc := s.doc.cloneTask task } s'
      | (s', some _) => Touched s.doc.nextId [.taskCloned id s.doc.nextId node]
          { s with doc := s.doc.cloneTask task } s' := by
  rw [← task?_isSome, Option.isSome_iff_exists] at hopen
  rcases hopen with ⟨task, hfind⟩
  refine ⟨task, hfind, ?_⟩
  have hlog := touched_log s.doc.nextId { s with doc := s.doc.cloneTask task }
    (.taskCloned id s.doc.nextId node)
  unfold expandTask
  rw [hfind]
  dsimp only
  generalize ({ s with doc := s.doc.cloneTask task }.log
    (.taskCloned id s.doc.nextId node)) = t at hlog
  have htouched := hlog.trans (touched_replaceValue env (.matched node) s.doc.nextId t)
  rcases hrun : replaceValue env s.doc.nextId (.matched node) t with ⟨u, _ | e⟩
  · rw [hrun] at htouched
    rcases touched_startTask env u { task with id := s.doc.nextId } with ⟨ready, hstart⟩
    exact ⟨ready, htouched.trans hstart⟩
  · rw [hrun] at htouched
    exact htouched

theorem taskLoop_logs (env : Environment Node) (context : Context Node) :
    SnapshotLoop.Logs (taskLoop env context) (fun s ↦ s.trace.filterMap Event.matchedTask?)
      (fun s ↦ s.trace.filterMap Event.clonedTask?)
      (fun id s ↦ id ∈ s.doc.tasks.map TaskNode.id) := by
  constructor
  case done =>
    intro id s s' hvisit
    have hspec := visitTask_spec env context id s
    rw [show visitTask env context id s = _ from hvisit] at hspec
    rcases hspec with ⟨events, htouched, hevents, -⟩
    -- a task without loop only logs that it was enqueued
    have hnone {α : Type} (f : Event Node → Option α) (hf : ∀ ready, f (.enqueued id ready) = none) :
        events.filterMap f = [] := by
      rw [List.filterMap_eq_nil_iff]
      intro e he
      rcases hevents e he with ⟨ready, heq⟩
      rw [heq]
      exact hf ready
    rw [htouched.trace, List.filterMap_append, List.filterMap_append, hnone _ fun _ ↦ rfl,
      hnone _ fun _ ↦ rfl, List.append_nil, List.append_nil]
    exact ⟨rfl, rfl⟩
  case failed =>
    intro id s s' e hvisit
    have hspec := visitTask_spec env context id s
    rw [show visitTask env context id s = _ from hvisit] at hspec
    have htrace := hspec.trace
    rw [List.append_nil] at htrace
    rw [htrace]
  case visit =>
    intro id s s' nodes hvisit
    have hspec := visitTask_spec env context id s
    rw [show visitTask env context id s = _ from hvisit] at hspec
    rcases hspec with ⟨htouched, task, hfind, -⟩
    rw [htouched.trace, List.filterMap_append, List.filterMap_append, htouched.ids]
    refine ⟨rfl, List.append_nil _, ?_⟩
    rw [← task?_isSome, hfind]
    rfl
  case expand =>
    intro id node s s' hopen hexpand
    rcases expandTask_spec env node hopen with ⟨task, hfind, hspec⟩
    rw [show expandTask env id node s = _ from hexpand] at hspec
    rcases hspec with ⟨ready, htouched⟩
    have htrace : s'.trace = s.trace ++ _ := htouched.trace
    have hids : s'.doc.tasks.map TaskNode.id = (s.doc.cloneTask task).tasks.map TaskNode.id :=
      htouched.ids
    rw [htrace, List.filterMap_append, List.filterMap_append, hids]
    refine ⟨List.append_nil _, rfl, ?_⟩
    unfold Document.cloneTask
    rw [List.map_append]
    exact List.mem_append_left _ hopen
  case expandFailed =>
    intro id node s s' e hopen hexpand
    rcases expandTask_spec env node hopen with ⟨task, hfind, hspec⟩
    rw [show expandTask env id node s = _ from hexpand] at hspec
    have htrace : s'.trace = s.trace ++ _ := hspec.trace
    rw [htrace, List.filterMap_append]
    exact List.append_nil _
  case finish => exact fun _ _ ↦ ⟨rfl, rfl⟩

/-! ## Every looped task is matched once, and every clone enqueued once -/

/-- Between two visits of a call of `run` that was made in the state `before`, with the tasks `all`:
`rest` is still to be visited, and `pending` is being expanded. -/
structure Expanding (before : WorkflowInstance Node) (all pending rest : List Nat)
    (s : WorkflowInstance Node) : Prop where
  grown : before.trace <+: s.trace
  nextId : before.doc.nextId ≤ s.doc.nextId
  bound : ∀ x ∈ s.doc.tasks.map TaskNode.id, x < s.doc.nextId
  nodup : (pending ++ rest).Nodup
  older : ∀ x ∈ all, x < before.doc.nextId
  subset : ∀ x ∈ pending ++ rest, x ∈ all
  same : ∀ x ∈ rest, s.doc.task? x = before.doc.task? x
  matched : ∀ x nodes, .taskMatched x nodes ∈ s.since before → ∃ task,
    before.doc.task? x = some task ∧ task.loop.isSome ∧ task.status ≠ some .terminated
  settled : ∀ x ∈ all, x ∈ rest ∨
    (∀ task, before.doc.task? x = some task → task.status = some .terminated ∨ task.loop = none) ∨
    ((∃ nodes, .taskMatched x nodes ∈ s.since before) ∧
      (x ∈ pending ∨ x ∉ s.doc.tasks.map TaskNode.id))
  cloned : ∀ x clone node, .taskCloned x clone node ∈ s.since before →
    clone ∈ (s.since before).filterMap Event.enqueued?
  once : ((s.since before).filterMap Event.enqueued?).Nodup
  enqueued : ∀ x ∈ (s.since before).filterMap Event.enqueued?,
    x < s.doc.nextId ∧ x ∉ pending ++ rest

theorem since_touched (h : before.trace <+: s.trace) (htouched : Touched id events s s') :
    s'.since before = s.since before ++ events := by
  unfold since
  rw [htouched.trace]
  exact List.drop_append_of_le_length h.length_le

variable {all pending : List Nat}

/-- A visit that matches nothing leaves the task behind. -/
theorem Expanding.done (h : Expanding before all [] (x :: rest) s) (htouched : Touched x events s s')
    (hevents : ∀ e ∈ events, ∃ ready, e = .enqueued x ready) (hlength : events.length ≤ 1)
    (hplain : ∀ task, s.doc.task? x = some task →
      task.status = some .terminated ∨ task.loop = none) : Expanding before all [] rest s' := by
  have hsince := since_touched h.grown htouched
  have hnotin : x ∉ rest := (List.nodup_cons.mp h.nodup).1
  have hold (e : Event Node) (he : e ∈ s'.since before) (hne : ∀ ready, e ≠ .enqueued x ready) :
      e ∈ s.since before := by
    rw [hsince] at he
    rcases List.mem_append.mp he with he | he
    · exact he
    · rcases hevents e he with ⟨ready, heq⟩
      exact absurd heq (hne ready)
  -- the visit has enqueued the task once, or not at all
  have henqueued : (s'.since before).filterMap Event.enqueued? =
        (s.since before).filterMap Event.enqueued? ∨
      (s'.since before).filterMap Event.enqueued? =
        (s.since before).filterMap Event.enqueued? ++ [x] := by
    rw [hsince, List.filterMap_append]
    match events, hlength, hevents with
    | [], _, _ => exact .inl (List.append_nil _)
    | [e], _, hevents =>
      rcases hevents e List.mem_cons_self with ⟨ready, heq⟩
      rw [heq]
      exact .inr rfl
  have hfresh : x ∉ (s.since before).filterMap Event.enqueued? := by
    intro hin
    exact (h.enqueued x hin).2 List.mem_cons_self
  have hxbound : x < s.doc.nextId :=
    Nat.lt_of_lt_of_le (h.older x (h.subset x List.mem_cons_self)) h.nextId
  constructor
  case grown =>
    rw [htouched.trace]
    exact h.grown.trans (List.prefix_append _ _)
  case nextId =>
    rw [htouched.nextId]
    exact h.nextId
  case bound =>
    rw [htouched.ids, htouched.nextId]
    exact h.bound
  case nodup => exact (List.nodup_cons.mp h.nodup).2
  case older => exact h.older
  case subset => exact fun y hy ↦ h.subset y (List.mem_cons_of_mem _ hy)
  case same =>
    intro y hy
    rw [htouched.others fun heq ↦ hnotin (heq ▸ hy)]
    exact h.same y (List.mem_cons_of_mem _ hy)
  case matched =>
    intro y nodes hy
    exact h.matched y nodes (hold _ hy nofun)
  case settled =>
    intro y hy
    -- `x` was terminated or not looped; any other task is where it was
    rcases h.settled y hy with hrest | hplain' | ⟨⟨nodes, hmatched⟩, hgone⟩
    · rcases List.mem_cons.mp hrest with heq | hrest
      · rw [heq, ← h.same x List.mem_cons_self]
        exact .inr (.inl hplain)
      · exact .inl hrest
    · exact .inr (.inl hplain')
    · rw [htouched.ids, hsince]
      exact .inr (.inr ⟨⟨nodes, List.mem_append_left _ hmatched⟩, hgone⟩)
  case cloned =>
    intro y clone node hy
    have hin := h.cloned y clone node (hold _ hy nofun)
    rcases henqueued with heq | heq
    · rw [heq]
      exact hin
    · rw [heq]
      exact List.mem_append_left _ hin
  case once =>
    rcases henqueued with heq | heq
    · rw [heq]
      exact h.once
    · rw [heq]
      exact nodup_snoc h.once hfresh
  case enqueued =>
    intro y hy
    rw [htouched.nextId]
    have hy : y ∈ (s.since before).filterMap Event.enqueued? ∨ y = x := by
      rcases henqueued with heq | heq
      · rw [heq] at hy
        exact .inl hy
      · rw [heq, List.mem_append, List.mem_singleton] at hy
        exact hy
    rcases hy with hy | heq
    · have hin := h.enqueued y hy
      exact ⟨hin.1, fun hrest ↦ hin.2 (List.mem_cons_of_mem _ hrest)⟩
    · rw [heq]
      exact ⟨hxbound, hnotin⟩

/-- A visit that matches opens the task for its expansion. -/
theorem Expanding.opened {nodes : List Node} (h : Expanding before all [] (x :: rest) s)
    (htouched : Touched x [.taskMatched x nodes] s s')
    (hlooped : ∃ task, s.doc.task? x = some task ∧ task.loop.isSome ∧
      task.status ≠ some .terminated) : Expanding before all [x] rest s' := by
  have hsince := since_touched h.grown htouched
  have hnotin : x ∉ rest := (List.nodup_cons.mp h.nodup).1
  have hold (e : Event Node) (he : e ∈ s'.since before) (hne : e ≠ .taskMatched x nodes) :
      e ∈ s.since before := by
    rw [hsince] at he
    rcases List.mem_append.mp he with he | he
    · exact he
    · exact absurd (List.mem_singleton.mp he) hne
  have henqueued : (s'.since before).filterMap Event.enqueued? =
      (s.since before).filterMap Event.enqueued? := by
    rw [hsince, List.filterMap_append]
    exact List.append_nil _
  constructor
  case grown =>
    rw [htouched.trace]
    exact h.grown.trans (List.prefix_append _ _)
  case nextId =>
    rw [htouched.nextId]
    exact h.nextId
  case bound =>
    rw [htouched.ids, htouched.nextId]
    exact h.bound
  case nodup => exact h.nodup
  case older => exact h.older
  case subset => exact h.subset
  case same =>
    intro y hy
    rw [htouched.others fun heq ↦ hnotin (heq ▸ hy)]
    exact h.same y (List.mem_cons_of_mem _ hy)
  case matched =>
    intro y nodes' hy
    by_cases heq : (.taskMatched y nodes' : Event Node) = .taskMatched x nodes
    · simp only [Event.taskMatched.injEq] at heq
      rw [heq.1, ← h.same x List.mem_cons_self]
      exact hlooped
    · exact h.matched y nodes' (hold _ hy heq)
  case settled =>
    intro y hy
    have hmatched : (.taskMatched x nodes : Event Node) ∈ s'.since before := by
      rw [hsince]
      exact List.mem_append_right _ List.mem_cons_self
    -- `x` leaves the rest: it is now matched, and its template is still in the document
    rcases h.settled y hy with hrest | hplain | ⟨⟨nodes', hmatched'⟩, hgone⟩
    · rcases List.mem_cons.mp hrest with heq | hrest
      · rw [heq]
        exact .inr (.inr ⟨⟨nodes, hmatched⟩, .inl List.mem_cons_self⟩)
      · exact .inl hrest
    · exact .inr (.inl hplain)
    · rw [htouched.ids, hsince]
      refine .inr (.inr ⟨⟨nodes', List.mem_append_left _ hmatched'⟩, ?_⟩)
      exact hgone.imp nofun id
  case cloned =>
    intro y clone node hy
    rw [henqueued]
    exact h.cloned y clone node (hold _ hy nofun)
  case once =>
    rw [henqueued]
    exact h.once
  case enqueued =>
    rw [henqueued, htouched.nextId]
    exact h.enqueued

/-- An expansion adds one clone, and enqueues it. -/
theorem Expanding.expand {node : Node} {ready : Bool} (h : Expanding before all [x] rest s)
    (htouched : Touched s.doc.nextId
      [.taskCloned x s.doc.nextId node, .enqueued s.doc.nextId ready]
      { s with doc := s.doc.cloneTask task } s') : Expanding before all [x] rest s' := by
  have hsince : s'.since before = s.since before ++
      [.taskCloned x s.doc.nextId node, .enqueued s.doc.nextId ready] :=
    since_touched (s := { s with doc := s.doc.cloneTask task }) h.grown htouched
  have hnext : s'.doc.nextId = s.doc.nextId + 1 := htouched.nextId
  have hids : s'.doc.tasks.map TaskNode.id = s.doc.tasks.map TaskNode.id ++ [s.doc.nextId] := by
    rw [htouched.ids]
    show (s.doc.tasks ++ [{ task with id := s.doc.nextId }]).map TaskNode.id = _
    rw [List.map_append]
    rfl
  have hnew : ∀ y ∈ [x] ++ rest, y < s.doc.nextId := by
    intro y hy
    exact Nat.lt_of_lt_of_le (h.older y (h.subset y hy)) h.nextId
  have henqueued : (s'.since before).filterMap Event.enqueued? =
      (s.since before).filterMap Event.enqueued? ++ [s.doc.nextId] := by
    rw [hsince, List.filterMap_append]
    rfl
  -- the events of earlier turns
  have hold (e : Event Node) (he : e ∈ s'.since before)
      (hcloned : e ≠ .taskCloned x s.doc.nextId node) (hne : e ≠ .enqueued s.doc.nextId ready) :
      e ∈ s.since before := by
    rw [hsince] at he
    simp only [List.mem_append, List.mem_cons, List.not_mem_nil, or_false] at he
    rcases he with he | heq | heq
    · exact he
    · exact absurd heq hcloned
    · exact absurd heq hne
  constructor
  case grown =>
    rw [htouched.trace]
    exact h.grown.trans (List.prefix_append _ _)
  case nextId =>
    rw [hnext]
    exact Nat.le_succ_of_le h.nextId
  case bound =>
    rw [hids, hnext]
    intro y hy
    rw [List.mem_append, List.mem_singleton] at hy
    rcases hy with hy | heq
    · exact Nat.lt_succ_of_lt (h.bound y hy)
    · omega
  case nodup => exact h.nodup
  case older => exact h.older
  case subset => exact h.subset
  case same =>
    intro y hy
    have hyin : y ∈ [x] ++ rest := List.mem_append_right _ hy
    -- the tasks still to be visited are older than the clone
    have hne : y ≠ s.doc.nextId := Nat.ne_of_lt (hnew y hyin)
    rw [htouched.others hne, ← h.same y hy]
    show (s.doc.tasks ++ [{ task with id := s.doc.nextId }]).find? _ = s.doc.tasks.find? _
    rw [List.find?_append, List.find?_singleton, if_neg, Option.or_none]
    rw [decide_eq_true_eq]
    exact Ne.symm hne
  case matched =>
    intro y nodes hy
    exact h.matched y nodes (hold _ hy nofun nofun)
  case settled =>
    intro y hy
    rcases h.settled y hy with hrest | hplain | ⟨⟨nodes, hmatched⟩, hgone⟩
    · exact .inl hrest
    · exact .inr (.inl hplain)
    · rw [hids, hsince]
      refine .inr (.inr ⟨⟨nodes, List.mem_append_left _ hmatched⟩, ?_⟩)
      apply hgone.imp id
      intro hnot hin
      rw [List.mem_append, List.mem_singleton] at hin
      rcases hin with hin | heq
      · exact hnot hin
      · have holder := Nat.lt_of_lt_of_le (h.older y hy) h.nextId
        omega
  case cloned =>
    intro y clone node' hy
    rw [henqueued]
    by_cases heq : (.taskCloned y clone node' : Event Node) = .taskCloned x s.doc.nextId node
    · simp only [Event.taskCloned.injEq] at heq
      rw [heq.2.1]
      exact List.mem_append_right _ List.mem_cons_self
    · exact List.mem_append_left _ (h.cloned y clone node' (hold _ hy heq nofun))
  case once =>
    rw [henqueued]
    -- the number of the clone is new
    apply nodup_snoc h.once
    intro hin
    exact absurd (h.enqueued _ hin).1 (Nat.lt_irrefl _)
  case enqueued =>
    rw [henqueued, hnext]
    intro y hy
    rw [List.mem_append, List.mem_singleton] at hy
    rcases hy with hy | heq
    · have hin := h.enqueued y hy
      exact ⟨Nat.lt_succ_of_lt hin.1, hin.2⟩
    · refine ⟨by omega, ?_⟩
      intro hin
      have hlt := hnew y hin
      omega

/-- Behind the expansion the task is removed. -/
theorem Expanding.closed (h : Expanding before all [x] rest s) :
    Expanding before all [] rest { s with doc := s.doc.removeTask x } := by
  have hids : (s.doc.removeTask x).tasks.map TaskNode.id =
      (s.doc.tasks.map TaskNode.id).filter fun y ↦ y ≠ x := by
    unfold Document.removeTask
    rw [List.filter_map]
    rfl
  have hnotin : x ∉ rest := (List.nodup_cons.mp h.nodup).1
  constructor
  case grown => exact h.grown
  case nextId => exact h.nextId
  case bound =>
    intro y hy
    rw [hids] at hy
    exact h.bound y (List.mem_of_mem_filter hy)
  case nodup => exact (List.nodup_cons.mp h.nodup).2
  case older => exact h.older
  case subset => exact fun y hy ↦ h.subset y (List.mem_cons_of_mem _ hy)
  case same =>
    intro y hy
    rw [← h.same y hy]
    show (s.doc.tasks.filter _).find? _ = s.doc.tasks.find? _
    rw [List.find?_filter]
    congr 1
    funext t
    have hne : y ≠ x := fun heq ↦ hnotin (heq ▸ hy)
    by_cases heq : t.id = y
    · simp [heq, hne]
    · simp [heq]
  case matched => exact h.matched
  case settled =>
    intro y hy
    rcases h.settled y hy with hrest | hplain | ⟨hmatched, hgone⟩
    · exact .inl hrest
    · exact .inr (.inl hplain)
    · refine .inr (.inr ⟨hmatched, .inr ?_⟩)
      intro hin
      rw [hids, List.mem_filter] at hin
      rcases hgone with hpending | hgone
      · rw [List.mem_singleton.mp hpending] at hin
        simp at hin
      · exact hgone hin.1
  case cloned => exact h.cloned
  case once => exact h.once
  case enqueued =>
    intro y hy
    have hin := h.enqueued y hy
    exact ⟨hin.1, fun hrest ↦ hin.2 (List.mem_cons_of_mem _ hrest)⟩

/-! ## What the clones are -/

/-- A clone of a looped task: the task as it was found before, without its loop and with its parameters
computed for the node, was put into its queue once, or aborted. -/
def IsClone (env : Environment Node) (before s : WorkflowInstance Node) (task : TaskNode Node)
    (clone : Nat) (node : Node) : Prop :=
  ∃ content, Filled env (.matched node) task.content content ∧
    s.doc.task? clone =
      some (admitted env before.isCancelling { task with id := clone, loop := none, content }).1 ∧
    s.queued.count clone = before.queued.count clone +
      (admitted env before.isCancelling { task with id := clone, loop := none, content }).2

theorem IsClone.touched {clone : Nat} {node : Node} (h : IsClone env before s task clone node)
    (htouched : Touched id events s s') (hne : clone ≠ id) : IsClone env before s' task clone node := by
  rcases h with ⟨content, hfilled, hfind, hcount⟩
  refine ⟨content, hfilled, ?_, ?_⟩
  · rw [htouched.others hne]
    exact hfind
  · rw [htouched.count_queued hne]
    exact hcount

/-- The tasks that were matched since. -/
def matchedSince (before s : WorkflowInstance Node) : List Nat :=
  ((s.since before).filterMap Event.matchedTask?).map Prod.fst

def clonesSince (before s : WorkflowInstance Node) : List Nat :=
  (s.since before).filterMap Event.taskClone?

/-- The document has the tasks of the state `before` that were not expanded since, and behind them the
clones, in the order of their nodes. -/
structure Cloning (env : Environment Node) (before : WorkflowInstance Node) (pending : List Nat)
    (s : WorkflowInstance Node) : Prop where
  isCancelling : s.isCancelling = before.isCancelling
  queued : ∀ x, s.doc.nextId ≤ x → s.queued.count x = before.queued.count x
  opened : ∀ x ∈ pending, ∃ task, before.doc.task? x = some task ∧
    s.doc.task? x = some { task with loop := none } ∧ x ∈ matchedSince before s
  new : ∀ x ∈ clonesSince before s, before.doc.nextId ≤ x ∧ x < s.doc.nextId
  clones : ∀ x clone node, .taskCloned x clone node ∈ s.since before →
    ∃ task, before.doc.task? x = some task ∧ IsClone env before s task clone node
  ids : s.doc.tasks.map TaskNode.id = ((before.doc.tasks.map TaskNode.id).filter fun x ↦
    x ∈ pending ∨ x ∉ matchedSince before s) ++ clonesSince before s

theorem mem_clonesSince {x clone : Nat} {node : Node}
    (h : .taskCloned x clone node ∈ s.since before) : clone ∈ clonesSince before s :=
  List.mem_filterMap.mpr ⟨_, h, rfl⟩

/-- A visit that clones nothing. -/
theorem Cloning.touched (h : Cloning env before [] s) (htouched : Touched x events s s')
    (hsince : s'.since before = s.since before ++ events) (hold : x < before.doc.nextId)
    (hnext : before.doc.nextId ≤ s.doc.nextId) (hevents : events.filterMap Event.taskClone? = [])
    (hids : ((before.doc.tasks.map TaskNode.id).filter fun y ↦
      y ∈ pending ∨ y ∉ matchedSince before s') =
        (before.doc.tasks.map TaskNode.id).filter fun y ↦ y ∉ matchedSince before s)
    (hopened : ∀ y ∈ pending, ∃ task, before.doc.task? y = some task ∧
      s'.doc.task? y = some { task with loop := none } ∧ y ∈ matchedSince before s') :
    Cloning env before pending s' := by
  have hclones : clonesSince before s' = clonesSince before s := by
    unfold clonesSince
    rw [hsince, List.filterMap_append, hevents, List.append_nil]
  constructor
  case isCancelling => rw [htouched.isCancelling, h.isCancelling]
  case queued =>
    intro y hy
    rw [htouched.nextId] at hy
    rw [htouched.count_queued (by omega)]
    exact h.queued y hy
  case opened => exact hopened
  case new =>
    rw [hclones, htouched.nextId]
    exact h.new
  case clones =>
    intro y clone node hy
    rw [hsince] at hy
    rcases List.mem_append.mp hy with hy | hy
    · rcases h.clones y clone node hy with ⟨task, hfind, hclone⟩
      have hnew := (h.new clone (mem_clonesSince hy)).1
      exact ⟨task, hfind, hclone.touched htouched (by omega)⟩
    · have hin : clone ∈ events.filterMap Event.taskClone? :=
        List.mem_filterMap.mpr ⟨_, hy, rfl⟩
      rw [hevents] at hin
      cases hin
  case ids =>
    rw [htouched.ids, h.ids, hclones, hids]
    simp

theorem Cloning.done (h : Cloning env before [] s) (htouched : Touched x events s s')
    (hsince : s'.since before = s.since before ++ events) (hold : x < before.doc.nextId)
    (hnext : before.doc.nextId ≤ s.doc.nextId)
    (hevents : ∀ e ∈ events, ∃ ready, e = .enqueued x ready) : Cloning env before [] s' := by
  have hnone {α : Type} (f : Event Node → Option α) (hf : ∀ ready, f (.enqueued x ready) = none) :
      events.filterMap f = [] := by
    rw [List.filterMap_eq_nil_iff]
    intro e he
    rcases hevents e he with ⟨ready, heq⟩
    rw [heq]
    exact hf ready
  have hmatched : matchedSince before s' = matchedSince before s := by
    unfold matchedSince
    rw [hsince, List.filterMap_append, hnone _ fun _ ↦ rfl, List.append_nil]
  apply h.touched htouched hsince hold hnext (hnone _ fun _ ↦ rfl)
  · rw [hmatched]
    simp
  · exact nofun

theorem Cloning.openTask {nodes : List Node} (h : Cloning env before [] s)
    (htouched : Touched x [.taskMatched x nodes] s s')
    (hsince : s'.since before = s.since before ++ [.taskMatched x nodes])
    (hold : x < before.doc.nextId) (hnext : before.doc.nextId ≤ s.doc.nextId)
    (hfind : s.doc.task? x = some task) (hsame : s.doc.task? x = before.doc.task? x)
    (hloop : s'.doc.task? x = some { task with loop := none }) : Cloning env before [x] s' := by
  have hmatched : matchedSince before s' = matchedSince before s ++ [x] := by
    unfold matchedSince
    rw [hsince, List.filterMap_append, List.map_append]
    rfl
  -- the task is in the document, so it was not matched before
  have hnot : x ∉ matchedSince before s := by
    have hin : x ∈ s.doc.tasks.map TaskNode.id := by
      rw [← task?_isSome, hfind]
      rfl
    rw [h.ids, List.mem_append] at hin
    rcases hin with hin | hin
    · simpa using (List.mem_filter.mp hin).2
    · have hnew := (h.new x hin).1
      omega
  apply h.touched htouched hsince hold hnext rfl
  · apply List.filter_congr
    intro y _
    rw [hmatched]
    by_cases heq : y = x
    · simp [heq, hnot]
    · simp [heq]
  · intro y hy
    rw [List.mem_singleton.mp hy, hmatched]
    exact ⟨task, by rw [← hsame, hfind], hloop, List.mem_append_right _ List.mem_cons_self⟩

theorem Cloning.expand {node : Node} {ready : Bool} (h : Cloning env before [x] s)
    (hfind : s.doc.task? x = some task) (hbound : ∀ t ∈ s.doc.tasks, t.id < s.doc.nextId)
    (hold : x < before.doc.nextId) (hnext : before.doc.nextId ≤ s.doc.nextId)
    (htouched : Touched s.doc.nextId
      [.taskCloned x s.doc.nextId node, .enqueued s.doc.nextId ready]
      { s with doc := s.doc.cloneTask task } s')
    (hsince : s'.since before = s.since before ++
      [.taskCloned x s.doc.nextId node, .enqueued s.doc.nextId ready])
    (hexpand : expandTask env x node s = (s', none)) : Cloning env before [x] s' := by
  have hclones : clonesSince before s' = clonesSince before s ++ [s.doc.nextId] := by
    unfold clonesSince
    rw [hsince, List.filterMap_append]
    rfl
  have hmatched : matchedSince before s' = matchedSince before s := by
    unfold matchedSince
    rw [hsince, List.filterMap_append]
    simp [Event.matchedTask?]
  have hnextId : s'.doc.nextId = s.doc.nextId + 1 := htouched.nextId
  -- the clone gets the next free id, so nothing older is touched
  have hkept {y : Nat} (hy : y < s.doc.nextId) : s'.doc.task? y = s.doc.task? y := by
    rw [htouched.others (Nat.ne_of_lt hy)]
    show (s.doc.tasks ++ [{ task with id := s.doc.nextId }]).find? _ = s.doc.tasks.find? _
    rw [List.find?_append, List.find?_singleton, if_neg, Option.or_none]
    rw [decide_eq_true_eq]
    exact Nat.ne_of_gt hy
  have hqueued {y : Nat} (hy : y ≠ s.doc.nextId) : s'.queued.count y = s.queued.count y :=
    htouched.count_queued hy
  rcases h.opened x List.mem_cons_self with ⟨template, hbefore, hopened, hin⟩
  constructor
  case isCancelling =>
    have hsame : s'.isCancelling = s.isCancelling := htouched.isCancelling
    rw [hsame, h.isCancelling]
  case queued =>
    intro y hy
    rw [hqueued (by omega)]
    exact h.queued y (by omega)
  case opened =>
    intro y hy
    rw [List.mem_singleton.mp hy, hkept (Nat.lt_of_lt_of_le hold hnext), hmatched]
    exact ⟨template, hbefore, hopened, hin⟩
  case new =>
    rw [hclones, hnextId]
    intro y hy
    rw [List.mem_append, List.mem_singleton] at hy
    rcases hy with hy | heq
    · have hnew := h.new y hy
      exact ⟨hnew.1, Nat.lt_succ_of_lt hnew.2⟩
    · omega
  case clones =>
    intro y clone node' hy
    rw [hsince] at hy
    simp only [List.mem_append, List.mem_cons, List.not_mem_nil, or_false, reduceCtorEq] at hy
    rcases hy with hy | hy
    · rcases h.clones y clone node' hy with ⟨t, ht, content, hfilled, htask, hcount⟩
      have hlt := (h.new clone (mem_clonesSince hy)).2
      refine ⟨t, ht, content, hfilled, ?_, ?_⟩
      · rw [hkept hlt, htask]
      · rw [hqueued (Nat.ne_of_lt hlt), hcount]
    · -- the new clone
      rw [Event.taskCloned.injEq] at hy
      rcases expandTask_clone hfind hbound hexpand with ⟨content, hfilled, htask, hcount⟩
      rw [hopened, Option.some.injEq] at hfind
      rw [hy.1, hy.2.1, hy.2.2]
      rw [h.isCancelling] at htask hcount
      rw [h.queued _ (Nat.le_refl _)] at hcount
      rw [← hfind] at hfilled htask hcount
      exact ⟨template, hbefore, content, hfilled, htask, hcount⟩
  case ids =>
    have hids : s'.doc.tasks.map TaskNode.id = s.doc.tasks.map TaskNode.id ++ [s.doc.nextId] := by
      rw [htouched.ids]
      exact List.map_append
    rw [hids, h.ids, hclones, hmatched, List.append_assoc]

/-- The looped task is removed, and the clones stay. -/
theorem Cloning.closed (h : Cloning env before [x] s) (hold : x < before.doc.nextId) :
    Cloning env before [] { s with doc := s.doc.removeTask x } := by
  have hkept {y : Nat} (hy : y ≠ x) : (s.doc.removeTask x).task? y = s.doc.task? y := by
    show (s.doc.tasks.filter _).find? _ = s.doc.tasks.find? _
    rw [List.find?_filter]
    congr 1
    funext t
    by_cases heq : t.id = y
    · simp [heq, hy]
    · simp [heq]
  constructor
  case isCancelling => exact h.isCancelling
  case queued => exact h.queued
  case opened => exact nofun
  case new => exact h.new
  case clones =>
    intro y clone node hy
    rcases h.clones y clone node hy with ⟨t, ht, content, hfilled, htask, hcount⟩
    have hnew := (h.new clone (mem_clonesSince hy)).1
    refine ⟨t, ht, content, hfilled, ?_, hcount⟩
    rw [← htask]
    exact hkept (by omega)
  case ids =>
    rcases h.opened x List.mem_cons_self with ⟨-, -, -, hin⟩
    have hclones : (clonesSince before s).filter (fun y ↦ y ≠ x) = clonesSince before s := by
      rw [List.filter_eq_self]
      intro y hy
      have hnew := (h.new y hy).1
      rw [decide_eq_true_eq]
      omega
    have hids : (s.doc.removeTask x).tasks.map TaskNode.id =
        (s.doc.tasks.map TaskNode.id).filter fun y ↦ y ≠ x := by
      unfold Document.removeTask
      rw [List.filter_map]
      rfl
    show (s.doc.removeTask x).tasks.map TaskNode.id = (_ : List Nat).filter _ ++ clonesSince before s
    rw [hids, h.ids, List.filter_append, hclones, List.filter_filter]
    congr 1
    apply List.filter_congr
    intro y _
    show _ = decide (y ∈ [] ∨ y ∉ matchedSince before s)
    by_cases heq : y = x
    · simp [heq, hin]
    · simp [heq]

/-- Whatever the rule for the position is, the loop of `run` goes from state to state like this. -/
theorem taskLoop_expanding (env : Environment Node) (context : Context Node)
    (before : WorkflowInstance Node) (all : List Nat) :
    SnapshotLoop.Keeps (taskLoop env context)
      (fun rest s ↦ Expanding before all [] rest s ∧ Cloning env before [] s)
      (fun x rest s ↦ Expanding before all [x] rest s ∧ Cloning env before [x] s)
      (fun s ↦ before.trace <+: s.trace) := by
  have holder {x : Nat} {pending rest : List Nat} {s : WorkflowInstance Node}
      (h : Expanding before all pending rest s) (hx : x ∈ pending ++ rest) :
      x < before.doc.nextId := h.older x (h.subset x hx)
  -- the template stays in the document until its list is read
  have hopen {x : Nat} {s : WorkflowInstance Node} (h : Cloning env before [x] s) :
      x ∈ s.doc.tasks.map TaskNode.id := by
    rcases h.opened x List.mem_cons_self with ⟨task, -, hfind, -⟩
    rw [← task?_isSome, hfind]
    rfl
  constructor
  case done =>
    intro x rest s s' h hvisit
    have hspec := visitTask_spec env context x s
    rw [show visitTask env context x s = _ from hvisit] at hspec
    rcases hspec with ⟨events, htouched, hevents, hlength, hplain⟩
    refine ⟨h.1.done htouched hevents hlength hplain, ?_⟩
    exact h.2.done htouched (since_touched h.1.grown htouched) (holder h.1 List.mem_cons_self)
      h.1.nextId hevents
  case failed =>
    intro x rest s s' e h hvisit
    have hspec := visitTask_spec env context x s
    rw [show visitTask env context x s = _ from hvisit] at hspec
    have htouched : Touched x [] s s' := hspec
    rw [htouched.trace]
    exact h.1.grown.trans (List.prefix_append _ _)
  case matched =>
    intro x rest s s' nodes h hvisit
    have hspec := visitTask_spec env context x s
    rw [show visitTask env context x s = _ from hvisit] at hspec
    rcases hspec with ⟨htouched, task, hfind, hlooped, hstatus, hloop⟩
    refine ⟨h.1.opened htouched ⟨task, hfind, hlooped, hstatus⟩, ?_⟩
    exact h.2.openTask htouched (since_touched h.1.grown htouched)
      (holder h.1 List.mem_cons_self) h.1.nextId hfind (h.1.same x List.mem_cons_self) hloop
  case expand =>
    intro x rest node s s' h hexpand
    rcases expandTask_spec env node (hopen h.2) with ⟨task, hfind, hspec⟩
    rw [show expandTask env x node s = _ from hexpand] at hspec
    rcases hspec with ⟨ready, htouched⟩
    have hbound : ∀ t ∈ s.doc.tasks, t.id < s.doc.nextId :=
      fun t ht ↦ h.1.bound t.id (List.mem_map_of_mem ht)
    refine ⟨h.1.expand htouched, ?_⟩
    exact h.2.expand hfind hbound (holder h.1 List.mem_cons_self) h.1.nextId htouched
      (since_touched (s := { s with doc := s.doc.cloneTask task }) h.1.grown htouched) hexpand
  case expandFailed =>
    intro x rest node s s' e h hexpand
    rcases expandTask_spec env node (hopen h.2) with ⟨task, hfind, hspec⟩
    rw [show expandTask env x node s = _ from hexpand] at hspec
    have htrace : s'.trace = s.trace ++ _ := hspec.trace
    rw [htrace]
    exact h.1.grown.trans (List.prefix_append _ _)
  case finish =>
    exact fun x rest s h ↦ ⟨h.1.closed, h.2.closed (holder h.1 List.mem_cons_self)⟩

/-! ## `run` and the loop it was meant to be -/

/-- Every looped task is replaced by one clone for each node it matched, in their order, and every clone
is enqueued once; behind the tasks that were not expanded, the document has these clones and no other
tasks. -/
def TasksExpanded (env : Environment Node) (job : Nat) (s s' : WorkflowInstance Node) : Prop :=
  (∀ task ∈ s.doc.tasksOf job, task.loop.isSome → task.status ≠ some .terminated →
    task.id ∉ s'.doc.tasks.map TaskNode.id ∧ ∃ nodes, .taskMatched task.id nodes ∈ s'.since s ∧
      SnapshotLoop.expansionsOf task.id ((s'.since s).filterMap Event.clonedTask?) = nodes ∧
      ∀ clone node, .taskCloned task.id clone node ∈ s'.since s →
        ((s'.since s).filterMap Event.enqueued?).count clone = 1 ∧
        IsClone env s s' task clone node) ∧
  s'.doc.tasks.map TaskNode.id =
    ((s.doc.tasks.map TaskNode.id).filter fun x ↦ x ∉ matchedSince s s') ++ clonesSince s s'

/-- `run`, had it set `matching_nodes_index` back to 0 for every looped task. -/
def runStartingAgain (env : Environment Node) (job : Nat) (context : Context Node)
    (s : WorkflowInstance Node) : Result Node :=
  SnapshotLoop.iterate (taskLoop env context) SnapshotLoop.startAgain
    ((s.doc.tasksOf job).map TaskNode.id) 0 (s.log (.run job))

/-- All looped elements behind the first match nothing. -/
def OnlyFirstMatches (matched : Event Node → Option (Nat × List Node))
    (s s' : WorkflowInstance Node) : Prop :=
  ∀ y ∈ ((s'.since s).filterMap matched).tail, y.2 = []

theorem filterMap_since {α : Type} (f : Event Node → Option α) {e : Event Node} (he : f e = none)
    (h : s.trace <+: s'.trace) :
    (s'.trace.filterMap f).drop ((s.log e).trace.filterMap f).length =
      (s'.since s).filterMap f := by
  have hlog : (s.log e).trace.filterMap f = s.trace.filterMap f := by
    show (s.trace ++ [e]).filterMap f = _
    rw [List.filterMap_append, List.filterMap_cons_none he, List.filterMap_nil, List.append_nil]
  rw [hlog, trace_eq h, List.filterMap_append, List.drop_left]

theorem mem_matchedTasks {nodes : List Node} {events : List (Event Node)} :
    (id, nodes) ∈ events.filterMap Event.matchedTask? ↔ .taskMatched id nodes ∈ events := by
  rw [List.mem_filterMap]
  constructor
  · intro h
    rcases h with ⟨e, he, heq⟩
    cases e <;> simp [Event.matchedTask?] at heq
    rw [← heq.1, ← heq.2]
    exact he
  · intro h
    exact ⟨_, h, rfl⟩

theorem expanding_start (htree : s.doc.Tree) (job : Nat) :
    Expanding s ((s.doc.tasksOf job).map TaskNode.id) [] ((s.doc.tasksOf job).map TaskNode.id)
      (s.log (.run job)) := by
  have hbound : ∀ x ∈ s.doc.tasks.map TaskNode.id, x < s.doc.nextId := by
    intro x hx
    rcases List.mem_map.mp hx with ⟨t, ht, heq⟩
    rw [← heq]
    exact (htree.tasksBound t ht).1
  have hsub : ((s.doc.tasksOf job).map TaskNode.id).Sublist (s.doc.tasks.map TaskNode.id) :=
    List.filter_sublist.map _
  have hsince : (s.log (.run job)).since s = [.run job] := List.drop_left
  constructor
  case grown => exact List.prefix_append _ _
  case nextId => exact Nat.le_refl _
  case bound => exact hbound
  case nodup => exact htree.tasksNodup.sublist hsub
  case older => exact fun x hx ↦ hbound x (hsub.subset hx)
  case subset => exact fun x hx ↦ hx
  case same => exact fun x _ ↦ rfl
  case matched =>
    intro x nodes hx
    rw [hsince] at hx
    cases List.mem_singleton.mp hx
  case settled => exact fun x hx ↦ .inl hx
  case cloned =>
    intro x clone node hx
    rw [hsince] at hx
    cases List.mem_singleton.mp hx
  case once =>
    rw [hsince]
    exact List.nodup_nil
  case enqueued =>
    rw [hsince]
    exact nofun

theorem cloning_start (env : Environment Node) (s : WorkflowInstance Node) (job : Nat) :
    Cloning env s [] (s.log (.run job)) := by
  have hsince : (s.log (.run job)).since s = [.run job] := List.drop_left
  constructor
  case isCancelling => rfl
  case queued => exact fun _ _ ↦ rfl
  case opened => exact nofun
  case new =>
    unfold clonesSince
    rw [hsince]
    exact nofun
  case clones =>
    intro x clone node hx
    rw [hsince] at hx
    cases List.mem_singleton.mp hx
  case ids =>
    unfold matchedSince clonesSince
    rw [hsince]
    show s.doc.tasks.map TaskNode.id = _
    simp [Event.matchedTask?, Event.taskClone?]

/-- A call of `run` expands every looped task wholly exactly when those behind the first match nothing. -/
theorem tasksExpanded_iff (env : Environment Node) (context : Context Node) (htree : s.doc.Tree)
    (hrun : run env job context s = (s', none)) : TasksExpanded env job s s' ↔
      OnlyFirstMatches Event.matchedTask? s (runStartingAgain env job context s).1 := by
  have hlogs := taskLoop_logs env context
  have hkeeps := taskLoop_expanding env context s ((s.doc.tasksOf job).map TaskNode.id)
  have hnodup : ((s.doc.tasksOf job).map TaskNode.id).Nodup :=
    htree.tasksNodup.sublist (List.filter_sublist.map _)
  have hstart := And.intro (expanding_start htree job) (cloning_start env s job)
  rcases (hkeeps.iterate hstart hrun).1 rfl with ⟨hend, hcloning⟩
  rcases hlogs.iterate_matched hrun with ⟨new, hnew, hsub⟩
  have hmatched : new = (s'.since s).filterMap Event.matchedTask? := by
    rw [← filterMap_since Event.matchedTask? (e := .run job) rfl hend.grown, hnew, List.drop_left]
  have hagain : s.trace <+: (runStartingAgain env job context s).1.trace := by
    rcases hrest : runStartingAgain env job context s with ⟨t, r⟩
    have hkeep := hkeeps.iterate hstart hrest
    cases r with
    | none => exact (hkeep.1 rfl).1.grown
    | some e => exact hkeep.2 (by simp)
  -- nothing is missed exactly when starting again would match no node behind the first loop
  have hwhole := hlogs.whole_iff_startAgain hnodup hrun hnew
  rw [filterMap_since Event.clonedTask? (e := .run job) rfl hend.grown] at hwhole
  have hlater := filterMap_since Event.matchedTask? (e := .run job) rfl hagain
  unfold runStartingAgain at hlater
  rw [hlater] at hwhole
  unfold OnlyFirstMatches runStartingAgain
  rw [← hwhole, hmatched]
  constructor
  · -- what was matched is a looped task of the job
    intro hexpanded y hy
    rcases y with ⟨x, nodes⟩
    rcases hend.matched x nodes (mem_matchedTasks.mp hy) with ⟨task, hfind, hloop, hstatus⟩
    rw [← hmatched] at hy
    rcases List.mem_map.mp (hsub.subset (List.mem_map_of_mem hy)) with ⟨t, ht, heq⟩
    have htask := task?_spec hfind
    have hsame : t = task := List.inj_on_of_nodup_map htree.tasksNodup (List.mem_of_mem_filter ht)
      htask.1 (heq.trans htask.2.symm)
    have hx : task.id = x := htask.2
    rw [hsame] at ht
    rcases (hexpanded.1 task ht hloop hstatus).2 with ⟨nodes', hnodes', hexp, -⟩
    have hin : (task.id, nodes') ∈ new := by
      rw [hmatched]
      exact mem_matchedTasks.mpr hnodes'
    have hpair := List.inj_on_of_nodup_map (hnodup.sublist hsub) hin hy hx
    rw [Prod.mk.injEq] at hpair
    rw [← hpair.1, ← hpair.2]
    exact hexp
  · -- and every looped task was matched
    intro hall
    refine ⟨?_, by simpa using hcloning.ids⟩
    intro task htask hloop hstatus
    have hfind : s.doc.task? task.id = some task := by
      have hin := List.mem_of_mem_filter htask
      cases hfind : s.doc.task? task.id with
      | none =>
        have hno := List.find?_eq_none.mp hfind task hin
        simp at hno
      | some t =>
        have hspec := task?_spec hfind
        rw [List.inj_on_of_nodup_map htree.tasksNodup hspec.1 hin hspec.2]
    -- the task was no loop, or it was matched and its template is gone
    rcases hend.settled task.id (List.mem_map_of_mem htask) with hrest | hplain | ⟨hmatch, hgone⟩
    · cases hrest
    · rcases hplain task hfind with hterminated | hnone
      · exact absurd hterminated hstatus
      · rw [hnone] at hloop
        cases hloop
    · rcases hmatch with ⟨nodes, hnodes⟩
      refine ⟨hgone.resolve_left nofun, nodes, hnodes, ?_, ?_⟩
      · exact hall _ (mem_matchedTasks.mpr hnodes)
      · intro clone node hclone
        rcases hcloning.clones _ _ _ hclone with ⟨template, htemplate, hclones⟩
        rw [hfind, Option.some.injEq] at htemplate
        rw [← htemplate] at hclones
        exact ⟨List.count_eq_one_of_mem hend.once (hend.cloned _ _ _ hclone), hclones⟩

end WorkflowInstance

end EvQueue
