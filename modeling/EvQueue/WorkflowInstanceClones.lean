import EvQueue.WorkflowInstanceJobs

/-!
# WorkflowInstanceClones — what becomes of one task that is enqueued

`replace_value` computes the parameters of a task in a context, one after the other, and `enqueue_task`
puts the task into its queue or aborts it.  For the clone of a looped task the context is its node.
-/

namespace EvQueue

variable {Node : Type}

namespace WorkflowInstance

variable {env : Environment Node} {context : Context Node} {s s' : WorkflowInstance Node}
variable {id : Nat} {task : TaskNode Node} {node : Node}

/-- What a parameter becomes, evaluated in some document; a value without a result stays. -/
inductive Computed (env : Environment Node) (context : Context Node) :
    Content Node → List (Content Node) → Prop where
  | text (s : String) : Computed env context (.text s) [.text s]
  | node (n : Node) : Computed env context (.node n) [.node n]
  | value (d : Document Node) (select text : String)
      (h : env.evaluateFirst d context select = some (some text)) :
      Computed env context (.value select) [.text text]
  | noResult (d : Document Node) (select : String)
      (h : env.evaluateFirst d context select = some none) :
      Computed env context (.value select) [.value select]
  | copy (d : Document Node) (select : String) (nodes : List Node)
      (h : env.evaluate d context select = some nodes) :
      Computed env context (.copy select) (nodes.map .node)

/-- Every parameter is computed, in its place. -/
def Filled (env : Environment Node) (context : Context Node) (content content' : List (Content Node)) :
    Prop :=
  ∃ parts, List.Forall₂ (Computed env context) content parts ∧ content' = parts.flatten

/-- What the first loop leaves of an item: a copy is still to be computed. -/
inductive FirstPass (env : Environment Node) (context : Context Node) :
    Content Node → Content Node → Prop where
  | computed (item item' : Content Node) (h : Computed env context item [item'])
      (hcopy : ∀ select, item' ≠ .copy select) : FirstPass env context item item'
  | copy (select : String) : FirstPass env context (.copy select) (.copy select)

theorem task?_setContent (hfind : s.doc.task? id = some task) (content : List (Content Node)) :
    (s.setTask id fun t ↦ { t with content }).doc.task? id = some { task with content } := by
  have hid := (task?_spec hfind).2
  have hset : (s.doc.setTask id fun t ↦ { t with content }).task? id = _ :=
    Document.task?_setTask (f := fun t : TaskNode Node ↦ { t with content }) (fun _ ↦ rfl) id
  rw [hfind, Option.map_some, if_pos hid] at hset
  exact hset

theorem replaceValues_content {done items : List (Content Node)} (hfind : s.doc.task? id = some task)
    (hcontent : task.content = done ++ items)
    (hrun : replaceValues env context id done items s = (s', none)) :
    ∃ items', List.Forall₂ (FirstPass env context) items items' ∧
      s'.doc.task? id = some { task with content := done ++ items' } := by
  induction items generalizing s task done with
  | nil =>
    simp only [replaceValues, Prod.mk.injEq, and_true] at hrun
    refine ⟨[], .nil, ?_⟩
    rw [← hrun, hfind, ← hcontent]
  | cons item rest ih =>
    -- an item that stays
    have hkept (hitem : FirstPass env context item item)
        (hrest : replaceValues env context id (done ++ [item]) rest s = (s', none)) :
        ∃ items', List.Forall₂ (FirstPass env context) (item :: rest) items' ∧
          s'.doc.task? id = some { task with content := done ++ items' } := by
      rcases ih hfind (by rw [hcontent, List.append_assoc]; rfl) hrest with ⟨items', hitems, htask⟩
      refine ⟨item :: items', .cons hitem hitems, ?_⟩
      rw [htask, List.append_assoc]
      rfl
    cases item with
    | text text => exact hkept (.computed _ _ (.text text) nofun) hrun
    | node node => exact hkept (.computed _ _ (.node node) nofun) hrun
    | copy select => exact hkept (.copy select) hrun
    | value select =>
      unfold replaceValues at hrun
      rcases hvalue : env.evaluateFirst s.doc context select with _ | _ | text
      · rw [hvalue] at hrun
        simp at hrun
      · rw [hvalue] at hrun
        exact hkept (.computed _ _ (.noResult s.doc select hvalue) nofun) hrun
      · rw [hvalue] at hrun
        have hset := task?_setContent hfind (done ++ .text text :: rest)
        rcases ih hset (by rw [List.append_assoc]; rfl) hrun with ⟨items', hitems, htask⟩
        refine ⟨.text text :: items',
          .cons (.computed _ _ (.value s.doc select text hvalue) nofun) hitems, ?_⟩
        rw [htask, List.append_assoc]
        rfl

theorem replaceCopies_content {done items items' : List (Content Node)}
    (hfind : s.doc.task? id = some task) (hcontent : task.content = done ++ items')
    (hitems : List.Forall₂ (FirstPass env context) items items')
    (hrun : replaceCopies env context id done items' s = (s', none)) :
    ∃ content, Filled env context items content ∧
      s'.doc.task? id = some { task with content := done ++ content } := by
  induction hitems generalizing s task done with
  | nil =>
    simp only [replaceCopies, Prod.mk.injEq, and_true] at hrun
    refine ⟨[], ⟨[], .nil, rfl⟩, ?_⟩
    rw [← hrun, hfind, ← hcontent]
  | @cons item item' rest rest' hitem hrest ih =>
    cases hitem with
    | computed _ _ hcomputed hcopy =>
      have hstep : replaceCopies env context id (done ++ [item']) rest' s = (s', none) := by
        cases item' with
        | copy select => exact absurd rfl (hcopy select)
        | text text => exact hrun
        | value select => exact hrun
        | node node => exact hrun
      rcases ih hfind (by rw [hcontent, List.append_assoc]; rfl) hstep with
        ⟨content, ⟨parts, hparts, hcat⟩, htask⟩
      refine ⟨item' :: content, ⟨[item'] :: parts, .cons hcomputed hparts, by rw [hcat]; rfl⟩, ?_⟩
      rw [htask, List.append_assoc]
      rfl
    | copy select =>
      unfold replaceCopies at hrun
      rcases hnodes : env.evaluate s.doc context select with _ | nodes
      · rw [hnodes] at hrun
        simp at hrun
      · rw [hnodes] at hrun
        have hset := task?_setContent hfind (done ++ nodes.map .node ++ rest')
        rcases ih hset rfl hrun with ⟨content, ⟨parts, hparts, hcat⟩, htask⟩
        refine ⟨nodes.map .node ++ content, ⟨nodes.map .node :: parts,
          .cons (.copy s.doc select nodes hnodes) hparts, by rw [hcat]; rfl⟩, ?_⟩
        rw [htask, ← List.append_assoc]

/-- `replace_value` computes all parameters of the task, and changes nothing else of it. -/
theorem replaceValue_content (hfind : s.doc.task? id = some task)
    (hrun : replaceValue env id context s = (s', none)) :
    ∃ content, Filled env context task.content content ∧
      s'.doc.task? id = some { task with content } := by
  unfold replaceValue at hrun
  rw [hfind] at hrun
  dsimp only at hrun
  rcases hvalues : replaceValues env context id [] task.content s with ⟨t, _ | e⟩
  · rcases replaceValues_content hfind rfl hvalues with ⟨items, hitems, htask⟩
    simp only [hvalues, htask] at hrun
    exact replaceCopies_content htask rfl hitems hrun
  · simp [hvalues] at hrun

/-- The node behind `enqueue_task`, and how often it is put into a queue. -/
def admitted (env : Environment Node) (cancelling : Bool) (task : TaskNode Node) :
    TaskNode Node × Nat :=
  let aborted (error : String) :=
    { task with
      status := some .aborted
      error := some error }
  if cancelling then (aborted "Aborted on user request", 0)
  else if env.enqueueTask task.queue then ({ task with status := some .queued }, 1)
  else (aborted "Unknown queue name", 0)

theorem enqueueTask_admitted (env : Environment Node) (hfind : s.doc.task? id = some task) :
    (s.enqueueTask env id).doc.task? id = some (admitted env s.isCancelling task).1 ∧
      (s.enqueueTask env id).queued.count id =
        s.queued.count id + (admitted env s.isCancelling task).2 := by
  have hid := (task?_spec hfind).2
  have hset (f : TaskNode Node → TaskNode Node) (hf : ∀ t, (f t).id = t.id) :
      (s.doc.setTask id f).task? id = some (f task) := by
    rw [Document.task?_setTask hf, hfind, Option.map_some, if_pos hid]
  unfold enqueueTask admitted
  rw [hfind]
  dsimp only
  by_cases hcancel : s.isCancelling = true
  · rw [if_pos hcancel, if_pos hcancel]
    exact ⟨hset _ fun _ ↦ rfl, rfl⟩
  · rw [if_neg hcancel, if_neg hcancel]
    by_cases hqueue : env.enqueueTask task.queue = true
    · rw [if_pos hqueue, if_pos hqueue]
      refine ⟨hset _ fun _ ↦ rfl, ?_⟩
      show (s.queued ++ [id]).count id = _
      rw [List.count_append, List.count_singleton_self]
    · rw [if_neg hqueue, if_neg hqueue]
      exact ⟨hset _ fun _ ↦ rfl, rfl⟩

theorem task?_cloneTask_new {d : Document Node} (hbound : ∀ t ∈ d.tasks, t.id < d.nextId)
    (task : TaskNode Node) : (d.cloneTask task).task? d.nextId = some { task with id := d.nextId } := by
  have hnone : d.tasks.find? (fun t : TaskNode Node ↦ t.id = d.nextId) = none := by
    rw [List.find?_eq_none]
    intro t ht
    have hlt := hbound t ht
    rw [decide_eq_true_eq]
    omega
  show (d.tasks ++ [{ task with id := d.nextId }]).find? (fun t : TaskNode Node ↦ t.id = d.nextId) = _
  rw [List.find?_append, hnone]
  simp

/-- The clone of a task has its data, with the parameters computed for the node, and is enqueued. -/
theorem expandTask_clone (hfind : s.doc.task? id = some task)
    (hbound : ∀ t ∈ s.doc.tasks, t.id < s.doc.nextId)
    (hexpand : expandTask env id node s = (s', none)) :
    ∃ content, Filled env (.matched node) task.content content ∧
      s'.doc.task? s.doc.nextId =
        some (admitted env s.isCancelling { task with id := s.doc.nextId, content }).1 ∧
      s'.queued.count s.doc.nextId = s.queued.count s.doc.nextId +
        (admitted env s.isCancelling { task with id := s.doc.nextId, content }).2 := by
  have hclone := task?_cloneTask_new hbound task
  unfold expandTask at hexpand
  rw [hfind] at hexpand
  dsimp only at hexpand
  have hsame : (replaceValue env s.doc.nextId (.matched node) ({ s with
      doc := s.doc.cloneTask task }.log (.taskCloned id s.doc.nextId node))).1.isCancelling =
        s.isCancelling ∧ (replaceValue env s.doc.nextId (.matched node) ({ s with
      doc := s.doc.cloneTask task }.log (.taskCloned id s.doc.nextId node))).1.queued = s.queued :=
    replaceValue_induction env (P := fun t ↦ t.isCancelling = s.isCancelling ∧ t.queued = s.queued)
      (fun t _ ht ↦ ht) (.matched node) ⟨rfl, rfl⟩
  rcases hvalue : replaceValue env s.doc.nextId (.matched node) ({ s with
      doc := s.doc.cloneTask task }.log (.taskCloned id s.doc.nextId node)) with ⟨t, _ | e⟩
  · rcases replaceValue_content hclone hvalue with ⟨content, hfilled, htask⟩
    rw [hvalue] at hexpand hsame
    simp only [Prod.mk.injEq, and_true] at hexpand
    have hstart := enqueueTask_admitted env (s := t.log (.enqueued s.doc.nextId
      (t.doc.parentSuccessful task.job))) htask
    rw [← hexpand, ← hsame.1, ← hsame.2]
    exact ⟨content, hfilled, hstart⟩
  · rw [hvalue] at hexpand
    simp at hexpand

end WorkflowInstance

end EvQueue
