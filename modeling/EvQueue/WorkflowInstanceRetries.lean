import EvQueue.WorkflowInstanceRuns

/-!
# WorkflowInstanceRetries — what `retry_task` makes of one task

`retry_task` reads and writes the attributes of one task.  They decide alone whether a retry is planned,
whether the task is passed over because of its `retry_retval`, or whether no retry is left.
-/

namespace EvQueue

variable {Node : Type}

/-- What comes of a call of `retry_task`. -/
inductive Retry where
  | exhausted
  /-- `retry_retval` asks for another return value. -/
  | passedOver
  | planned
deriving DecidableEq, Repr

namespace TaskNode

variable (uninitialised : Int × Int) (schedules : String → Option (List (Int × Int)))

def scheduleUpdate (t : TaskNode Node) (scheduleName : String) (retry : Int × Int) :
    TaskNode Node × Int × Int :=
  match schedules scheduleName with
  | none => (t, retry)
  | some levels =>
      let current := t.retryScheduleLevel.getD 0 + 1
      match levels[current - 1]? with
      | none => ({ t with retryScheduleLevel := some current }, 0, 0)
      | some (retryDelay, retryTimes) =>
          ({ t with
              retryScheduleLevel := some current
              retryDelay := some retryDelay
              retryTimes := some retryTimes }, retryDelay, retryTimes)

def retryParameters (t : TaskNode Node) : Option (TaskNode Node × Int × Int) :=
  match t.retrySchedule, t.retryScheduleLevel.getD 0 with
  | some scheduleName, 0 => some (t.scheduleUpdate schedules scheduleName uninitialised)
  | _, _ =>
      match t.retryDelay, t.retryTimes with
      | some retryDelay, some retryTimes => some (t, retryDelay, retryTimes)
      | _, _ => none

def nextLevel (t : TaskNode Node) (retry : Int × Int) : TaskNode Node × Int × Int :=
  match t.retrySchedule with
  | some scheduleName =>
      if retry.2 = 0 then t.scheduleUpdate schedules scheduleName retry else (t, retry)
  | none => (t, retry)

/-- The task behind `retry_task`, and what came of the call. -/
def retry (t : TaskNode Node) : TaskNode Node × Retry :=
  match t.retryParameters uninitialised schedules with
  | none => (t, .exhausted)
  | some (t, retry) =>
      let (t, retryDelay, retryTimes) := t.nextLevel schedules retry
      if retryDelay = 0 ∨ retryTimes = 0 then (t, .exhausted)
      else if t.retryRetval.isSome ∧ t.retryRetval ≠ t.retval then (t, .passedOver)
      else ({ t with retryTimes := some (retryTimes - 1) }, .planned)

/-- How many seconds ahead the retry is, where one is planned. -/
def plan (t : TaskNode Node) : Option Int :=
  match t.retryParameters uninitialised schedules with
  | none => none
  | some (t, retry) =>
      let (t, retryDelay, retryTimes) := t.nextLevel schedules retry
      if retryDelay = 0 ∨ retryTimes = 0 then none
      else if t.retryRetval.isSome ∧ t.retryRetval ≠ t.retval then none
      else some retryDelay

/-! ## Where the parameters come from -/

/-- A task that is at no level yet takes the first one. -/
theorem retryParameters_fresh {t : TaskNode Node} {name : String} (hschedule : t.retrySchedule = some name)
    (hfresh : t.retryScheduleLevel.getD 0 = 0) (uninitialised : Int × Int)
    (schedules : String → Option (List (Int × Int))) :
    t.retryParameters uninitialised schedules = some (t.scheduleUpdate schedules name uninitialised) := by
  unfold retryParameters
  rw [hschedule, hfresh]
  rfl

/-- Any other one has them in its attributes. -/
theorem retryParameters_attributes {t : TaskNode Node}
    (hbegun : t.retrySchedule = none ∨ t.retryScheduleLevel.getD 0 ≠ 0) (uninitialised : Int × Int)
    (schedules : String → Option (List (Int × Int))) :
    t.retryParameters uninitialised schedules =
      t.retryDelay.bind fun delay ↦ t.retryTimes.map fun times ↦ (t, delay, times) := by
  unfold retryParameters
  rcases hbegun with hnone | hne
  · rw [hnone]
    cases t.retryDelay <;> cases t.retryTimes <;> rfl
  · obtain ⟨n, hn⟩ := Nat.exists_eq_succ_of_ne_zero hne
    rw [hn]
    cases t.retrySchedule <;> cases t.retryDelay <;> cases t.retryTimes <;> rfl

/-! ## The other attributes -/

/-- The tasks agree on everything but the retry parameters. -/
structure SameBut (t t' : TaskNode Node) : Prop where
  id : t'.id = t.id
  key : t'.key = t.key
  queue : t'.queue = t.queue
  retrySchedule : t'.retrySchedule = t.retrySchedule
  retryRetval : t'.retryRetval = t.retryRetval

variable {uninitialised schedules} {t t' t'' : TaskNode Node} {retry' : Int × Int}

theorem SameBut.refl (t : TaskNode Node) : SameBut t t := ⟨rfl, rfl, rfl, rfl, rfl⟩

theorem SameBut.trans (h : SameBut t t') (h' : SameBut t' t'') : SameBut t t'' :=
  ⟨h'.id.trans h.id, h'.key.trans h.key, h'.queue.trans h.queue,
    h'.retrySchedule.trans h.retrySchedule, h'.retryRetval.trans h.retryRetval⟩

theorem SameBut.retval (h : SameBut t t') : t'.retval = t.retval :=
  congrArg TaskKey.retval h.key

theorem sameBut_scheduleUpdate (schedules : String → Option (List (Int × Int))) (t : TaskNode Node)
    (scheduleName : String) (retry : Int × Int) :
    SameBut t (t.scheduleUpdate schedules scheduleName retry).1 := by
  unfold scheduleUpdate
  cases schedules scheduleName with
  | none => exact SameBut.refl t
  | some levels =>
    dsimp only
    split <;> exact ⟨rfl, rfl, rfl, rfl, rfl⟩

theorem sameBut_retryParameters
    (h : t.retryParameters uninitialised schedules = some (t', retry')) : SameBut t t' := by
  unfold retryParameters at h
  split at h
  · rw [Option.some.injEq] at h
    have hsame := sameBut_scheduleUpdate schedules t ‹String› uninitialised
    rw [h] at hsame
    exact hsame
  · split at h
    · simp only [Option.some.injEq, Prod.mk.injEq] at h
      rw [← h.1]
      exact SameBut.refl t
    · cases h

theorem sameBut_nextLevel (schedules : String → Option (List (Int × Int))) (t : TaskNode Node)
    (retry : Int × Int) : SameBut t (t.nextLevel schedules retry).1 := by
  unfold nextLevel
  cases t.retrySchedule with
  | none => exact SameBut.refl t
  | some scheduleName =>
    dsimp only
    by_cases hend : retry.2 = 0
    · rw [if_pos hend]
      exact sameBut_scheduleUpdate schedules t scheduleName retry
    · rw [if_neg hend]
      exact SameBut.refl t

/-- `retry_task` changes nothing but the retry parameters of the task. -/
theorem sameBut_retry (uninitialised : Int × Int)
    (schedules : String → Option (List (Int × Int))) (t : TaskNode Node) :
    SameBut t (t.retry uninitialised schedules).1 := by
  unfold retry
  cases hparameters : t.retryParameters uninitialised schedules with
  | none => exact SameBut.refl t
  | some found =>
    rcases found with ⟨t', retry'⟩
    have hsame := (sameBut_retryParameters hparameters).trans
      (sameBut_nextLevel schedules t' retry')
    dsimp only
    rcases hlevel : t'.nextLevel schedules retry' with ⟨t'', retryDelay, retryTimes⟩
    rw [hlevel] at hsame
    dsimp only at hsame ⊢
    split
    · exact hsame
    · split
      · exact hsame
      · exact hsame.trans ⟨rfl, rfl, rfl, rfl, rfl⟩

end TaskNode

/-! ## The document -/

namespace Document

variable {d d' d'' : Document Node} {id : Nat} {task task' : TaskNode Node}

/-- Of the document only task `id` is replaced. -/
structure Replaced (id : Nat) (task : TaskNode Node) (d d' : Document Node) : Prop where
  jobs : d'.jobs = d.jobs
  ids : d'.tasks.map TaskNode.id = d.tasks.map TaskNode.id
  nextId : d'.nextId = d.nextId
  schedules : d'.schedules = d.schedules
  others : ∀ x, x ≠ id → d'.task? x = d.task? x
  task : d'.task? id = some task

theorem Replaced.refl (h : d.task? id = some task) : Replaced id task d d :=
  ⟨rfl, rfl, rfl, rfl, fun _ _ ↦ rfl, h⟩

theorem Replaced.trans (h : Replaced id task d d') (h' : Replaced id task' d' d'') :
    Replaced id task' d d'' := by
  constructor
  case jobs => rw [h'.jobs, h.jobs]
  case ids => rw [h'.ids, h.ids]
  case nextId => rw [h'.nextId, h.nextId]
  case schedules => rw [h'.schedules, h.schedules]
  case others =>
    intro x hx
    rw [h'.others x hx, h.others x hx]
  case task => exact h'.task

theorem replaced_setTask {f : TaskNode Node → TaskNode Node} (hf : ∀ t, (f t).id = t.id)
    (h : d.task? id = some task) (htask : f task = task') : Replaced id task' d (d.setTask id f) := by
  constructor
  case jobs => rfl
  case ids =>
    show (d.tasks.map fun t ↦ if t.id = id then f t else t).map TaskNode.id = _
    rw [List.map_map]
    apply List.map_congr_left
    intro t _
    show (if t.id = id then f t else t).id = t.id
    by_cases heq : t.id = id
    · rw [if_pos heq, hf]
    · rw [if_neg heq]
  case nextId => rfl
  case schedules => rfl
  case others => exact fun x hx ↦ task?_setTask_of_ne hf hx
  case task =>
    have htid : task.id = id := by simpa using List.find?_some h
    rw [task?_setTask hf, h, Option.map_some, if_pos htid, htask]

end Document

namespace WorkflowInstance

variable {env : Environment Node} {s s' : WorkflowInstance Node} {id : Nat} {task : TaskNode Node}

/-! ## The instance -/

theorem scheduleUpdate_eq (hfind : s.doc.task? task.id = some task) (scheduleName : String)
    (retry : Int × Int) :
    ∃ d, Document.Replaced task.id (task.scheduleUpdate s.doc.schedules scheduleName retry).1 s.doc d ∧
      s.scheduleUpdate task scheduleName retry =
        ({ s with doc := d }, (task.scheduleUpdate s.doc.schedules scheduleName retry).2) := by
  unfold scheduleUpdate TaskNode.scheduleUpdate
  cases s.doc.schedules scheduleName with
  | none => exact ⟨s.doc, Document.Replaced.refl hfind, rfl⟩
  | some levels =>
    rw [hfind]
    dsimp only [Option.bind_some]
    have hlevel := Document.replaced_setTask
      (f := fun t ↦ { t with retryScheduleLevel := some (task.retryScheduleLevel.getD 0 + 1) })
      (fun _ ↦ rfl) hfind rfl
    cases levels[task.retryScheduleLevel.getD 0 + 1 - 1]? with
    | none => exact ⟨_, hlevel, rfl⟩
    | some level =>
      have hparameters := Document.replaced_setTask
        (f := fun t ↦
          { t with
            retryDelay := some level.1
            retryTimes := some level.2 })
        (fun _ ↦ rfl) hlevel.task rfl
      exact ⟨_, hlevel.trans hparameters, rfl⟩

theorem retryParameters_eq (env : Environment Node) (hfind : s.doc.task? task.id = some task) :
    match task.retryParameters env.uninitialised s.doc.schedules with
    | none => s.retryParameters env task = none
    | some (t, retry) => ∃ d, Document.Replaced task.id t s.doc d ∧
        s.retryParameters env task = some ({ s with doc := d }, retry) := by
  unfold retryParameters TaskNode.retryParameters
  rcases hschedule : task.retrySchedule with _ | scheduleName
  · dsimp only
    cases task.retryDelay with
    | none => rfl
    | some retryDelay =>
      cases task.retryTimes with
      | none => rfl
      | some retryTimes => exact ⟨s.doc, Document.Replaced.refl hfind, rfl⟩
  · cases task.retryScheduleLevel.getD 0 with
    | zero =>
      rcases scheduleUpdate_eq hfind scheduleName env.uninitialised with ⟨d, hd, heq⟩
      refine ⟨d, hd, ?_⟩
      show some (s.scheduleUpdate task scheduleName env.uninitialised) = _
      rw [heq]
      rfl
    | succ level =>
      cases task.retryDelay with
      | none => rfl
      | some retryDelay =>
        cases task.retryTimes with
        | none => rfl
        | some retryTimes => exact ⟨s.doc, Document.Replaced.refl hfind, rfl⟩

theorem nextLevel_eq (hfind : s.doc.task? task.id = some task) (retry : Int × Int) :
    ∃ d, Document.Replaced task.id (task.nextLevel s.doc.schedules retry).1 s.doc d ∧
      s.nextLevel task retry = ({ s with doc := d }, (task.nextLevel s.doc.schedules retry).2) := by
  unfold nextLevel TaskNode.nextLevel
  cases task.retrySchedule with
  | none => exact ⟨s.doc, Document.Replaced.refl hfind, rfl⟩
  | some scheduleName =>
    dsimp only
    by_cases hend : retry.2 = 0
    · rw [if_pos hend, if_pos hend]
      exact scheduleUpdate_eq hfind scheduleName retry
    · rw [if_neg hend, if_neg hend]
      exact ⟨s.doc, Document.Replaced.refl hfind, rfl⟩

/-- The instance behind a call of `retry_task` with this outcome. -/
def retried (s : WorkflowInstance Node) (id : Nat) (doc : Document Node) : Retry → WorkflowInstance Node
  | .exhausted => { s with doc, errorTally := s.errorTally + 1 }
  | .passedOver => { s with doc }
  | .planned => { s with doc, retrier := s.retrier ++ [id], retryingTally := s.retryingTally + 1 }

/-- `retry_task` called at time `now`, with the events that it inserts: a task and when it is due. -/
def retryTaskAt (env : Environment Node) (now : Int) (s : WorkflowInstance Node) (id : Nat) :
    WorkflowInstance Node × List (Nat × Int) :=
  match s.doc.task? id with
  | none => (s, [])
  | some task =>
      match s.retryParameters env task with
      | none => ({ s with errorTally := s.errorTally + 1 }, [])
      | some (s, retry) =>
          let (s, retryDelay, retryTimes) := s.nextLevel task retry
          if retryDelay = 0 ∨ retryTimes = 0 then ({ s with errorTally := s.errorTally + 1 }, [])
          else if task.retryRetval.isSome ∧ task.retryRetval ≠ task.retval then (s, [])
          else
            ({ s.setTask id fun t ↦ { t with retryTimes := some (retryTimes - 1) } with
              retrier := s.retrier ++ [id]
              retryingTally := s.retryingTally + 1 }, [(id, now + retryDelay)])

theorem retryTaskAt_fst (env : Environment Node) (now : Int) (s : WorkflowInstance Node) (id : Nat) :
    (s.retryTaskAt env now id).1 = s.retryTask env id := by
  unfold retryTaskAt retryTask
  cases s.doc.task? id with
  | none => rfl
  | some task =>
    dsimp only
    cases s.retryParameters env task with
    | none => rfl
    | some found =>
      dsimp only
      split
      · rfl
      · split <;> rfl

/-- The attributes of the task decide what `retry_task` does, and which event it inserts. -/
theorem retryTaskAt_eq (env : Environment Node) (now : Int) (hfind : s.doc.task? id = some task) :
    ∃ d, Document.Replaced id (task.retry env.uninitialised s.doc.schedules).1 s.doc d ∧
      s.retryTaskAt env now id = (s.retried id d (task.retry env.uninitialised s.doc.schedules).2,
        ((task.plan env.uninitialised s.doc.schedules).map fun delay ↦ (id, now + delay)).toList) := by
  obtain rfl : task.id = id := by simpa using List.find?_some hfind
  unfold retryTaskAt TaskNode.retry TaskNode.plan
  rw [hfind]
  dsimp only
  have hparameters := retryParameters_eq env hfind
  rcases hfound : task.retryParameters env.uninitialised s.doc.schedules with _ | ⟨t, retry⟩
  · rw [hfound] at hparameters
    dsimp only at hparameters ⊢
    rw [hparameters]
    exact ⟨s.doc, Document.Replaced.refl hfind, rfl⟩
  · rw [hfound] at hparameters
    rcases hparameters with ⟨d, hd, heq⟩
    have hsame := TaskNode.sameBut_retryParameters hfound
    rw [heq]
    dsimp only
    -- the schedule is read from the task as it was before
    have hlevel : ({ s with doc := d } : WorkflowInstance Node).nextLevel task retry =
        ({ s with doc := d } : WorkflowInstance Node).nextLevel t retry := by
      unfold nextLevel scheduleUpdate
      rw [hsame.retrySchedule, hsame.id]
    rcases nextLevel_eq (s := { s with doc := d }) (hsame.id ▸ hd.task) retry with ⟨d', hd', heq'⟩
    rw [hlevel, heq']
    have hsame' := hsame.trans (TaskNode.sameBut_nextLevel d.schedules t retry)
    dsimp only at hd' ⊢
    rw [hsame.id, hd.schedules] at hd'
    rw [hd.schedules] at hsame' ⊢
    rcases hend : t.nextLevel s.doc.schedules retry with ⟨t', retryDelay, retryTimes⟩
    rw [hend] at hd' hsame'
    dsimp only at hd' hsame' ⊢
    rw [← hsame'.retryRetval, ← hsame'.retval]
    by_cases hend : retryDelay = 0 ∨ retryTimes = 0
    · rw [if_pos hend, if_pos hend, if_pos hend]
      exact ⟨d', hd.trans hd', rfl⟩
    · rw [if_neg hend, if_neg hend, if_neg hend]
      by_cases hretval : t'.retryRetval.isSome = true ∧ t'.retryRetval ≠ t'.retval
      · rw [if_pos hretval, if_pos hretval, if_pos hretval]
        exact ⟨d', hd.trans hd', rfl⟩
      · rw [if_neg hretval, if_neg hretval, if_neg hretval]
        have htimes := Document.replaced_setTask
          (f := fun t ↦ { t with retryTimes := some (retryTimes - 1) }) (fun _ ↦ rfl) hd'.task rfl
        exact ⟨_, (hd.trans hd').trans htimes, rfl⟩

/-- The attributes of the task decide what `retry_task` does. -/
theorem retryTask_eq (env : Environment Node) (hfind : s.doc.task? id = some task) :
    ∃ d, Document.Replaced id (task.retry env.uninitialised s.doc.schedules).1 s.doc d ∧
      s.retryTask env id = s.retried id d (task.retry env.uninitialised s.doc.schedules).2 := by
  obtain ⟨d, hd, heq⟩ := retryTaskAt_eq env 0 hfind
  refine ⟨d, hd, ?_⟩
  rw [← retryTaskAt_fst env 0 s id, heq]

end WorkflowInstance

end EvQueue
