import Mathlib.Data.List.GetD
import Mathlib.Data.List.Induction
import EvQueue.WorkflowInstanceEdits
import EvQueue.WorkflowInstanceJobLoops

/-!
# WorkflowInstanceLevels — a launch only adds and removes jobs below the job that is launched

The jobs are nested, and every job is one level below its parent.  A launch clones and removes jobs, all of
them deeper than the job it is made for, and no job moves to another level.
-/

namespace EvQueue

variable {Node : Type}

namespace View

/-- How deep the jobs are nested: every job is one level below its parent, down to level `n`. -/
structure Graded (v : View) (level : Nat → Nat) (n : Nat) : Prop where
  nodup : (v.jobs.map Prod.fst).Nodup
  bound : ∀ j ∈ v.jobs, j.1 < v.nextId ∧ j.2 < v.nextId
  below : ∀ j ∈ v.jobs, level j.1 = level j.2 + 1
  depth : ∀ j ∈ v.jobs, level j.1 ≤ n

/-- The jobs down to level `d`. -/
def shallow (v : View) (level : Nat → Nat) (d : Nat) : List Nat :=
  (v.jobs.map Prod.fst).filter fun x ↦ level x ≤ d

/-- Only the jobs count, and more identities may have been given. -/
theorem Graded.same {v v' : View} {level : Nat → Nat} {n : Nat} (h : v.Graded level n)
    (hjobs : v'.jobs = v.jobs) (hnext : v.nextId ≤ v'.nextId) : v'.Graded level n := by
  constructor
  case nodup =>
    rw [hjobs]
    exact h.nodup
  case bound =>
    intro j hj
    rw [hjobs] at hj
    have hold := h.bound j hj
    omega
  case below =>
    rw [hjobs]
    exact h.below
  case depth =>
    rw [hjobs]
    exact h.depth

end View

/-- Jobs that stand behind their parents have levels. -/
theorem exists_level {jobs : List JobNode} (hnodup : (jobs.map JobNode.id).Nodup)
    (hparents : ∀ j ∈ jobs, j.parent ≠ j.id)
    (hfirst : jobs.Pairwise fun j j' ↦ j.parent ≠ j'.id) :
    ∃ (level : Nat → Nat) (n : Nat), ∀ j ∈ jobs, level j.id = level j.parent + 1 ∧ level j.id ≤ n := by
  induction jobs using List.reverseRecOn with
  | nil => exact ⟨fun _ ↦ 0, 0, nofun⟩
  | append_singleton jobs last ih =>
    rw [List.map_append, List.nodup_append] at hnodup
    rw [List.pairwise_append] at hfirst
    rcases ih hnodup.1 (fun j hj ↦ hparents j (List.mem_append_left _ hj)) hfirst.1 with
      ⟨level, n, hlevel⟩
    have hlast := hparents last (List.mem_append_right _ (List.mem_singleton.mpr rfl))
    refine ⟨Function.update level last.id (level last.parent + 1), max n (level last.parent + 1), ?_⟩
    intro j hj
    rcases List.mem_append.mp hj with hj | hj
    · -- neither the job nor its parent is the last one
      have hid : j.id ≠ last.id :=
        hnodup.2.2 j.id (List.mem_map_of_mem hj) last.id (List.mem_singleton.mpr rfl)
      have hparent : j.parent ≠ last.id := hfirst.2.2 j hj last (List.mem_singleton.mpr rfl)
      rw [Function.update_of_ne hid, Function.update_of_ne hparent]
      have hold := hlevel j hj
      omega
    · rw [List.mem_singleton.mp hj, Function.update_self, Function.update_of_ne hlast]
      omega

theorem Document.WellFormed.graded {doc : Document Node} (h : doc.WellFormed) :
    ∃ level n, (WorkflowInstance.create doc).view.Graded level n := by
  rcases exists_level h.jobsNodup (fun j hj ↦ (h.parents j hj).1) h.parentsFirst with
    ⟨level, n, hlevel⟩
  refine ⟨level, n, ?_, ?_, ?_, ?_⟩
  · show ((doc.jobs.map fun j : JobNode ↦ (j.id, j.parent)).map Prod.fst).Nodup
    rw [List.map_map]
    exact h.jobsNodup
  · intro j hj
    rcases List.mem_map.mp hj with ⟨j', hj', heq⟩
    rw [← heq]
    refine ⟨(h.jobsBound j' hj').2, ?_⟩
    rcases (h.parents j' hj').2 with hzero | hin
    · show j'.parent < doc.nextId
      rw [hzero]
      exact h.nextId
    · rcases List.mem_map.mp hin with ⟨parent, hparent, hid⟩
      show j'.parent < doc.nextId
      rw [← hid]
      exact (h.jobsBound parent hparent).2
  · intro j hj
    rcases List.mem_map.mp hj with ⟨j', hj', heq⟩
    rw [← heq]
    exact (hlevel j' hj').1
  · intro j hj
    rcases List.mem_map.mp hj with ⟨j', hj', heq⟩
    rw [← heq]
    exact (hlevel j' hj').2

namespace Document

variable {d : Document Node} {j : JobNode} {x : Nat}

theorem mem_descendants_parent {found : List Nat} {jobs : List JobNode}
    (h : x ∈ descendants found jobs) :
    x ∈ found ∨ ∃ j ∈ jobs, j.id = x ∧ j.parent ∈ descendants found jobs := by
  induction jobs generalizing found with
  | nil => exact .inl h
  | cons j jobs ih =>
    unfold descendants at h ⊢
    by_cases hin : j.parent ∈ found
    · rw [if_pos hin] at h ⊢
      rcases ih h with hfound | ⟨j', hj', hid, hparent⟩
      · rcases List.mem_append.mp hfound with hfound | hlast
        · exact .inl hfound
        · refine .inr ⟨j, List.mem_cons_self, (List.mem_singleton.mp hlast).symm, ?_⟩
          exact mem_descendants_of_mem jobs (List.mem_append_left _ hin)
      · exact .inr ⟨j', List.mem_cons_of_mem _ hj', hid, hparent⟩
    · rw [if_neg hin] at h ⊢
      rcases ih h with hfound | ⟨j', hj', hid, hparent⟩
      · exact .inl hfound
      · exact .inr ⟨j', List.mem_cons_of_mem _ hj', hid, hparent⟩

/-- Below `x`, the parent of every job but `x` itself is below `x`. -/
theorem parent_mem_subtree (hnodup : (d.jobs.map JobNode.id).Nodup) (hj : j ∈ d.jobs)
    (hin : j.id ∈ d.subtree x) (hne : j.id ≠ x) : j.parent ∈ d.subtree x := by
  rcases mem_descendants_parent hin with hself | ⟨j', hj', hid, hparent⟩
  · exact absurd (List.mem_singleton.mp hself) hne
  · rw [List.inj_on_of_nodup_map hnodup hj' hj hid] at hparent
    exact hparent

end Document

namespace WorkflowInstance

variable {env : Environment Node} {A : Nat → Prop} {first s s' : WorkflowInstance Node}
variable {level : Nat → Nat} {n d id x : Nat}

/-- What lies below a job is at least as deep. -/
theorem level_subtree (h : s.view.Graded level n) : ∀ x ∈ s.doc.subtree id, level id ≤ level x := by
  apply Document.subtree_induction (D := fun x ↦ level id ≤ level x) (Nat.le_refl _)
  intro j hj hparent
  have hbelow := h.below (j.id, j.parent) (List.mem_map.mpr ⟨j, hj, rfl⟩)
  dsimp only at hbelow
  omega

/-- The clones are as deep as what they are clones of. -/
def cloneLevel (d : Document Node) (id : Nat) (level : Nat → Nat) (x : Nat) : Nat :=
  if x < d.nextId then level x else level ((d.subtree id).getD (x - d.nextId) 0)

theorem cloneLevel_old (hx : x < s.doc.nextId) : cloneLevel s.doc id level x = level x := if_pos hx

theorem cloneLevel_clone (hx : x ∈ s.doc.subtree id) :
    cloneLevel s.doc id level (cloneId s.doc id x) = level x := by
  have hidx := List.idxOf_lt_length_of_mem hx
  unfold cloneLevel cloneId
  rw [if_neg (by omega), Nat.add_sub_cancel_left, List.getD_eq_getElem _ _ hidx, List.getElem_idxOf]

/-- What a clone of a job names as its parent. -/
theorem mem_clonedJobs {d : Document Node} {j : Nat × Nat} (hj : j ∈ clonedJobs d id) :
    ∃ j' ∈ d.jobs, j'.id ∈ d.subtree id ∧ j.1 = cloneId d id j'.id ∧
      j.2 = if j'.id = id then j'.parent else cloneId d id j'.parent := by
  rcases List.mem_map.mp hj with ⟨j', hj', heq⟩
  rcases List.mem_filter.mp hj' with ⟨hj', hin⟩
  rw [← heq]
  exact ⟨j', hj', of_decide_eq_true hin, rfl, rfl⟩

theorem clonedJobs_nodup (h : (s.doc.jobs.map JobNode.id).Nodup) :
    ((clonedJobs s.doc id).map Prod.fst).Nodup := by
  unfold clonedJobs
  rw [List.map_map]
  apply List.Nodup.map_on
  · intro j hj j' hj' heq
    rcases List.mem_filter.mp hj with ⟨hj, hin⟩
    have heq : s.doc.nextId + _ = s.doc.nextId + _ := heq
    apply List.inj_on_of_nodup_map h hj (List.mem_of_mem_filter hj')
    exact (List.idxOf_inj (of_decide_eq_true hin)).mp (Nat.add_left_cancel heq)
  · exact (List.Nodup.of_map _ h).filter _

theorem graded_cloneJob (h : s.view.Graded level n) (id : Nat) :
    { s with doc := s.doc.cloneJob id }.view.Graded (cloneLevel s.doc id level) n := by
  have hids : (s.doc.jobs.map JobNode.id).Nodup := by
    have hnodup := h.nodup
    unfold view at hnodup
    rw [List.map_map] at hnodup
    exact hnodup
  -- a clone stands one level below the clone of its parent; the top clone below the old parent
  have hclone : ∀ j ∈ clonedJobs s.doc id, ∃ j' ∈ s.doc.jobs, j'.id ∈ s.doc.subtree id ∧
      j.1 = cloneId s.doc id j'.id ∧
      cloneLevel s.doc id level j.2 = level j'.parent ∧
      j.2 < s.doc.nextId + (s.doc.subtree id).length := by
    intro j hj
    rcases mem_clonedJobs hj with ⟨j', hj', hin, hfst, hsnd⟩
    have hbound := h.bound (j'.id, j'.parent) (List.mem_map.mpr ⟨j', hj', rfl⟩)
    refine ⟨j', hj', hin, hfst, ?_⟩
    by_cases hself : j'.id = id
    · rw [if_pos hself] at hsnd
      rw [hsnd, cloneLevel_old hbound.2]
      exact ⟨rfl, Nat.lt_add_right _ hbound.2⟩
    · have hparent := Document.parent_mem_subtree hids hj' hin hself
      rw [if_neg hself] at hsnd
      rw [hsnd, cloneLevel_clone hparent]
      exact ⟨rfl, (cloneId_bound hparent).2⟩
  have hnext : s.doc.nextId + (s.doc.subtree id).length + s.doc.tasks.length =
      { s with doc := s.doc.cloneJob id }.view.nextId := rfl
  rw [view_cloneJob]
  constructor
  case nodup =>
    show ((s.view.jobs ++ clonedJobs s.doc id).map Prod.fst).Nodup
    rw [List.map_append, List.nodup_append]
    refine ⟨h.nodup, clonedJobs_nodup hids, ?_⟩
    intro x hx y hy heq
    rcases List.mem_map.mp hx with ⟨j, hj, hjx⟩
    rcases List.mem_map.mp hy with ⟨j', hj', hjy⟩
    rcases hclone j' hj' with ⟨j'', -, hin, hfst, -⟩
    have hold := (h.bound j hj).1
    have hnew := (cloneId_bound hin).1
    rw [← hfst, hjy, ← heq, ← hjx] at hnew
    exact absurd hold (Nat.not_lt.mpr hnew)
  case bound =>
    intro j hj
    show j.1 < s.doc.nextId + (s.doc.subtree id).length + s.doc.tasks.length ∧
      j.2 < s.doc.nextId + (s.doc.subtree id).length + s.doc.tasks.length
    rcases List.mem_append.mp hj with hj | hj
    · have hold : j.1 < s.doc.nextId ∧ j.2 < s.doc.nextId := h.bound j hj
      omega
    · rcases hclone j hj with ⟨j', -, hin, hfst, -, hlt⟩
      have hnew := (cloneId_bound hin).2
      rw [← hfst] at hnew
      omega
  case below =>
    intro j hj
    rcases List.mem_append.mp hj with hj | hj
    · rw [cloneLevel_old (h.bound j hj).1, cloneLevel_old (h.bound j hj).2]
      exact h.below j hj
    · rcases hclone j hj with ⟨j', hj', hin, hfst, hparent, -⟩
      rw [hfst, cloneLevel_clone hin, hparent]
      exact h.below (j'.id, j'.parent) (List.mem_map.mpr ⟨j', hj', rfl⟩)
  case depth =>
    intro j hj
    rcases List.mem_append.mp hj with hj | hj
    · rw [cloneLevel_old (h.bound j hj).1]
      exact h.depth j hj
    · rcases hclone j hj with ⟨j', hj', hin, hfst, -⟩
      rw [hfst, cloneLevel_clone hin]
      exact h.depth (j'.id, j'.parent) (List.mem_map.mpr ⟨j', hj', rfl⟩)

theorem graded_removeJob (h : s.view.Graded level n) (id : Nat) :
    { s with doc := s.doc.removeJob id }.view.Graded level n := by
  have hsub : ({ s with doc := s.doc.removeJob id }.view.jobs).Sublist s.view.jobs :=
    List.Sublist.map _ List.filter_sublist
  constructor
  case nodup => exact h.nodup.sublist (hsub.map _)
  case bound => exact fun j hj ↦ h.bound j (hsub.subset hj)
  case below => exact fun j hj ↦ h.below j (hsub.subset hj)
  case depth => exact fun j hj ↦ h.depth j (hsub.subset hj)

/-! ## What a launch does to the jobs -/

/-- Between the states jobs came and went, but only below level `d`. -/
structure Deepens (level : Nat → Nat) (n d : Nat) (first s : WorkflowInstance Node)
    (level' : Nat → Nat) : Prop where
  graded : s.view.Graded level' n
  agree : ∀ x < first.doc.nextId, level' x = level x
  nextId : first.doc.nextId ≤ s.doc.nextId
  shallow : s.view.shallow level' d = first.view.shallow level d

variable {level' : Nat → Nat}

/-- An edit that neither clones nor removes a job leaves the jobs as they are. -/
theorem Deepens.same (h : Deepens level n d first s level') (hjobs : s'.view.jobs = s.view.jobs)
    (hnext : s.doc.nextId ≤ s'.doc.nextId) : Deepens level n d first s' level' := by
  constructor
  case graded => exact h.graded.same hjobs hnext
  case agree => exact h.agree
  case nextId => exact Nat.le_trans h.nextId hnext
  case shallow =>
    unfold View.shallow
    rw [hjobs]
    exact h.shallow

theorem Deepens.cloneJob (h : Deepens level n d first s level') (hbound : id < first.doc.nextId)
    (hdeep : d < level id) :
    Deepens level n d first { s with doc := s.doc.cloneJob id } (cloneLevel s.doc id level') := by
  have hnext := h.nextId
  have hid := h.agree id hbound
  constructor
  case graded => exact graded_cloneJob h.graded id
  case agree =>
    intro x hx
    rw [cloneLevel_old (by omega), h.agree x hx]
  case nextId =>
    show first.doc.nextId ≤ s.doc.nextId + (s.doc.subtree id).length + s.doc.tasks.length
    omega
  case shallow =>
    rw [view_cloneJob, ← h.shallow]
    show ((s.view.jobs ++ clonedJobs s.doc id).map Prod.fst).filter _ = _
    rw [List.map_append, List.filter_append]
    have hnone : ((clonedJobs s.doc id).map Prod.fst).filter
        (fun x ↦ cloneLevel s.doc id level' x ≤ d) = [] := by
      rw [List.filter_eq_nil_iff]
      intro x hx
      rcases List.mem_map.mp hx with ⟨j, hj, hjx⟩
      rcases mem_clonedJobs hj with ⟨j', -, hin, hfst, -⟩
      have hlevel := level_subtree h.graded j'.id hin
      rw [← hjx, hfst, cloneLevel_clone hin, decide_eq_true_iff]
      omega
    rw [hnone, List.append_nil]
    apply List.filter_congr
    intro x hx
    rcases List.mem_map.mp hx with ⟨j, hj, hjx⟩
    rw [← hjx, cloneLevel_old (h.graded.bound j hj).1]

theorem Deepens.removeJob (h : Deepens level n d first s level') (hbound : id < first.doc.nextId)
    (hdeep : d < level id) :
    Deepens level n d first { s with doc := s.doc.removeJob id } level' := by
  have hid := h.agree id hbound
  constructor
  case graded => exact graded_removeJob h.graded id
  case agree => exact h.agree
  case nextId => exact h.nextId
  case shallow =>
    rw [← h.shallow]
    show (((s.doc.jobs.filter fun j ↦ j.id ∉ s.doc.subtree id).map fun j : JobNode ↦
      (j.id, j.parent)).map Prod.fst).filter (fun x ↦ level' x ≤ d) =
      ((s.doc.jobs.map fun j : JobNode ↦ (j.id, j.parent)).map Prod.fst).filter fun x ↦ level' x ≤ d
    rw [List.map_map, List.map_map, List.filter_map, List.filter_map, List.filter_filter]
    congr 1
    apply List.filter_congr
    intro j _
    -- what is removed lies deeper
    by_cases hin : j.id ∈ s.doc.subtree id
    · have hlevel := level_subtree h.graded j.id hin
      have hout : ¬level' j.id ≤ d := by omega
      simp [hin, hout]
    · simp [hin]

theorem Edit.deepens (hedit : Edit env A s s') (h : Deepens level n d first s level')
    (hA : ∀ id, A id → id < first.doc.nextId ∧ d < level id) :
    ∃ level'', Deepens level n d first s' level'' := by
  cases hedit with
  | log e he => exact ⟨level', h.same (by rw [view_log]) (Nat.le_refl _)⟩
  | setTask id f hf => exact ⟨level', h.same rfl (Nat.le_refl _)⟩
  | enqueueTask id =>
    refine ⟨level', ?_⟩
    rcases enqueueTask_cases env s id with heq | ⟨error, heq⟩ | heq
    · rw [heq]
      exact h
    · rw [heq]
      exact h.same rfl (Nat.le_refl _)
    · rw [heq]
      exact h.same rfl (Nat.le_refl _)
  | cloneTask task ht => exact ⟨level', h.same rfl (Nat.le_succ _)⟩
  | removeTask id => exact ⟨level', h.same rfl (Nat.le_refl _)⟩
  | setJob id f hf =>
    refine ⟨level', h.same ?_ (Nat.le_refl _)⟩
    rw [view_setJob hf]
  | failJob id error =>
    refine ⟨level', h.same ?_ (Nat.le_refl _)⟩
    rw [view_failJob]
  | cloneJob id hid => exact ⟨_, h.cloneJob (hA id hid).1 (hA id hid).2⟩
  | removeJob id hid => exact ⟨level', h.removeJob (hA id hid).1 (hA id hid).2⟩

theorem Edits.deepens (hedits : Edits env A s s') (h : Deepens level n d first s level')
    (hA : ∀ id, A id → id < first.doc.nextId ∧ d < level id) :
    ∃ level'', Deepens level n d first s' level'' := by
  induction hedits with
  | refl => exact ⟨level', h⟩
  | tail _ hedit ih =>
    rcases ih with ⟨level'', hdeepens⟩
    exact hedit.deepens hdeepens hA

/-- **A launch leaves the jobs down to the level of the job that is launched as they are.** -/
theorem runSubjobs_deepens (env : Environment Node) (job : Nat) (h : s.view.Graded level n) :
    ∃ level', Deepens level n (level job) s (runSubjobs env job s).1 level' := by
  apply Edits.deepens (runSubjobs_edits env job s)
    (Deepens.same (s := s) ⟨h, fun _ _ ↦ rfl, Nat.le_refl _, rfl⟩ (by rw [view_log]) (Nat.le_refl _))
  intro id hid
  rcases List.mem_map.mp hid with ⟨j, hj, heq⟩
  rcases List.mem_filter.mp hj with ⟨hj, hparent⟩
  have hin : (j.id, j.parent) ∈ s.view.jobs := List.mem_map.mpr ⟨j, hj, rfl⟩
  have hbelow := h.below _ hin
  rw [← heq]
  refine ⟨(h.bound _ hin).1, ?_⟩
  dsimp only at hbelow
  rw [of_decide_eq_true hparent] at hbelow
  omega

end WorkflowInstance

end EvQueue
