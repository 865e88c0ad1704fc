import Mathlib.Data.List.Basic

/-!
# SnapshotLoop — loops over a snapshot whose elements are expanded

The loop visits the elements of a list that was read before it began.  A visit is done, fails, or
matches a list of nodes, and the element is then expanded for each of the nodes from a position on.
The position is carried from one element to the next by a rule of the loop.
-/

namespace EvQueue.SnapshotLoop

variable {ι ν σ ε : Type}

inductive Turn (ν σ ε : Type) where
  | done (s : σ)
  | failed (s : σ) (e : ε)
  | matched (s : σ) (nodes : List ν)

/-- What the loop does with an element; a failure keeps what was done before it. -/
structure Body (ι ν σ ε : Type) where
  visit : ι → σ → Turn ν σ ε
  expand : ι → ν → σ → σ × Option ε
  finish : ι → σ → σ

def expandAll (expand : ν → σ → σ × Option ε) : List ν → σ → σ × Option ε
  | [], s => (s, none)
  | node :: nodes, s =>
      match expand node s with
      | (s, some e) => (s, some e)
      | (s, none) => expandAll expand nodes s

/-- `next position n` is the position behind an element that matched `n` nodes. -/
def iterate (b : Body ι ν σ ε) (next : Nat → Nat → Nat) : List ι → Nat → σ → σ × Option ε
  | [], _, s => (s, none)
  | x :: xs, position, s =>
      match b.visit x s with
      | .done s => iterate b next xs position s
      | .failed s e => (s, some e)
      | .matched s nodes =>
          match expandAll (b.expand x) (nodes.drop position) s with
          | (s, some e) => (s, some e)
          | (s, none) => iterate b next xs (next position nodes.length) (b.finish x s)

variable {b : Body ι ν σ ε} {next next' : Nat → Nat → Nat} {x : ι} {xs : List ι} {s s' : σ}
variable {position position' : Nat} {r : Option ε} {nodes : List ν}

/-! ## Invariants -/

/-- `P` holds before the elements still to be visited, `L` while one is expanded, and `Q` behind a
failure. -/
structure Keeps (b : Body ι ν σ ε) (P : List ι → σ → Prop) (L : ι → List ι → σ → Prop)
    (Q : σ → Prop) : Prop where
  done : ∀ x xs s s', P (x :: xs) s → b.visit x s = .done s' → P xs s'
  failed : ∀ x xs s s' e, P (x :: xs) s → b.visit x s = .failed s' e → Q s'
  matched : ∀ x xs s s' nodes, P (x :: xs) s → b.visit x s = .matched s' nodes → L x xs s'
  expand : ∀ x xs node s s', L x xs s → b.expand x node s = (s', none) → L x xs s'
  expandFailed : ∀ x xs node s s' e, L x xs s → b.expand x node s = (s', some e) → Q s'
  finish : ∀ x xs s, L x xs s → P xs (b.finish x s)

section Keeps

variable {P : List ι → σ → Prop} {L : ι → List ι → σ → Prop} {Q : σ → Prop}

theorem Keeps.expandAll (h : Keeps b P L Q) (hL : L x xs s)
    (hrun : expandAll (b.expand x) nodes s = (s', r)) :
    (r = none → L x xs s') ∧ (r ≠ none → Q s') := by
  induction nodes generalizing s with
  | nil =>
    simp only [SnapshotLoop.expandAll, Prod.mk.injEq] at hrun
    rw [← hrun.1, ← hrun.2]
    exact ⟨fun _ ↦ hL, fun hne ↦ absurd rfl hne⟩
  | cons node nodes ih =>
    unfold SnapshotLoop.expandAll at hrun
    rcases hone : b.expand x node s with ⟨t, _ | e⟩
    · rw [hone] at hrun
      exact ih (h.expand x xs node s t hL hone) hrun
    · simp only [hone, Prod.mk.injEq] at hrun
      rw [← hrun.1, ← hrun.2]
      exact ⟨nofun, fun _ ↦ h.expandFailed x xs node s t e hL hone⟩

theorem Keeps.iterate (h : Keeps b P L Q) (hP : P xs s)
    (hrun : iterate b next xs position s = (s', r)) :
    (r = none → P [] s') ∧ (r ≠ none → Q s') := by
  induction xs generalizing s position with
  | nil =>
    simp only [SnapshotLoop.iterate, Prod.mk.injEq] at hrun
    rw [← hrun.1, ← hrun.2]
    exact ⟨fun _ ↦ hP, fun hne ↦ absurd rfl hne⟩
  | cons x xs ih =>
    unfold SnapshotLoop.iterate at hrun
    cases hvisit : b.visit x s with
    | done t =>
      rw [hvisit] at hrun
      exact ih (h.done x xs s t hP hvisit) hrun
    | failed t e =>
      simp only [hvisit, Prod.mk.injEq] at hrun
      rw [← hrun.1, ← hrun.2]
      exact ⟨nofun, fun _ ↦ h.failed x xs s t e hP hvisit⟩
    | matched t nodes =>
      simp only [hvisit] at hrun
      have hL := h.matched x xs s t nodes hP hvisit
      rcases hall : SnapshotLoop.expandAll (b.expand x) (nodes.drop position) t with ⟨u, _ | e⟩
      · rw [hall] at hrun
        exact ih (h.finish x xs u ((h.expandAll hL hall).1 rfl)) hrun
      · simp only [hall, Prod.mk.injEq] at hrun
        rw [← hrun.1, ← hrun.2]
        exact ⟨nofun, fun _ ↦ (h.expandAll hL hall).2 (by simp)⟩

/-- The state behind a visit. -/
def Turn.state : Turn ν σ ε → σ
  | .done s => s
  | .failed s _ => s
  | .matched s _ => s

/-- What every part of the body preserves holds behind the loop, also behind one that failed. -/
theorem iterate_induction {P : σ → Prop} (hvisit : ∀ x s, P s → P (b.visit x s).state)
    (hexpand : ∀ x node s, P s → P (b.expand x node s).1) (hfinish : ∀ x s, P s → P (b.finish x s))
    (hs : P s) : P (iterate b next xs position s).1 := by
  have hkeeps : Keeps b (fun _ s ↦ P s) (fun _ _ s ↦ P s) P := by
    constructor
    case done =>
      intro x xs s s' h heq
      have hkeep := hvisit x s h
      rw [heq] at hkeep
      exact hkeep
    case failed =>
      intro x xs s s' e h heq
      have hkeep := hvisit x s h
      rw [heq] at hkeep
      exact hkeep
    case matched =>
      intro x xs s s' nodes h heq
      have hkeep := hvisit x s h
      rw [heq] at hkeep
      exact hkeep
    case expand =>
      intro x xs node s s' h heq
      have hkeep := hexpand x node s h
      rw [heq] at hkeep
      exact hkeep
    case expandFailed =>
      intro x xs node s s' e h heq
      have hkeep := hexpand x node s h
      rw [heq] at hkeep
      exact hkeep
    case finish => exact fun x xs s h ↦ hfinish x s h
  rcases hrun : iterate b next xs position s with ⟨s', r⟩
  have hkeep := hkeeps.iterate hs hrun
  cases r with
  | none => exact hkeep.1 rfl
  | some e => exact hkeep.2 (by simp)

end Keeps

/-! ## What is matched and what is expanded -/

/-- The state logs each element with the nodes it matched, and each expansion with its node; an element
is open from its match on, while it is expanded. -/
structure Logs (b : Body ι ν σ ε) (matched : σ → List (ι × List ν)) (expanded : σ → List (ι × ν))
    (isOpen : ι → σ → Prop) : Prop where
  done : ∀ x s s', b.visit x s = .done s' → matched s' = matched s ∧ expanded s' = expanded s
  failed : ∀ x s s' e, b.visit x s = .failed s' e → matched s' = matched s
  visit : ∀ x s s' nodes, b.visit x s = .matched s' nodes →
    matched s' = matched s ++ [(x, nodes)] ∧ expanded s' = expanded s ∧ isOpen x s'
  expand : ∀ x node s s', isOpen x s → b.expand x node s = (s', none) →
    matched s' = matched s ∧ expanded s' = expanded s ++ [(x, node)] ∧ isOpen x s'
  expandFailed : ∀ x node s s' e, isOpen x s → b.expand x node s = (s', some e) →
    matched s' = matched s
  finish : ∀ x s, matched (b.finish x s) = matched s ∧ expanded (b.finish x s) = expanded s

/-- The expansions of a loop that starts at this position. -/
def expansions (next : Nat → Nat → Nat) : Nat → List (ι × List ν) → List (ι × ν)
  | _, [] => []
  | position, (x, nodes) :: rest =>
      (nodes.drop position).map (fun node ↦ (x, node)) ++
        expansions next (next position nodes.length) rest

theorem expansions_cons (next : Nat → Nat → Nat) (position : Nat) (rest : List (ι × List ν)) :
    expansions next position ((x, nodes) :: rest) =
      (nodes.drop position).map (fun node ↦ (x, node)) ++
        expansions next (next position nodes.length) rest :=
  rfl

section Logs

variable {matched : σ → List (ι × List ν)} {expanded : σ → List (ι × ν)}
variable {isOpen : ι → σ → Prop}

theorem Logs.expandAll_matched (h : Logs b matched expanded isOpen) (hopen : isOpen x s)
    (hrun : expandAll (b.expand x) nodes s = (s', r)) : matched s' = matched s := by
  induction nodes generalizing s with
  | nil =>
    simp only [expandAll, Prod.mk.injEq] at hrun
    rw [← hrun.1]
  | cons node nodes ih =>
    unfold expandAll at hrun
    rcases hone : b.expand x node s with ⟨t, _ | e⟩
    · rw [hone] at hrun
      have hexpand := h.expand x node s t hopen hone
      rw [ih hexpand.2.2 hrun, hexpand.1]
    · simp only [hone, Prod.mk.injEq] at hrun
      rw [← hrun.1, h.expandFailed x node s t e hopen hone]

theorem Logs.expandAll_expanded (h : Logs b matched expanded isOpen) (hopen : isOpen x s)
    (hrun : expandAll (b.expand x) nodes s = (s', none)) :
    expanded s' = expanded s ++ nodes.map fun node ↦ (x, node) := by
  induction nodes generalizing s with
  | nil =>
    simp only [expandAll, Prod.mk.injEq] at hrun
    rw [← hrun.1]
    simp
  | cons node nodes ih =>
    unfold expandAll at hrun
    rcases hone : b.expand x node s with ⟨t, _ | e⟩
    · rw [hone] at hrun
      have hexpand := h.expand x node s t hopen hone
      rw [ih hexpand.2.2 hrun, hexpand.2.1, List.map_cons, List.append_assoc]
      rfl
    · simp [hone] at hrun

/-- The log of matches grows by some of the elements. -/
theorem Logs.iterate_matched (h : Logs b matched expanded isOpen)
    (hrun : iterate b next xs position s = (s', r)) :
    ∃ new, matched s' = matched s ++ new ∧ (new.map Prod.fst).Sublist xs := by
  induction xs generalizing s position with
  | nil =>
    simp only [iterate, Prod.mk.injEq] at hrun
    exact ⟨[], by rw [← hrun.1, List.append_nil], List.Sublist.slnil⟩
  | cons x xs ih =>
    unfold iterate at hrun
    cases hvisit : b.visit x s with
    | done t =>
      rw [hvisit] at hrun
      rcases ih hrun with ⟨new, hnew, hsub⟩
      rw [(h.done x s t hvisit).1] at hnew
      exact ⟨new, hnew, hsub.cons x⟩
    | failed t e =>
      simp only [hvisit, Prod.mk.injEq] at hrun
      refine ⟨[], ?_, List.nil_sublist _⟩
      rw [← hrun.1, h.failed x s t e hvisit, List.append_nil]
    | matched t nodes =>
      simp only [hvisit] at hrun
      have hlog := (h.visit x s t nodes hvisit).1
      have hopen := (h.visit x s t nodes hvisit).2.2
      rcases hall : expandAll (b.expand x) (nodes.drop position) t with ⟨u, _ | e⟩
      · rw [hall] at hrun
        rcases ih hrun with ⟨new, hnew, hsub⟩
        rw [(h.finish x u).1, h.expandAll_matched hopen hall, hlog, List.append_assoc] at hnew
        exact ⟨(x, nodes) :: new, hnew, hsub.cons_cons x⟩
      · simp only [hall, Prod.mk.injEq] at hrun
        refine ⟨[(x, nodes)], ?_, (List.nil_sublist xs).cons_cons x⟩
        rw [← hrun.1, h.expandAll_matched hopen hall, hlog]

/-- A loop that does not fail makes exactly the expansions from its positions on. -/
theorem Logs.iterate_expanded (h : Logs b matched expanded isOpen)
    (hrun : iterate b next xs position s = (s', none)) :
    ∃ new, matched s' = matched s ++ new ∧ (new.map Prod.fst).Sublist xs ∧
      expanded s' = expanded s ++ expansions next position new := by
  induction xs generalizing s position with
  | nil =>
    simp only [iterate, Prod.mk.injEq] at hrun
    refine ⟨[], ?_, List.Sublist.slnil, ?_⟩
    · rw [← hrun.1, List.append_nil]
    · rw [← hrun.1]
      simp [expansions]
  | cons x xs ih =>
    unfold iterate at hrun
    cases hvisit : b.visit x s with
    | done t =>
      rw [hvisit] at hrun
      rcases ih hrun with ⟨new, hnew, hsub, hexp⟩
      rw [(h.done x s t hvisit).1] at hnew
      rw [(h.done x s t hvisit).2] at hexp
      exact ⟨new, hnew, hsub.cons x, hexp⟩
    | failed t e => simp [hvisit] at hrun
    | matched t nodes =>
      simp only [hvisit] at hrun
      have hlog := h.visit x s t nodes hvisit
      have hopen := hlog.2.2
      rcases hall : expandAll (b.expand x) (nodes.drop position) t with ⟨u, _ | e⟩
      · rw [hall] at hrun
        rcases ih hrun with ⟨new, hnew, hsub, hexp⟩
        rw [(h.finish x u).1, h.expandAll_matched hopen hall, hlog.1, List.append_assoc] at hnew
        rw [(h.finish x u).2, h.expandAll_expanded hopen hall, hlog.2.1, List.append_assoc] at hexp
        exact ⟨(x, nodes) :: new, hnew, hsub.cons_cons x, hexp⟩
      · simp [hall] at hrun

/-- The expansions of one element, in their order. -/
def expansionsOf [DecidableEq ι] (x : ι) (expansions : List (ι × ν)) : List ν :=
  (expansions.filter fun y ↦ y.1 = x).map Prod.snd

/-- The rule of a loop that reads on until it finds no node. -/
def readOn (position n : Nat) : Nat := max position n + 1

/-- The rule of a loop that starts again with every element. -/
def startAgain (_ _ : Nat) : Nat := 0

section Expansions

variable [DecidableEq ι] {new rest : List (ι × List ν)}

theorem expansionsOf_map (x y : ι) (nodes : List ν) :
    expansionsOf y (nodes.map fun node ↦ (x, node)) = if x = y then nodes else [] := by
  unfold expansionsOf
  rw [List.filter_map, List.map_map]
  by_cases heq : x = y
  · rw [if_pos heq]
    simp [Function.comp_def, heq]
  · rw [if_neg heq]
    simp [Function.comp_def, heq]

theorem expansionsOf_append (x : ι) (as cs : List (ι × ν)) :
    expansionsOf x (as ++ cs) = expansionsOf x as ++ expansionsOf x cs := by
  unfold expansionsOf
  rw [List.filter_append, List.map_append]

theorem expansionsOf_of_notMem (h : x ∉ new.map Prod.fst) :
    expansionsOf x (expansions next position new) = [] := by
  induction new generalizing position with
  | nil => rfl
  | cons y new ih =>
    rcases y with ⟨y, nodes⟩
    rw [List.map_cons, List.mem_cons, not_or] at h
    rw [expansions_cons, expansionsOf_append, expansionsOf_map, if_neg (Ne.symm h.1), ih h.2]
    rfl

/-- The first element is expanded from the position on, and the others as if it were not there. -/
theorem expansionsOf_cons (next : Nat → Nat → Nat) (position : Nat)
    (hnodup : ((x, nodes) :: rest |>.map Prod.fst).Nodup) :
    expansionsOf x (expansions next position ((x, nodes) :: rest)) = nodes.drop position ∧
      ∀ y ∈ rest, expansionsOf y.1 (expansions next position ((x, nodes) :: rest)) =
        expansionsOf y.1 (expansions next (next position nodes.length) rest) := by
  rw [List.map_cons, List.nodup_cons] at hnodup
  rw [expansions_cons]
  constructor
  · rw [expansionsOf_append, expansionsOf_map, if_pos rfl, expansionsOf_of_notMem hnodup.1,
      List.append_nil]
  · intro y hy
    have hne : x ≠ y.1 := by
      intro heq
      rw [heq] at hnodup
      exact hnodup.1 (List.mem_map.mpr ⟨y, hy, rfl⟩)
    rw [expansionsOf_append, expansionsOf_map, if_neg hne]
    rfl

/-- Past the start, an element is wholly expanded only if it matches nothing. -/
theorem whole_iff_of_pos (hpos : 0 < position) (hnodup : (new.map Prod.fst).Nodup) :
    (∀ y ∈ new, expansionsOf y.1 (expansions readOn position new) = y.2) ↔ ∀ y ∈ new, y.2 = [] := by
  induction new generalizing position with
  | nil => simp
  | cons y new ih =>
    rcases y with ⟨y, nodes⟩
    have hcons := expansionsOf_cons readOn position hnodup
    have hnext : 0 < readOn position nodes.length := by
      unfold readOn
      omega
    rw [List.map_cons, List.nodup_cons] at hnodup
    have hdrop : nodes.drop position = nodes ↔ nodes = [] := by
      constructor
      · intro heq
        have hlen := congrArg List.length heq
        rw [List.length_drop] at hlen
        apply List.eq_nil_of_length_eq_zero
        omega
      · intro heq
        rw [heq, List.drop_nil]
    rw [List.forall_mem_cons, List.forall_mem_cons, hcons.1, hdrop, ← ih hnext hnodup.2]
    constructor
    · intro h
      exact ⟨h.1, fun z hz ↦ by rw [← hcons.2 z hz]; exact h.2 z hz⟩
    · intro h
      exact ⟨h.1, fun z hz ↦ by rw [hcons.2 z hz]; exact h.2 z hz⟩

/-- From the start, every element is wholly expanded only if those after the first match nothing. -/
theorem whole_iff (hnodup : (new.map Prod.fst).Nodup) :
    (∀ y ∈ new, expansionsOf y.1 (expansions readOn 0 new) = y.2) ↔ ∀ y ∈ new.tail, y.2 = [] := by
  cases new with
  | nil => simp
  | cons y new =>
    rcases y with ⟨y, nodes⟩
    have hcons := expansionsOf_cons readOn 0 hnodup
    have hnext : 0 < readOn 0 nodes.length := by
      unfold readOn
      omega
    rw [List.map_cons, List.nodup_cons] at hnodup
    rw [List.forall_mem_cons, hcons.1, List.tail_cons, ← whole_iff_of_pos hnext hnodup.2]
    constructor
    · intro h z hz
      rw [← hcons.2 z hz]
      exact h.2 z hz
    · intro h
      exact ⟨rfl, fun z hz ↦ by rw [hcons.2 z hz]; exact h z hz⟩

end Expansions

/-! ## Loops with different rules -/

/-- The rule does not matter while nothing is matched. -/
theorem Logs.iterate_congr {new : List (ι × List ν)} (h : Logs b matched expanded isOpen)
    (hrun : iterate b next xs position s = (s', r)) (hnew : matched s' = matched s ++ new)
    (hempty : ∀ y ∈ new, y.2 = []) : iterate b next' xs position' s = (s', r) := by
  induction xs generalizing s position position' new with
  | nil => exact hrun
  | cons x xs ih =>
    unfold iterate at hrun ⊢
    cases hvisit : b.visit x s with
    | done t =>
      rw [hvisit] at hrun
      apply ih hrun _ hempty
      rw [(h.done x s t hvisit).1, hnew]
    | failed t e =>
      rw [hvisit] at hrun
      exact hrun
    | matched t nodes =>
      simp only [hvisit] at hrun ⊢
      have hlog := (h.visit x s t nodes hvisit).1
      have hopen := (h.visit x s t nodes hvisit).2.2
      have hnil : nodes = [] := by
        have hin : (x, nodes) ∈ new := by
          rcases hall : expandAll (b.expand x) (nodes.drop position) t with ⟨u, _ | e⟩
          · rw [hall] at hrun
            rcases h.iterate_matched hrun with ⟨later, hlater, -⟩
            rw [(h.finish x u).1, h.expandAll_matched hopen hall, hlog, hnew, List.append_assoc,
              List.append_cancel_left_eq] at hlater
            rw [hlater]
            simp
          · simp only [hall, Prod.mk.injEq] at hrun
            rw [← hrun.1, h.expandAll_matched hopen hall, hlog, List.append_cancel_left_eq] at hnew
            rw [← hnew]
            simp
        exact hempty _ hin
      rw [hnil] at hlog hrun ⊢
      rw [List.drop_nil] at hrun ⊢
      unfold expandAll at hrun ⊢
      dsimp only at hrun ⊢
      rcases h.iterate_matched hrun with ⟨later, hlater, -⟩
      apply ih hrun hlater
      rw [(h.finish x t).1, hlog, hnew, List.append_assoc, List.append_cancel_left_eq] at hlater
      intro y hy
      apply hempty
      rw [hlater]
      exact List.mem_append_right _ hy

/-- From the start, the rule does not matter while only the first element matches. -/
theorem Logs.iterate_congr_tail {new : List (ι × List ν)} (h : Logs b matched expanded isOpen)
    (next' : Nat → Nat → Nat) (hrun : iterate b next xs 0 s = (s', r))
    (hnew : matched s' = matched s ++ new)
    (hempty : ∀ y ∈ new.tail, y.2 = []) : iterate b next' xs 0 s = (s', r) := by
  induction xs generalizing s new with
  | nil => exact hrun
  | cons x xs ih =>
    unfold iterate at hrun ⊢
    cases hvisit : b.visit x s with
    | done t =>
      rw [hvisit] at hrun
      apply ih hrun _ hempty
      rw [(h.done x s t hvisit).1, hnew]
    | failed t e =>
      rw [hvisit] at hrun
      exact hrun
    | matched t nodes =>
      simp only [hvisit] at hrun ⊢
      have hlog := (h.visit x s t nodes hvisit).1
      have hopen := (h.visit x s t nodes hvisit).2.2
      rcases hall : expandAll (b.expand x) (nodes.drop 0) t with ⟨u, _ | e⟩
      · simp only [hall] at hrun ⊢
        rcases h.iterate_matched hrun with ⟨later, hlater, -⟩
        apply h.iterate_congr hrun hlater
        rw [(h.finish x u).1, h.expandAll_matched hopen hall, hlog, hnew, List.append_assoc,
          List.append_cancel_left_eq] at hlater
        rw [hlater] at hempty
        exact hempty
      · simp only [hall] at hrun ⊢
        exact hrun

/-- A loop that reads on expands every element wholly exactly when, in the loop that starts again,
the elements after the first match nothing. -/
theorem Logs.whole_iff_startAgain [DecidableEq ι] {new : List (ι × List ν)}
    (h : Logs b matched expanded isOpen) (hnodup : xs.Nodup)
    (hrun : iterate b readOn xs 0 s = (s', none)) (hnew : matched s' = matched s ++ new) :
    (∀ y ∈ new, expansionsOf y.1 ((expanded s').drop (expanded s).length) = y.2) ↔
      ∀ y ∈ ((matched (iterate b startAgain xs 0 s).1).drop (matched s).length).tail, y.2 = [] := by
  rcases h.iterate_expanded hrun with ⟨found, hfound, hsub, hexp⟩
  rw [hnew, List.append_cancel_left_eq] at hfound
  subst hfound
  rw [hexp, List.drop_left, whole_iff (hnodup.sublist hsub)]
  constructor
  · intro hempty
    rw [h.iterate_congr_tail startAgain hrun hnew hempty, hnew, List.drop_left]
    exact hempty
  · intro hempty
    rcases hagain : iterate b startAgain xs 0 s with ⟨t, r⟩
    rw [hagain] at hempty
    rcases h.iterate_matched hagain with ⟨found, hfound, -⟩
    rw [hfound, List.drop_left] at hempty
    have hsame := h.iterate_congr_tail readOn hagain hfound hempty
    rw [hrun, Prod.mk.injEq] at hsame
    rw [← hsame.1, hnew, List.append_cancel_left_eq] at hfound
    rw [hfound]
    exact hempty

end Logs

end EvQueue.SnapshotLoop
