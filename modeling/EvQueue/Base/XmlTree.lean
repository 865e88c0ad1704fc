import Mathlib.Data.List.Basic

/-!
# XmlTree — elements of a document in document order, with and without a part of the tree

A node is found by its path from the document element.  A `cut` tells, from the names of a parent and of
its child, below which elements a part of the document begins that is to be told apart from the rest.
The elements found outside these parts are those of the document in which the parts are emptied.
-/

namespace EvQueue

abbrev Attributes := List (String × String)

inductive Xml where
  | text (content : String)
  | element (name : String) (attributes : Attributes) (children : List Xml)

namespace Xml

/-- The positions of the ancestors below the document element and of the node itself. -/
abbrev Path := List Nat

/-- `getAttribute`: the empty string when there is no such attribute. -/
def getAttribute (a : Attributes) (name : String) : String := (a.lookup name).getD ""

/-- An element as it is found: where it stands, and whether this is in a part that was cut off. -/
structure Found where
  path : Path
  attributes : Attributes
  inside : Bool
deriving DecidableEq

section

variable (cut : String → String → Bool) (name : String)

mutual

/-- The elements called `name`, in document order. -/
def descendants (parent : String) (path : Path) (inside : Bool) : Xml → List Found
  | text _ => []
  | element n attributes children =>
      (if n = name then [⟨path, attributes, inside⟩] else []) ++
        descendantsOf n path (inside || cut parent n) 0 children

def descendantsOf (parent : String) (path : Path) (inside : Bool) : Nat → List Xml → List Found
  | _, [] => []
  | i, child :: children =>
      descendants parent (path ++ [i]) inside child ++ descendantsOf parent path inside (i + 1) children

end

mutual

/-- The document with the cut parts emptied. -/
def prune (parent : String) : Xml → Xml
  | text content => text content
  | element n attributes children =>
      element n attributes (if cut parent n then [] else pruneList n children)

def pruneList (parent : String) : List Xml → List Xml
  | [] => []
  | child :: children => prune parent child :: pruneList parent children

end

variable {cut name}

mutual

/-- Below a cut everything is inside. -/
theorem inside_descendants {parent : String} {path : Path} :
    ∀ (x : Xml), ∀ e ∈ descendants cut name parent path true x, e.inside = true
  | text _ => nofun
  | element n attributes children => by
      unfold descendants
      intro e he
      rcases List.mem_append.mp he with hself | hbelow
      · by_cases hname : n = name
        · rw [if_pos hname, List.mem_singleton] at hself
          rw [hself]
        · rw [if_neg hname] at hself
          cases hself
      · exact inside_descendantsOf 0 children e hbelow

theorem inside_descendantsOf {parent : String} {path : Path} :
    ∀ (i : Nat) (xs : List Xml), ∀ e ∈ descendantsOf cut name parent path true i xs, e.inside = true
  | _, [] => nofun
  | i, child :: children => by
      unfold descendantsOf
      intro e he
      rcases List.mem_append.mp he with hchild | hrest
      · exact inside_descendants child e hchild
      · exact inside_descendantsOf (i + 1) children e hrest

end

theorem outside_descendantsOf_inside {parent : String} {path : Path} (i : Nat) (xs : List Xml) :
    (descendantsOf cut name parent path true i xs).filter (fun e ↦ !e.inside) = [] := by
  rw [List.filter_eq_nil_iff]
  intro e he
  rw [inside_descendantsOf i xs e he]
  decide

mutual

/-- The elements outside the cut parts are those of the pruned document. -/
theorem outside_descendants {parent : String} {path : Path} :
    ∀ (x : Xml), (descendants cut name parent path false x).filter (fun e ↦ !e.inside) =
      descendants cut name parent path false (prune cut parent x)
  | text _ => rfl
  | element n attributes children => by
      unfold descendants prune
      have hself : (if n = name then [(⟨path, attributes, false⟩ : Found)] else []).filter
          (fun e ↦ !e.inside) = if n = name then [⟨path, attributes, false⟩] else [] := by
        by_cases hname : n = name
        · rw [if_pos hname]
          rfl
        · rw [if_neg hname]
          rfl
      rw [List.filter_append, hself, Bool.false_or]
      cases hcut : cut parent n with
      | true =>
        rw [outside_descendantsOf_inside]
        rfl
      | false =>
        rw [outside_descendantsOf 0 children]
        dsimp only
        rw [hcut]
        rfl

theorem outside_descendantsOf {parent : String} {path : Path} :
    ∀ (i : Nat) (xs : List Xml),
      (descendantsOf cut name parent path false i xs).filter (fun e ↦ !e.inside) =
        descendantsOf cut name parent path false i (pruneList cut parent xs)
  | _, [] => rfl
  | i, child :: children => by
      unfold descendantsOf pruneList
      rw [List.filter_append, outside_descendants child, outside_descendantsOf (i + 1) children]

end

/-! ## Paths -/

mutual

theorem prefix_of_descendants {parent : String} {path : Path} {inside : Bool} :
    ∀ (x : Xml), ∀ e ∈ descendants cut name parent path inside x, path <+: e.path
  | text _ => nofun
  | element n attributes children => by
      unfold descendants
      intro e he
      rcases List.mem_append.mp he with hself | hbelow
      · by_cases hname : n = name
        · rw [if_pos hname, List.mem_singleton] at hself
          have hpath : e.path = path := by rw [hself]
          exact ⟨[], by rw [hpath, List.append_nil]⟩
        · rw [if_neg hname] at hself
          cases hself
      · rcases prefix_of_descendantsOf 0 children e hbelow with ⟨j, -, hprefix⟩
        exact (List.prefix_append path [j]).trans hprefix

theorem prefix_of_descendantsOf {parent : String} {path : Path} {inside : Bool} :
    ∀ (i : Nat) (xs : List Xml), ∀ e ∈ descendantsOf cut name parent path inside i xs,
      ∃ j, i ≤ j ∧ path ++ [j] <+: e.path
  | _, [] => nofun
  | i, child :: children => by
      unfold descendantsOf
      intro e he
      rcases List.mem_append.mp he with hchild | hrest
      · exact ⟨i, Nat.le_refl i, prefix_of_descendants child e hchild⟩
      · rcases prefix_of_descendantsOf (i + 1) children e hrest with ⟨j, hle, hprefix⟩
        exact ⟨j, by omega, hprefix⟩

end

/-- The first step below a node is determined. -/
theorem step_of_prefix {path q : Path} {i j : Nat} (hi : path ++ [i] <+: q) (hj : path ++ [j] <+: q) :
    i = j := by
  rcases hi with ⟨r, rfl⟩
  rcases hj with ⟨r', heq⟩
  rw [List.append_assoc, List.append_assoc, List.append_cancel_left_eq, List.cons_append,
    List.cons_append, List.cons.injEq] at heq
  exact heq.1.symm

mutual

/-- No element is found twice. -/
theorem nodup_descendants {parent : String} {path : Path} {inside : Bool} :
    ∀ (x : Xml), ((descendants cut name parent path inside x).map Found.path).Nodup
  | text _ => List.nodup_nil
  | element n attributes children => by
      unfold descendants
      rw [List.map_append, List.nodup_append]
      refine ⟨?_, nodup_descendantsOf 0 children, ?_⟩
      · by_cases hname : n = name
        · rw [if_pos hname]
          simp
        · rw [if_neg hname]
          exact List.nodup_nil
      · intro p hself q hbelow heq
        rcases List.mem_map.mp hbelow with ⟨e, he, hpath⟩
        rcases prefix_of_descendantsOf 0 children e he with ⟨j, -, hprefix⟩
        have hp : p = path := by
          by_cases hname : n = name
          · rw [if_pos hname] at hself
            exact List.mem_singleton.mp hself
          · rw [if_neg hname] at hself
            cases hself
        rw [hpath, ← heq, hp] at hprefix
        have hlength := hprefix.length_le
        rw [List.length_append, List.length_singleton] at hlength
        omega

theorem nodup_descendantsOf {parent : String} {path : Path} {inside : Bool} :
    ∀ (i : Nat) (xs : List Xml),
      ((descendantsOf cut name parent path inside i xs).map Found.path).Nodup
  | _, [] => List.nodup_nil
  | i, child :: children => by
      unfold descendantsOf
      rw [List.map_append, List.nodup_append]
      refine ⟨nodup_descendants child, nodup_descendantsOf (i + 1) children, ?_⟩
      intro p hchild q hrest heq
      rcases List.mem_map.mp hchild with ⟨e, he, hpath⟩
      rcases List.mem_map.mp hrest with ⟨e', he', hpath'⟩
      have hprefix := prefix_of_descendants child e he
      rcases prefix_of_descendantsOf (i + 1) children e' he' with ⟨j, hle, hprefix'⟩
      rw [hpath, heq] at hprefix
      rw [hpath'] at hprefix'
      have hij := step_of_prefix hprefix hprefix'
      omega

end

end

end Xml

end EvQueue
