import Mathlib.Data.List.Pairwise
import EvQueue.QueuePool

/-!
# QueueNames — which queues the pool finds

The constructor stores the names of the queues in the order in which the database returns them, which
does not tell the two cases of a letter apart.  `lookup` searches the same array by `strcmp`, which does.
-/

namespace EvQueue

/-! ## Strings in the order of their characters -/

/-- Strings compared character by character, each by its weight; a prefix comes first. -/
def compareWeights (weight : Char → Nat) : List Char → List Char → Ordering
  | [], [] => .eq
  | [], _ :: _ => .lt
  | _ :: _, [] => .gt
  | a :: as, b :: bs =>
      if weight a < weight b then .lt
      else if weight b < weight a then .gt
      else compareWeights weight as bs

section Weights

variable {weight : Char → Nat} {as bs cs : List Char}

theorem compareWeights_swap (weight : Char → Nat) (as bs : List Char) :
    compareWeights weight as bs = (compareWeights weight bs as).swap := by
  induction as generalizing bs with
  | nil => cases bs <;> rfl
  | cons a as ih =>
    cases bs with
    | nil => rfl
    | cons b bs =>
      unfold compareWeights
      rcases Nat.lt_trichotomy (weight a) (weight b) with hlt | heq | hgt
      · rw [if_pos hlt, if_neg (by omega), if_pos hlt]
        rfl
      · rw [if_neg (by omega), if_neg (by omega), if_neg (by omega), if_neg (by omega)]
        exact ih bs
      · rw [if_neg (by omega), if_pos hgt, if_pos hgt]
        rfl

/-- What is not after the other is before it, or weighs the same. -/
theorem compareWeights_isLE_cons {a b : Char} :
    (compareWeights weight (a :: as) (b :: bs)).isLE = true ↔
      weight a < weight b ∨ weight a = weight b ∧ (compareWeights weight as bs).isLE = true := by
  conv_lhs => unfold compareWeights
  rcases Nat.lt_trichotomy (weight a) (weight b) with hlt | heq | hgt
  · rw [if_pos hlt]
    simp [hlt]
  · rw [if_neg (by omega), if_neg (by omega)]
    simp [heq]
  · rw [if_neg (by omega), if_pos hgt]
    simp only [Ordering.isLE_gt, Bool.false_eq_true, false_iff]
    omega

theorem compareWeights_isLE_trans (h : (compareWeights weight as bs).isLE = true)
    (h' : (compareWeights weight bs cs).isLE = true) : (compareWeights weight as cs).isLE = true := by
  induction as generalizing bs cs with
  | nil => cases cs <;> rfl
  | cons a as ih =>
    cases bs with
    | nil => cases h
    | cons b bs =>
      cases cs with
      | nil => cases h'
      | cons c cs =>
        rw [compareWeights_isLE_cons] at h h' ⊢
        rcases h with hab | ⟨hab, hrest⟩
        · left
          omega
        · rcases h' with hbc | ⟨hbc, hrest'⟩
          · left
            omega
          · exact .inr ⟨by omega, ih hrest hrest'⟩

instance (weight : Char → Nat) : Std.TransCmp (compareWeights weight) where
  eq_swap := compareWeights_swap weight _ _
  isLE_trans := compareWeights_isLE_trans

theorem strcmp_eq_compareWeights (as bs : List Char) : strcmp as bs = compareWeights Char.toNat as bs := by
  induction as generalizing bs with
  | nil => cases bs <;> rfl
  | cons a as ih =>
    cases bs with
    | nil => rfl
    | cons b bs =>
      unfold strcmp compareWeights
      rw [ih bs]

end Weights

/-- `strcmp` on strings. -/
def strcmpString (a b : String) : Ordering := strcmp a.toList b.toList

instance : Std.TransCmp strcmpString where
  eq_swap := by
    intro a b
    unfold strcmpString
    rw [strcmp_eq_compareWeights, strcmp_eq_compareWeights]
    exact compareWeights_swap Char.toNat _ _
  isLE_trans := by
    intro a b c hab hbc
    unfold strcmpString at *
    rw [strcmp_eq_compareWeights] at *
    exact compareWeights_isLE_trans hab hbc

instance : Std.LawfulEqCmp strcmpString where
  compare_self := by
    intro a
    unfold strcmpString
    rw [strcmp_eq_compareWeights]
    exact Std.ReflCmp.compare_self
  eq_of_compare h := String.toList_inj.mp (QueuePool.strcmp_eq h)

/-! ## The order of the database -/

/-- A case-insensitive collation: every character has a weight, and both cases of a letter have the same. -/
structure Collation where
  weight : Char → Nat
  caseInsensitive : ∀ k < 26, weight (Char.ofNat ('A'.toNat + k)) = weight (Char.ofNat ('a'.toNat + k))

namespace Collation

/-- Letters weigh what their capitals do, as in MySQL's `latin1_swedish_ci` and `utf8_general_ci`. -/
def capitals : Collation where
  weight c := c.toUpper.toNat
  caseInsensitive := by decide

def compare (collation : Collation) (a b : String) : Ordering :=
  compareWeights collation.weight a.toList b.toList

/-- What `ORDER BY queue_name ASC` returns. -/
def Orders (collation : Collation) (names : List String) : Prop :=
  names.Pairwise fun a b ↦ collation.compare a b ≠ .gt

/-- The names come in the same order by `strcmp`: those that the collation tells apart, and those that
differ in case only, which the database returns in some order. -/
structure Agrees (collation : Collation) (names : List String) : Prop where
  apart : ∀ a ∈ names, ∀ b ∈ names, collation.compare a b = .lt → strcmpString a b = .lt
  same : names.Pairwise fun a b ↦ collation.compare a b = .eq → strcmpString a b = .lt

instance (collation : Collation) : Std.TransCmp collation.compare where
  eq_swap := compareWeights_swap _ _ _
  isLE_trans := compareWeights_isLE_trans

variable {collation : Collation} {names : List String}

theorem agrees_iff_ascending (h : collation.Orders names) :
    collation.Agrees names ↔ names.Pairwise fun a b ↦ strcmpString a b = .lt := by
  constructor
  · intro hagrees
    apply List.pairwise_of_forall_sublist
    intro a b hab
    have hnot := List.Pairwise.forall_sublist h hab
    cases hcompare : collation.compare a b with
    | lt => exact hagrees.apart a (hab.subset (by simp)) b (hab.subset (by simp)) hcompare
    | eq => exact hagrees.same.forall_sublist hab hcompare
    | gt => exact absurd hcompare hnot
  · intro hascending
    constructor
    case same =>
      apply List.pairwise_of_forall_sublist
      intro a b hab _
      exact hascending.forall_sublist hab
    case apart =>
      -- of two names the collation cannot put the one first that stands behind the other
      have hall := List.Pairwise.forall_of_forall_of_flip
        (R := fun a b ↦ collation.compare a b = .lt → strcmpString a b = .lt) (l := names) ?_ ?_ ?_
      · exact fun a ha b hb ↦ hall ha hb
      · intro a _ hlt
        have heq : collation.compare a a = .eq := Std.ReflCmp.compare_self
        rw [heq] at hlt
        cases hlt
      · apply List.pairwise_of_forall_sublist
        intro a b hab _
        exact hascending.forall_sublist hab
      · apply List.pairwise_of_forall_sublist
        intro a b hab hlt
        exact absurd (Std.OrientedCmp.gt_of_lt hlt) (List.Pairwise.forall_sublist h hab)

end Collation

/-! ## What the pool finds -/

namespace QueuePool

open Cells

variable {WI DOMNode : Type} {rows : List (String × UInt32 × UInt32)} {maxpid : Fin (2 ^ 31)}
variable {p : QueuePool WI DOMNode}

/-- A name is found exactly when a queue has it, at an index of that name, and no task is refused for a
queue that exists. -/
def FindsQueues (p : QueuePool WI DOMNode) (names : List String) : Prop :=
  ∀ q, ((∃ i, p.lookup q = some i ∧ p.name[i]? = some q) ↔ q ∈ names) ∧
    (q ∈ names → ∀ A wi task p', p.enqueueTask A q wi task ≠ some (false, p'))

theorem create_name (h : create rows maxpid = .ok p) : p.name = rows.map Prod.fst := by
  unfold create Except.map at h
  split at h
  · cases h
  · cases h
    rfl

/-- `EnqueueTask` refuses a task exactly when `lookup` misses the queue. -/
theorem enqueueTask_refused {A : Allocator (Task WI DOMNode)} {q : String} {wi : WI} {task : DOMNode}
    {p' : QueuePool WI DOMNode} (h : p.enqueueTask A q wi task = some (false, p')) :
    p.lookup q = none := by
  unfold enqueueTask at h
  cases hlookup : p.lookup q with
  | none => rfl
  | some i =>
    rw [hlookup] at h
    obtain ⟨queue, -, h⟩ := Option.bind_eq_some_iff.mp h
    obtain ⟨queue', -, h⟩ := Option.map_eq_some_iff.mp h
    cases h

theorem findsQueues_iff_findsAll :
    p.FindsQueues p.name ↔
      SortedLookup.FindsAll strcmpString (fun i ↦ p.name[i]?.getD "") (p.name.length + 1) 0
        p.name.length := by
  constructor
  · -- every entry of the table is a name, and a name is found
    intro h i _ hi
    have hname : p.name[i]?.getD "" = p.name[i] := by
      rw [List.getElem?_eq_getElem hi, Option.getD_some]
    obtain ⟨j, hj, -⟩ := (h (p.name[i]?.getD "")).1.mpr (by rw [hname]; exact List.getElem_mem hi)
    exact ⟨j, hj⟩
  · intro h q
    have hfound : q ∈ p.name → ∃ i, p.lookup q = some i := by
      intro hq
      obtain ⟨i, hi, hiq⟩ := List.mem_iff_getElem.mp hq
      obtain ⟨j, hj⟩ := h i (Nat.zero_le i) hi
      dsimp only at hj
      rw [List.getElem?_eq_getElem hi, Option.getD_some, hiq] at hj
      exact ⟨j, hj⟩
    constructor
    · constructor
      · intro hex
        obtain ⟨i, -, hname⟩ := hex
        exact List.mem_of_getElem? hname
      · intro hq
        obtain ⟨i, hi⟩ := hfound hq
        exact ⟨i, hi, lookup_name hi⟩
    · intro hq A wi task p' hrefused
      obtain ⟨i, hi⟩ := hfound hq
      rw [enqueueTask_refused hrefused] at hi
      cases hi

/-- Every queue is found, and no other, exactly when the order of the database is that of `strcmp`. -/
theorem findsQueues_iff (collation : Collation) (rows : List (String × UInt32 × UInt32))
    (maxpid : Fin (2 ^ 31)) (p : QueuePool WI DOMNode) (hcreate : create rows maxpid = .ok p)
    (hdistinct : (rows.map Prod.fst).Nodup) (horders : collation.Orders (rows.map Prod.fst)) :
    p.FindsQueues (rows.map Prod.fst) ↔ collation.Agrees (rows.map Prod.fst) := by
  have hname := create_name hcreate
  rw [← hname] at hdistinct horders ⊢
  have hentry {i : Nat} (hi : i < p.name.length) : p.name[i]?.getD "" = p.name[i] := by
    rw [List.getElem?_eq_getElem hi, Option.getD_some]
  have hentries : SortedLookup.Distinct (fun i ↦ p.name[i]?.getD "") 0 p.name.length := by
    intro i j _ hij hj
    dsimp only
    rw [hentry hj, hentry (Nat.lt_trans hij hj)]
    exact List.pairwise_iff_getElem.mp hdistinct i j _ hj hij
  -- a binary search finds all entries of a table only if the table is in the order of the search
  rw [findsQueues_iff_findsAll, SortedLookup.findsAll_iff_sorted hentries,
    Collation.agrees_iff_ascending horders, List.pairwise_iff_getElem]
  constructor
  · intro h i j hi hj hij
    have hlt := h i j (Nat.zero_le i) hij hj
    dsimp only at hlt
    rw [hentry hj, hentry hi] at hlt
    exact hlt
  · intro h i j _ hij hj
    dsimp only
    rw [hentry hj, hentry (Nat.lt_trans hij hj)]
    exact h i j _ hj hij

/-- Two queues named in small letters. -/
theorem findsQueues_smallLetters : ∃ p : QueuePool Unit Unit,
    create [("default", 1, 4), ("mail-2", 2, 1)] 32768 = .ok p ∧ p.FindsQueues ["default", "mail-2"] := by
  refine ⟨_, rfl, ?_⟩
  apply (findsQueues_iff .capitals [("default", 1, 4), ("mail-2", 2, 1)] 32768 _ rfl (by decide)
    (by unfold Collation.Orders; decide)).mpr
  constructor
  · decide
  · decide

/-- The database returns `a` before `B`, and `strcmp` takes `a` for the greater one: the search for `B`
goes to its left. -/
theorem not_findsQueues : ∃ p : QueuePool Unit Unit,
    create [("a", 1, 1), ("B", 2, 1)] 32768 = .ok p ∧ ["a", "B"].Nodup ∧
      Collation.capitals.Orders ["a", "B"] ∧ p.lookup "B" = none ∧
      p.enqueueTask (.bump (Task Unit Unit)) "B" () () = some (false, p) ∧
      ¬ p.FindsQueues ["a", "B"] := by
  refine ⟨_, rfl, by decide, by unfold Collation.Orders; decide, by decide, rfl, ?_⟩
  intro h
  exact (h "B").2 (by decide) (.bump (Task Unit Unit)) () () _ rfl

end QueuePool

end EvQueue
