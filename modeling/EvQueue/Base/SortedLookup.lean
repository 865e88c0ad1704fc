import Mathlib.Tactic.Common

/-!
# SortedLookup — the binary search the engine's tables share

`search cmp fuel first last` probes the middle of the interval that starts at `first` and ends before
`last`; `cmp i` compares the entry at `i` with the key.  The C++ loops keep `end = last - 1` in a
signed variable, which makes the empty interval `end < begin`.
-/

namespace EvQueue.SortedLookup

def search (cmp : Nat → Ordering) : Nat → Nat → Nat → Option Nat
  | 0, _, _ => none
  | fuel + 1, first, last =>
      if first < last then
        let middle := (first + (last - 1)) / 2
        match cmp middle with
        | .eq => some middle
        | .lt => search cmp fuel (middle + 1) last
        | .gt => search cmp fuel first middle
      else none

/-- The search over a table of `n` entries; each probe shrinks the interval. -/
def lookup (cmp : Nat → Ordering) (n : Nat) : Option Nat := search cmp (n + 1) 0 n

/-- A hit is a hit whatever the order of the table. -/
theorem search_eq_some {cmp : Nat → Ordering} {fuel first last i : Nat}
    (h : search cmp fuel first last = some i) : cmp i = .eq ∧ first ≤ i ∧ i < last := by
  induction fuel generalizing first last with
  | zero => simp [search] at h
  | succ fuel ih =>
    unfold search at h
    split at h
    · rename_i hlt
      dsimp only at h
      split at h
      · rename_i heq
        have hi := Option.some.inj h
        subst hi
        exact ⟨heq, by omega, by omega⟩
      · have hrec := ih h
        exact ⟨hrec.1, by omega, hrec.2.2⟩
      · have hrec := ih h
        exact ⟨hrec.1, hrec.2.1, by omega⟩
    · cases h

/-- Below the key every probe says `lt`, above it every probe says `gt`. -/
structure Splits (cmp : Nat → Ordering) (i n : Nat) : Prop where
  hit : cmp i = .eq
  below : ∀ j, j < i → cmp j = .lt
  above : ∀ j, i < j → j < n → cmp j = .gt

theorem search_of_splits {cmp : Nat → Ordering} {fuel first last i n : Nat}
    (hs : Splits cmp i n) (hfirst : first ≤ i) (hlast : i < last) (hn : last ≤ n)
    (hfuel : last - first < fuel) : search cmp fuel first last = some i := by
  induction fuel generalizing first last with
  | zero => omega
  | succ fuel ih =>
    unfold search
    rw [if_pos (by omega)]
    dsimp only
    rcases Nat.lt_trichotomy ((first + (last - 1)) / 2) i with hlt | heq | hgt
    · rw [hs.below _ hlt]
      exact ih (by omega) hlast hn (by omega)
    · rw [heq, hs.hit]
    · rw [hs.above _ hgt (by omega)]
      exact ih hfirst hgt (by omega) (by omega)

theorem lookup_of_splits {cmp : Nat → Ordering} {i n : Nat} (hs : Splits cmp i n) (hi : i < n) :
    lookup cmp n = some i :=
  search_of_splits hs (Nat.zero_le i) hi (Nat.le_refl n) (by omega)

theorem lookup_eq_some {cmp : Nat → Ordering} {i n : Nat} (h : lookup cmp n = some i) :
    cmp i = .eq ∧ i < n :=
  ⟨(search_eq_some h).1, (search_eq_some h).2.2⟩

/-! ## Tables in which every entry is found -/

section Tables

variable {κ : Type} {order : κ → κ → Ordering} {table : Nat → κ}

/-- The entries from `first` on and before `last` are in strictly ascending order. -/
def Sorted (order : κ → κ → Ordering) (table : Nat → κ) (first last : Nat) : Prop :=
  ∀ i j, first ≤ i → i < j → j < last → order (table i) (table j) = .lt

/-- No entry of the interval stands twice in it. -/
def Distinct (table : Nat → κ) (first last : Nat) : Prop :=
  ∀ i j, first ≤ i → i < j → j < last → table i ≠ table j

/-- Every entry of the interval is found when it is searched for. -/
def FindsAll (order : κ → κ → Ordering) (table : Nat → κ) (fuel first last : Nat) : Prop :=
  ∀ i, first ≤ i → i < last →
    ∃ j, search (fun k ↦ order (table k) (table i)) fuel first last = some j

theorem splits_of_sorted [Std.OrientedCmp order] {i n : Nat} (h : Sorted order table 0 n)
    (hi : i < n) : Splits (fun k ↦ order (table k) (table i)) i n := by
  constructor
  case hit => exact Std.ReflCmp.compare_self
  case below => exact fun j hj ↦ h j i (Nat.zero_le j) hj hi
  case above => exact fun j hj hn ↦ Std.OrientedCmp.gt_of_lt (h i j (Nat.zero_le i) hj hn)

/-- A search for an entry of the interval that hits within `first'` and `last'` hits that entry. -/
theorem inside_of_hit [Std.LawfulEqCmp order] {fuel first last first' last' i j : Nat}
    (hdistinct : Distinct table first last) (hi : first ≤ i) (hi' : i < last)
    (hfirst : first ≤ first') (hlast : last' ≤ last)
    (h : search (fun k ↦ order (table k) (table i)) fuel first' last' = some j) :
    first' ≤ i ∧ i < last' := by
  obtain ⟨heq, hj, hj'⟩ := search_eq_some h
  have hsame := Std.LawfulEqCmp.eq_of_compare heq
  rcases Nat.lt_trichotomy j i with hlt | hji | hgt
  · exact absurd hsame (hdistinct j i (by omega) hlt hi')
  · omega
  · exact absurd hsame.symm (hdistinct i j hi hgt (by omega))

/-- The probe decides where an entry is searched for, so it has every entry on its right side. -/
theorem probe_of_findsAll [Std.LawfulEqCmp order] {fuel first last m i : Nat}
    (hdistinct : Distinct table first last) (h : FindsAll order table (fuel + 1) first last)
    (hm : (first + (last - 1)) / 2 = m) (hi : first ≤ i) (hi' : i < last) :
    (i < m → order (table m) (table i) = .gt ∧
      ∃ j, search (fun k ↦ order (table k) (table i)) fuel first m = some j) ∧
    (m < i → order (table m) (table i) = .lt ∧
      ∃ j, search (fun k ↦ order (table k) (table i)) fuel (m + 1) last = some j) := by
  obtain ⟨j, hj⟩ := h i hi hi'
  unfold search at hj
  rw [if_pos (by omega), hm] at hj
  dsimp only at hj
  split at hj
  · rename_i heq
    have hsame := Std.LawfulEqCmp.eq_of_compare heq
    constructor
    · intro him
      exact absurd hsame.symm (hdistinct i m hi him (by omega))
    · intro hmi
      exact absurd hsame (hdistinct m i (by omega) hmi hi')
  · rename_i hless
    have hright := inside_of_hit hdistinct hi hi' (by omega) (Nat.le_refl last) hj
    exact ⟨fun _ ↦ by omega, fun _ ↦ ⟨hless, j, hj⟩⟩
  · rename_i hgreater
    have hleft := inside_of_hit hdistinct hi hi' (Nat.le_refl first) (by omega) hj
    exact ⟨fun _ ↦ ⟨hgreater, j, hj⟩, fun _ ↦ by omega⟩

/-- Two sorted intervals around an entry that lies between them. -/
theorem Sorted.around [Std.TransCmp order] {first last m : Nat}
    (hleft : Sorted order table first m) (hright : Sorted order table (m + 1) last)
    (hbelow : ∀ i, first ≤ i → i < m → order (table i) (table m) = .lt)
    (habove : ∀ j, m < j → j < last → order (table m) (table j) = .lt) :
    Sorted order table first last := by
  intro i j hi hij hj
  rcases Nat.lt_trichotomy j m with hjm | rfl | hjm
  · exact hleft i j hi hij hjm
  · exact hbelow i hi hij
  · rcases Nat.lt_trichotomy i m with him | rfl | him
    · exact Std.TransCmp.lt_trans (hbelow i hi him) (habove j hjm hj)
    · exact habove j hjm hj
    · exact hright i j him hij hj

theorem sorted_of_findsAll [Std.TransCmp order] [Std.LawfulEqCmp order] {fuel first last : Nat}
    (hdistinct : Distinct table first last) (h : FindsAll order table fuel first last) :
    Sorted order table first last := by
  induction fuel generalizing first last with
  | zero =>
    intro i j hfirst hij hlast
    obtain ⟨k, hk⟩ := h i hfirst (by omega)
    cases hk
  | succ fuel ih =>
    by_cases hlt : first < last
    · obtain ⟨m, hm⟩ : ∃ m, (first + (last - 1)) / 2 = m := ⟨_, rfl⟩
      have hprobe (i : Nat) (hi : first ≤ i) (hi' : i < last) :=
        probe_of_findsAll hdistinct h hm hi hi'
      apply Sorted.around (m := m)
      · apply ih
        · exact fun i j hi hij hj ↦ hdistinct i j hi hij (by omega)
        · exact fun i hi hi' ↦ ((hprobe i hi (by omega)).1 hi').2
      · apply ih
        · exact fun i j hi hij hj ↦ hdistinct i j (by omega) hij hj
        · exact fun i hi hi' ↦ ((hprobe i (by omega) hi').2 (by omega)).2
      · exact fun i hi him ↦ Std.OrientedCmp.lt_of_gt ((hprobe i hi (by omega)).1 him).1
      · exact fun j hmj hj ↦ ((hprobe j (by omega) hj).2 hmj).1
    · intro i j hi hij hj
      omega

/-- A table of distinct entries is sorted exactly when the search finds each of them. -/
theorem findsAll_iff_sorted [Std.TransCmp order] [Std.LawfulEqCmp order] {n : Nat}
    (hdistinct : Distinct table 0 n) :
    FindsAll order table (n + 1) 0 n ↔ Sorted order table 0 n := by
  constructor
  · exact sorted_of_findsAll hdistinct
  · intro h i _ hi
    exact ⟨i, lookup_of_splits (splits_of_sorted h hi) hi⟩

end Tables

end EvQueue.SortedLookup
