import Mathlib.Data.List.Nodup
import Mathlib.Data.List.Perm.Subperm

/-!
# Cells — singly linked lists in a heap

The engine keeps its lists as raw cells with a `next` pointer.  This file has the heap of such
cells, the predicate that a pointer heads a list of cells, and the lemmas that say what survives an
allocation, a release or a pointer write.  Nothing here is about queues.
-/

namespace EvQueue.Cells

abbrev Addr := Nat

structure Cell (α : Type) where
  val : α
  next : Option Addr
deriving DecidableEq, Repr

/-- The allocated cells with their addresses. -/
abbrev Heap (α : Type) := List (Addr × Cell α)

namespace Heap

variable {α : Type}

/-- `none` is a read of memory that is not allocated. -/
def read (h : Heap α) (a : Addr) : Option (Cell α) := h.lookup a

def free (h : Heap α) (a : Addr) : Heap α := h.filter (fun e ↦ e.1 != a)

def write (h : Heap α) (a : Addr) (c : Cell α) : Heap α := (a, c) :: h.free a

/-- `a->next = p`. -/
def setNext (h : Heap α) (a : Addr) (p : Option Addr) : Option (Heap α) :=
  (h.read a).map fun c ↦ h.write a { c with next := p }

theorem read_cons (h : Heap α) (a b : Addr) (c : Cell α) :
    Heap.read ((a, c) :: h) b = if b = a then some c else h.read b := by
  by_cases hba : b = a
  · simp [read, hba]
  · have hbeq : (b == a) = false := by simpa using hba
    simp [read, List.lookup_cons, hbeq, hba]

theorem read_free (h : Heap α) (a b : Addr) :
    (h.free a).read b = if b = a then none else h.read b := by
  induction h with
  | nil => simp [read, free]
  | cons e h ih =>
    obtain ⟨x, c⟩ := e
    by_cases hxa : x = a
    · have hfree : Heap.free ((x, c) :: h) a = Heap.free h a := by simp [free, hxa]
      rw [hfree, ih, read_cons]
      by_cases hba : b = a <;> simp [hba, hxa]
    · have hfree : Heap.free ((x, c) :: h) a = (x, c) :: Heap.free h a := by simp [free, hxa]
      rw [hfree, read_cons, read_cons, ih]
      by_cases hbx : b = x <;> simp [hbx, hxa]

@[simp] theorem read_free_self (h : Heap α) (a : Addr) : (h.free a).read a = none := by
  simp [read_free]

theorem read_free_of_ne (h : Heap α) {a b : Addr} (hne : b ≠ a) :
    (h.free a).read b = h.read b := by
  simp [read_free, hne]

@[simp] theorem read_write_self (h : Heap α) (a : Addr) (c : Cell α) :
    (h.write a c).read a = some c := by
  rw [write, read_cons, if_pos rfl]

theorem read_write_of_ne (h : Heap α) {a b : Addr} (c : Cell α) (hne : b ≠ a) :
    (h.write a c).read b = h.read b := by
  rw [write, read_cons, if_neg hne, read_free_of_ne h hne]

theorem setNext_eq_some {h : Heap α} {a : Addr} {c : Cell α} (p : Option Addr)
    (hread : h.read a = some c) :
    h.setNext a p = some (h.write a { c with next := p }) := by
  simp [setNext, hread]

theorem mem_of_read {h : Heap α} {a : Addr} {c : Cell α} (hread : h.read a = some c) :
    a ∈ h.map Prod.fst := by
  induction h with
  | nil => simp [read] at hread
  | cons e h ih =>
    obtain ⟨x, d⟩ := e
    by_cases hax : a = x
    · simp [hax]
    · rw [read_cons, if_neg hax] at hread
      exact List.mem_cons_of_mem _ (ih hread)

end Heap

/-- What `new` promises: the address it returns is not in use. -/
structure Allocator (α : Type) where
  new : Heap α → Addr
  fresh : ∀ h : Heap α, h.read (new h) = none

/-- An allocator that never returns an address at or below one in use. -/
def Allocator.bump (α : Type) : Allocator α where
  new h := (h.map Prod.fst).foldr max 0 + 1
  fresh h := by
    have hmax : ∀ (l : List Addr) (a : Addr), a ∈ l → a ≤ l.foldr max 0 := by
      intro l a ha
      induction l with
      | nil => simp at ha
      | cons x l ih =>
        rcases List.mem_cons.mp ha with rfl | hin
        · exact Nat.le_max_left _ _
        · exact Nat.le_trans (ih hin) (Nat.le_max_right _ _)
    cases hread : h.read ((h.map Prod.fst).foldr max 0 + 1) with
    | none => rfl
    | some c =>
      exact absurd (hmax _ _ (Heap.mem_of_read hread)) (Nat.not_succ_le_self _)

/-! ## Segments and chains -/

section Chains

variable {α : Type} {h h' : Heap α} {p q : Option Addr} {l l' m : List (Addr × α)}

/-- Following `next` from `p` visits exactly the cells of `l` and stops at the pointer `q`. -/
def Seg (h : Heap α) : Option Addr → List (Addr × α) → Option Addr → Prop
  | p, [], q => p = q
  | p, e :: l, q => p = some e.1 ∧ ∃ n, h.read e.1 = some ⟨e.2, n⟩ ∧ Seg h n l q

/-- `p` heads the null-terminated list `l`. -/
def Chain (h : Heap α) (p : Option Addr) (l : List (Addr × α)) : Prop := Seg h p l none

abbrev addrs (l : List (Addr × α)) : List Addr := l.map Prod.fst

@[simp] theorem chain_nil : Chain h p [] ↔ p = none := Iff.rfl

theorem chain_cons {e : Addr × α} :
    Chain h p (e :: l) ↔ p = some e.1 ∧ ∃ n, h.read e.1 = some ⟨e.2, n⟩ ∧ Chain h n l := Iff.rfl

theorem chain_none (hc : Chain h none l) : l = [] := by
  cases l with
  | nil => rfl
  | cons e l => simp [chain_cons] at hc

theorem seg_append : Seg h p (l ++ m) q ↔ ∃ r, Seg h p l r ∧ Seg h r m q := by
  induction l generalizing p with
  | nil => simp [Seg]
  | cons e l ih =>
    simp only [List.cons_append, Seg, ih]
    constructor
    · rintro ⟨hp, n, hread, r, hl, hm⟩
      exact ⟨r, ⟨hp, n, hread, hl⟩, hm⟩
    · rintro ⟨r, ⟨hp, n, hread, hl⟩, hm⟩
      exact ⟨hp, n, hread, r, hl, hm⟩

/-- A segment only depends on the cells it visits. -/
theorem Seg.congr (hs : Seg h p l q) (hread : ∀ a ∈ addrs l, h'.read a = h.read a) :
    Seg h' p l q := by
  induction l generalizing p with
  | nil => exact hs
  | cons e l ih =>
    obtain ⟨hp, n, hcell, hrest⟩ := hs
    refine ⟨hp, n, ?_, ih hrest fun a ha ↦ hread a (by simp [ha])⟩
    rw [hread e.1 (by simp), hcell]

theorem Seg.write (hs : Seg h p l q) {a : Addr} (c : Cell α) (ha : a ∉ addrs l) :
    Seg (h.write a c) p l q :=
  hs.congr fun _ hb ↦ Heap.read_write_of_ne h c (fun hba ↦ ha (hba ▸ hb))

theorem Seg.free (hs : Seg h p l q) {a : Addr} (ha : a ∉ addrs l) : Seg (h.free a) p l q :=
  hs.congr fun _ hb ↦ Heap.read_free_of_ne h (fun hba ↦ ha (hba ▸ hb))

theorem Seg.read_of_mem (hs : Seg h p l q) {a : Addr} (ha : a ∈ addrs l) :
    ∃ c, h.read a = some c := by
  induction l generalizing p with
  | nil => simp at ha
  | cons e l ih =>
    obtain ⟨-, n, hcell, hrest⟩ := hs
    rcases List.mem_cons.mp ha with rfl | hin
    · exact ⟨_, hcell⟩
    · exact ih hrest hin

theorem Seg.not_mem_of_fresh (hs : Seg h p l q) {a : Addr} (hfresh : h.read a = none) :
    a ∉ addrs l := by
  intro ha
  obtain ⟨c, hc⟩ := hs.read_of_mem ha
  rw [hfresh] at hc
  cases hc

/-- Two null-terminated lists with the same head are the same list. -/
theorem Chain.unique (hl : Chain h p l) (hl' : Chain h p l') : l = l' := by
  induction l generalizing p l' with
  | nil =>
    rw [chain_nil] at hl
    subst hl
    exact (chain_none hl').symm
  | cons e l ih =>
    obtain ⟨rfl, n, hcell, hrest⟩ := hl
    cases l' with
    | nil => simp at hl'
    | cons e' l' =>
      obtain ⟨he, n', hcell', hrest'⟩ := hl'
      obtain ⟨a, v⟩ := e
      obtain ⟨a', v'⟩ := e'
      obtain rfl : a = a' := by simpa using he
      obtain ⟨rfl, rfl⟩ : v = v' ∧ n = n' := by simpa [hcell] using hcell'
      rw [ih hrest hrest']

theorem Chain.suffix (hc : Chain h p (l ++ m)) : ∃ r, Seg h p l r ∧ Chain h r m :=
  seg_append.mp hc

/-- A null-terminated list cannot visit a cell twice: the second visit would head the same list. -/
theorem Chain.nodup (hc : Chain h p l) : (addrs l).Nodup := by
  induction l generalizing p with
  | nil => simp
  | cons e l ih =>
    have hrest := hc
    obtain ⟨hp, n, hcell, hrest⟩ := hrest
    refine List.nodup_cons.mpr ⟨fun hmem ↦ ?_, ih hrest⟩
    obtain ⟨e', hin, heq⟩ := List.mem_map.mp hmem
    obtain ⟨front, back, rfl⟩ := List.append_of_mem hin
    obtain ⟨r, -, hback⟩ := Chain.suffix hrest
    have hr : r = some e'.1 := hback.1
    rw [hr, heq, ← hp] at hback
    have hlen := congrArg List.length (hc.unique hback)
    simp at hlen
    omega

theorem Chain.length_le (hc : Chain h p l) : l.length ≤ h.length := by
  have hsub : addrs l ⊆ h.map Prod.fst := fun a ha ↦ by
    obtain ⟨c, hread⟩ := Seg.read_of_mem hc ha
    exact Heap.mem_of_read hread
  simpa using (List.subperm_of_subset hc.nodup hsub).length_le

/-- Redirecting the last cell of a segment. -/
theorem Seg.setLast {a : Addr} {v : α} (hs : Seg h p (l ++ [(a, v)]) q) (ha : a ∉ addrs l)
    (q' : Option Addr) : Seg (h.write a ⟨v, q'⟩) p (l ++ [(a, v)]) q' := by
  obtain ⟨r, hl, hlast⟩ := seg_append.mp hs
  refine seg_append.mpr ⟨r, hl.write _ ha, ?_⟩
  exact ⟨hlast.1, q', by simp, rfl⟩

/-- Linking a fresh cell behind a cell: what was behind it is cut off. -/
theorem Chain.cut {a b : Addr} {v w : α} (hc : Chain h p (l ++ (a, v) :: m))
    (hfresh : h.read b = none) :
    Chain ((h.write b ⟨w, none⟩).write a ⟨v, some b⟩) p (l ++ [(a, v), (b, w)]) := by
  have hb := Seg.not_mem_of_fresh hc hfresh
  have hnd := hc.nodup
  simp only [List.map_append, List.map_cons, List.nodup_append] at hnd
  have ha : a ∉ addrs l := fun hin ↦ hnd.2.2 a hin a List.mem_cons_self rfl
  have hbl : b ∉ addrs l := fun hin ↦ hb (by simp [hin])
  have hne : b ≠ a := by
    rintro rfl
    simp at hb
  obtain ⟨r, hfront, hr, n, hcell, -⟩ := Chain.suffix hc
  refine seg_append.mpr ⟨r, (hfront.write _ hbl).write _ ha, hr, some b, ?_, rfl, none, ?_, rfl⟩
  · rw [Heap.read_write_self]
  · rw [Heap.read_write_of_ne _ _ hne, Heap.read_write_self]

/-- Linking a fresh cell behind the last one. -/
theorem Chain.push {a b : Addr} {v w : α} (hc : Chain h p (l ++ [(a, v)]))
    (hfresh : h.read b = none) :
    Chain ((h.write b ⟨w, none⟩).write a ⟨v, some b⟩) p (l ++ [(a, v), (b, w)]) :=
  hc.cut hfresh

/-- A fresh cell in front of a list. -/
theorem Chain.cons {b : Addr} {w : α} (hc : Chain h p l) (hfresh : h.read b = none) :
    Chain (h.write b ⟨w, p⟩) (some b) ((b, w) :: l) := by
  refine ⟨rfl, p, ?_, Seg.write hc _ (Seg.not_mem_of_fresh hc hfresh)⟩
  rw [Heap.read_write_self]

/-- A fresh cell behind a cell: it takes over the link to what was behind. -/
theorem Chain.insert {a b : Addr} {v w : α} (hc : Chain h p (l ++ (a, v) :: m))
    (hfresh : h.read b = none) : ∃ n, h.read a = some ⟨v, n⟩ ∧
      (h.write b ⟨w, n⟩).setNext a (some b) = some ((h.write b ⟨w, n⟩).write a ⟨v, some b⟩) ∧
      Chain ((h.write b ⟨w, n⟩).write a ⟨v, some b⟩) p (l ++ (a, v) :: (b, w) :: m) := by
  have hb := Seg.not_mem_of_fresh hc hfresh
  have hnd := hc.nodup
  simp only [addrs, List.map_append, List.map_cons, List.nodup_append, List.nodup_cons] at hnd
  have ha : a ∉ addrs l := fun hin ↦ hnd.2.2 a hin a List.mem_cons_self rfl
  have hbl : b ∉ addrs l := fun hin ↦ hb (by simp [hin])
  have hbm : b ∉ addrs m := fun hin ↦ hb (by simp [hin])
  have hne : b ≠ a := by
    intro heq
    apply hb
    simp [heq]
  rcases Chain.suffix hc with ⟨r, hfront, hr, n, hcell, hback⟩
  have hback' : Seg ((h.write b ⟨w, n⟩).write a ⟨v, some b⟩) n m none :=
    (hback.write _ hbm).write _ hnd.2.1.1
  refine ⟨n, hcell, Heap.setNext_eq_some (c := ⟨v, n⟩) (some b) ?_, ?_⟩
  · exact (Heap.read_write_of_ne h _ hne.symm).trans hcell
  · refine seg_append.mpr ⟨r, (hfront.write _ hbl).write _ ha, hr, some b, ?_, rfl, n, ?_, hback'⟩
    · rw [Heap.read_write_self]
    · rw [Heap.read_write_of_ne _ _ hne, Heap.read_write_self]

end Chains

/-! ## Links: the pointer to a pointer that a scan moves along a list -/

/-- The place a `T **` cursor points to: the head field of the list, or the `next` field of a cell. -/
inductive Link where
  | head
  | next (a : Addr)
deriving DecidableEq, Repr

namespace Link

variable {α : Type} {h : Heap α} {first p : Option Addr} {ks l : List (Addr × α)}

def read (h : Heap α) (first : Option Addr) : Link → Option (Option Addr)
  | .head => some first
  | .next a => (h.read a).map Cell.next

/-- `*link = p`, as the new heap and the new head field. -/
def write (h : Heap α) (first p : Option Addr) : Link → Option (Heap α × Option Addr)
  | .head => some (h, p)
  | .next a => (h.setNext a p).map fun h' ↦ (h', first)

/-- The link that a scan stands on once it has kept the cells `ks`. -/
def after (ks : List (Addr × α)) : Link :=
  match ks.getLast? with
  | none => .head
  | some e => .next e.1

@[simp] theorem after_nil : after ([] : List (Addr × α)) = .head := rfl

@[simp] theorem after_concat (e : Addr × α) : after (ks ++ [e]) = .next e.1 := by
  simp [after]

theorem read_after (hs : Seg h first ks p) : (after ks).read h first = some p := by
  rcases List.eq_nil_or_concat ks with rfl | ⟨ks, e, rfl⟩
  · exact congrArg some hs
  · rw [List.concat_eq_append] at hs ⊢
    obtain ⟨r, -, -, n, hcell, hn⟩ := seg_append.mp hs
    rw [after_concat, read, hcell]
    exact congrArg some hn

/-- Writing the link behind `ks` redirects the segment and touches no other cell. -/
theorem write_after (hs : Seg h first ks p) (hnd : (addrs ks).Nodup) (p' : Option Addr) :
    ∃ h' first', (after ks).write h first p' = some (h', first') ∧ Seg h' first' ks p' ∧
      ∀ a, a ∉ addrs ks → h'.read a = h.read a := by
  rcases List.eq_nil_or_concat ks with rfl | ⟨ks, ⟨a, v⟩, rfl⟩
  · exact ⟨h, p', rfl, rfl, fun _ _ ↦ rfl⟩
  · rw [List.concat_eq_append] at hs hnd ⊢
    obtain ⟨r, -, -, n, hcell, -⟩ := seg_append.mp hs
    have ha : a ∉ addrs ks := by
      simp only [List.map_append, List.map_cons, List.map_nil, List.nodup_append] at hnd
      exact fun hin ↦ hnd.2.2 a hin a (by simp) rfl
    refine ⟨h.write a ⟨v, p'⟩, first, ?_, hs.setLast ha p', fun b hb ↦ ?_⟩
    · rw [after_concat, write, Heap.setNext_eq_some p' hcell]
      rfl
    · exact Heap.read_write_of_ne h _ (fun hba ↦ hb (by simp [hba]))

/-- The cell behind `ks` is taken out through the link and released. -/
theorem unlink {e : Addr × α} (hc : Chain h first (ks ++ e :: l)) :
    ∃ n h' first', (after ks).read h first = some (some e.1) ∧ h.read e.1 = some ⟨e.2, n⟩ ∧
      (after ks).write h first n = some (h', first') ∧ Chain (h'.free e.1) first' (ks ++ l) := by
  have hnd := hc.nodup
  simp only [addrs, List.map_append, List.map_cons, List.nodup_append, List.nodup_cons] at hnd
  have heks : e.1 ∉ addrs ks := fun hin ↦ hnd.2.2 _ hin _ List.mem_cons_self rfl
  rcases Chain.suffix hc with ⟨r, hfront, hr, n, hcell, hback⟩
  rw [hr] at hfront
  rcases write_after hfront hnd.1 n with ⟨h', first', hwrite, hseg, hframe⟩
  refine ⟨n, h', first', read_after hfront, hcell, hwrite, seg_append.mpr ⟨n, hseg.free heks, ?_⟩⟩
  have hback' : Seg h' n l none := hback.congr fun a ha ↦
    hframe a fun hin ↦ hnd.2.2 _ hin _ (List.mem_cons_of_mem _ ha) rfl
  exact hback'.free hnd.2.1.1

end Link

end EvQueue.Cells
