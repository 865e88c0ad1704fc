import Mathlib.Algebra.Group.Nat.Defs
import Mathlib.Tactic.Common
import Mathlib.Data.List.Forall2

/-!
# Odometer — the least mixed-radix number at or above another whose digits are all allowed

A wheel has a length and a set of allowed digits; a row of wheels, the lowest first, shows a number.
`turn` finds, wheel by wheel from the lowest, the first allowed digit: from the digit shown on, when all
higher digits may stay, and from zero otherwise.  A wheel that passes its end asks the next one to move
on.  The row it gives is the least allowed one at or above the row shown.
-/

namespace EvQueue.Odometer

structure Wheel where
  length : Nat
  allowed : Nat → Bool

/-- The row shows digits that its wheels have. -/
def InRange : List Wheel → List Nat → Prop := List.Forall₂ fun w d ↦ d < w.length

/-- All digits shown are allowed. -/
def Allowed : List Wheel → List Nat → Prop := List.Forall₂ fun w d ↦ d < w.length ∧ w.allowed d = true

instance (ws : List Wheel) (ds : List Nat) : Decidable (Allowed ws ds) :=
  inferInstanceAs (Decidable (List.Forall₂ _ _ _))

def radix (ws : List Wheel) : Nat := (ws.map Wheel.length).prod

def value : List Wheel → List Nat → Nat
  | w :: ws, d :: ds => d + w.length * value ws ds
  | _, _ => 0

/-- The first allowed digit from `x` on, past the end from 0 on. -/
def Wheel.next (w : Wheel) (x : Nat) : Option Nat :=
  ((List.range w.length).find? fun i ↦ w.allowed ((x + i) % w.length)).map fun i ↦
    (x + i) % w.length

def Wheel.least (w : Wheel) : Option Nat := (List.range w.length).find? w.allowed

/-- The row found, lowest digit first, and whether it passed the end. -/
def turn : List Wheel → List Nat → Nat → Option (List Nat × Nat)
  | w :: ws, x :: xs, carry =>
      (if Allowed ws xs then
        (w.next (x + carry)).map fun d ↦ (d, if d < x + carry then 1 else 0)
      else w.least.map fun d ↦ (d, 0)).bind fun (d, carry') ↦
        (turn ws xs carry').map fun (ds, out) ↦ (d :: ds, out)
  | _, _, carry => some ([], carry)

variable {w : Wheel} {ws : List Wheel} {d x : Nat} {ds xs : List Nat}

theorem Allowed.inRange (h : Allowed ws ds) : InRange ws ds := h.imp fun _ _ h ↦ h.1

@[simp] theorem radix_cons : radix (w :: ws) = w.length * radix ws := rfl

@[simp] theorem value_cons : value (w :: ws) (d :: ds) = d + w.length * value ws ds := rfl

theorem value_lt_radix (h : InRange ws ds) : value ws ds < radix ws := by
  induction h with
  | nil => exact Nat.zero_lt_one
  | @cons w d ws ds hd hrest ih =>
    have hmul := Nat.mul_le_mul_left w.length ih
    simp only [Nat.mul_succ] at hmul
    rw [value_cons, radix_cons]
    omega

/-- A row is determined by the number it shows. -/
theorem value_inj (hds : InRange ws ds) (hxs : InRange ws xs) (h : value ws ds = value ws xs) :
    ds = xs := by
  induction hds generalizing xs with
  | nil =>
    cases hxs
    rfl
  | @cons w d ws ds hd hrest ih =>
    cases hxs with
    | @cons _ x _ xs hx hxs =>
      rw [value_cons, value_cons] at h
      have hmod := congrArg (· % w.length) h
      simp only [Nat.add_mul_mod_self_left, Nat.mod_eq_of_lt hd, Nat.mod_eq_of_lt hx] at hmod
      have hpos : 0 < w.length := by omega
      have hval : value ws ds = value ws xs := by
        apply Nat.eq_of_mul_eq_mul_left hpos
        omega
      rw [hmod, ih hxs hval]

/-! ## One wheel -/

theorem Wheel.least_spec (h : w.least = some d) :
    (d < w.length ∧ w.allowed d = true) ∧ ∀ k, w.allowed k = true → d ≤ k := by
  unfold Wheel.least at h
  rw [List.find?_range_eq_some] at h
  rcases h with ⟨hd, hmem, hbefore⟩
  refine ⟨⟨List.mem_range.mp hmem, hd⟩, ?_⟩
  intro k hk
  by_contra hno
  have hbad := hbefore k (by omega)
  simp [hk] at hbad

/-- The digit found is the first allowed one from `x` on, or there is none and it is the least. -/
theorem Wheel.next_spec (hx : x ≤ w.length) (h : w.next x = some d) :
    (d < w.length ∧ w.allowed d = true) ∧
      ((x ≤ d ∧ ∀ k, x ≤ k → w.allowed k = true → d ≤ k) ∨
        (d < x ∧ (∀ k, x ≤ k → k < w.length → w.allowed k = false) ∧
          ∀ k, k < w.length → w.allowed k = true → d ≤ k)) := by
  unfold Wheel.next at h
  rcases Option.map_eq_some_iff.mp h with ⟨i, hfind, rfl⟩
  rw [List.find?_range_eq_some] at hfind
  rcases hfind with ⟨hallowed, hmem, hbefore⟩
  have hi : i < w.length := List.mem_range.mp hmem
  refine ⟨⟨Nat.mod_lt _ (by omega), hallowed⟩, ?_⟩
  by_cases hwrap : x + i < w.length
  · rw [Nat.mod_eq_of_lt hwrap] at *
    refine .inl ⟨by omega, ?_⟩
    intro k hxk hk
    by_contra hno
    have hbad := hbefore (k - x) (by omega)
    rw [show x + (k - x) = k by omega, Nat.mod_eq_of_lt (by omega), hk] at hbad
    cases hbad
  · have hmod : (x + i) % w.length = x + i - w.length := by
      rw [Nat.mod_eq_sub_mod (by omega), Nat.mod_eq_of_lt (by omega)]
    refine .inr ⟨by omega, ?_, ?_⟩
    · intro k hxk hk
      have hbad := hbefore (k - x) (by omega)
      rw [show x + (k - x) = k by omega, Nat.mod_eq_of_lt hk] at hbad
      simpa using hbad
    · intro k hklt hk
      by_contra hno
      have hbad := hbefore (k + w.length - x) (by omega)
      rw [show x + (k + w.length - x) = k + w.length by omega, Nat.add_mod_right,
        Nat.mod_eq_of_lt hklt, hk] at hbad
      cases hbad

theorem Wheel.next_ne_none (h : ∃ k, k < w.length ∧ w.allowed k = true) (hx : x ≤ w.length) :
    w.next x ≠ none := by
  rcases h with ⟨k, hk, hallowed⟩
  unfold Wheel.next
  rw [Ne, Option.map_eq_none_iff, List.find?_range_eq_none]
  intro hnone
  by_cases hxk : x ≤ k
  · have hbad := hnone (k - x) (by omega)
    rw [show x + (k - x) = k by omega, Nat.mod_eq_of_lt hk, hallowed] at hbad
    cases hbad
  · have hbad := hnone (k + w.length - x) (by omega)
    rw [show x + (k + w.length - x) = k + w.length by omega, Nat.add_mod_right,
      Nat.mod_eq_of_lt hk, hallowed] at hbad
    cases hbad

theorem Wheel.least_ne_none (h : ∃ k, k < w.length ∧ w.allowed k = true) : w.least ≠ none := by
  rcases h with ⟨k, hk, hallowed⟩
  unfold Wheel.least
  rw [Ne, List.find?_range_eq_none]
  intro hnone
  have hbad := hnone k hk
  simp [hallowed] at hbad

/-! ## The row -/

/-- `ds`, one round further on when `out` is 1, is the least allowed row at or above `n`. -/
structure LeastFrom (ws : List Wheel) (n : Nat) (ds : List Nat) (out : Nat) : Prop where
  allowed : Allowed ws ds
  le : n ≤ value ws ds + out * radix ws
  least : ∀ xs k, Allowed ws xs → n ≤ value ws xs + k * radix ws →
    value ws ds + out * radix ws ≤ value ws xs + k * radix ws

theorem value_add_radix (out : Nat) :
    value (w :: ws) (d :: ds) + out * radix (w :: ws) =
      d + w.length * (value ws ds + out * radix ws) := by
  rw [value_cons, radix_cons, Nat.mul_add, Nat.add_assoc, Nat.mul_left_comm]

theorem le_of_digit_le {n u v : Nat} (hd : d < n) (h : x + n * v ≤ d + n * u) : v ≤ u := by
  by_contra hno
  have hmul := Nat.mul_le_mul_left n (show u + 1 ≤ v by omega)
  rw [Nat.mul_succ] at hmul
  omega

/-- All higher digits may stay and an allowed digit is found before the end: the higher digits do
stay. -/
theorem LeastFrom.stay {out : Nat} (hrest : LeastFrom ws (value ws xs) ds out)
    (hvalid : Allowed ws xs) (hd : d < w.length ∧ w.allowed d = true) (hxd : x ≤ d)
    (hleast : ∀ k, x ≤ k → w.allowed k = true → d ≤ k) :
    LeastFrom (w :: ws) (value (w :: ws) (x :: xs)) (d :: ds) out := by
  have hsame : value ws ds + out * radix ws = value ws xs := by
    have hle := hrest.least xs 0 hvalid (by omega)
    have hge := hrest.le
    omega
  refine ⟨List.Forall₂.cons hd hrest.allowed, ?_, ?_⟩
  · rw [value_add_radix, hsame, value_cons]
    omega
  · intro ys k hys hle
    cases hys with
    | @cons _ y _ ys hy hys =>
      rw [value_add_radix, value_cons] at hle
      rw [value_add_radix, value_add_radix, hsame]
      have hv := le_of_digit_le hy.1 hle
      rcases Nat.eq_or_lt_of_le hv with heq | hlt
      · rw [← heq] at hle ⊢
        have hxy := hleast y (by omega) hy.2
        omega
      · have hmul := Nat.mul_le_mul_left w.length hlt
        rw [Nat.mul_succ] at hmul
        omega

/-- The least digit is taken and the higher digits are those of a greater number. -/
theorem LeastFrom.move {n out : Nat} (hrest : LeastFrom ws n ds out)
    (hgt : value ws xs < value ws ds + out * radix ws) (hx : x ≤ w.length)
    (hd : d < w.length ∧ w.allowed d = true) (hleast : ∀ k, w.allowed k = true → k < w.length → d ≤ k)
    (hbound : ∀ y ys k, y < w.length → w.allowed y = true → Allowed ws ys →
      x + w.length * value ws xs ≤ y + w.length * (value ws ys + k * radix ws) →
      n ≤ value ws ys + k * radix ws) :
    LeastFrom (w :: ws) (x + w.length * value ws xs) (d :: ds) out := by
  refine ⟨List.Forall₂.cons hd hrest.allowed, ?_, ?_⟩
  · have hmul := Nat.mul_le_mul_left w.length hgt
    rw [Nat.mul_succ] at hmul
    rw [value_add_radix]
    omega
  · intro ys k hys hle
    cases hys with
    | @cons _ y _ ys hy hys =>
      rw [value_add_radix] at hle
      rw [value_add_radix, value_add_radix]
      have hmin := hrest.least ys k hys (hbound y ys k hy.1 hy.2 hys hle)
      have hmul := Nat.mul_le_mul_left w.length hmin
      have hdy := hleast y hy.2 hy.1
      omega

/-- `turn` finds the least allowed row, where a carry comes in only with all digits allowed. -/
theorem turn_least {carry out : Nat} (hx : InRange ws xs)
    (hcarry : carry = 0 ∨ carry = 1 ∧ Allowed ws xs) (h : turn ws xs carry = some (ds, out)) :
    LeastFrom ws (value ws xs + carry) ds out := by
  induction hx generalizing carry ds out with
  | nil =>
    obtain ⟨rfl, rfl⟩ : [] = ds ∧ carry = out := by simpa [turn] using h
    refine ⟨List.Forall₂.nil, by simp [value, radix], ?_⟩
    intro ys k hys hle
    cases hys
    simpa [value, radix] using hle
  | @cons w x ws xs hxw hxs ih =>
    unfold turn at h
    have hcomm : value (w :: ws) (x :: xs) + carry = x + carry + w.length * value ws xs := by
      rw [value_cons]
      omega
    -- whether the wheels above show an allowed row
    by_cases hvalid : Allowed ws xs
    · rw [if_pos hvalid] at h
      rcases Option.bind_eq_some_iff.mp h with ⟨⟨d, carry'⟩, hfind, h⟩
      rcases Option.map_eq_some_iff.mp hfind with ⟨d', hnext, heq⟩
      obtain ⟨rfl, rfl⟩ := Prod.mk.inj heq
      rcases Option.map_eq_some_iff.mp h with ⟨⟨rest, out'⟩, hturn, heq⟩
      obtain ⟨rfl, rfl⟩ := Prod.mk.inj heq
      have hle : x + carry ≤ w.length := by omega
      rcases w.next_spec hle hnext with ⟨hd, ⟨hge, hleast⟩ | ⟨hlt, hnone, hleast⟩⟩
      · rw [if_neg (by omega)] at hturn
        have hrest := ih (.inl rfl) hturn
        rw [hcomm]
        exact hrest.stay hvalid hd hge hleast
      · -- nothing is left on this wheel, the next one moves on
        rw [if_pos hlt] at hturn
        have hrest := ih (.inr ⟨rfl, hvalid⟩) hturn
        rw [hcomm]
        refine hrest.move hrest.le hle hd (fun k hk hlen ↦ hleast k hlen hk) ?_
        intro y ys k hy hyallowed _ hbound
        have hv := le_of_digit_le hy hbound
        rcases Nat.eq_or_lt_of_le hv with heq | hlt
        · rw [heq] at hbound
          have hbad := hnone y (by omega) hy
          rw [hyallowed] at hbad
          cases hbad
        · exact hlt
    · rw [if_neg hvalid] at h
      rcases Option.bind_eq_some_iff.mp h with ⟨⟨d, carry'⟩, hfind, h⟩
      rcases Option.map_eq_some_iff.mp hfind with ⟨d', hleast, heq⟩
      obtain ⟨rfl, rfl⟩ := Prod.mk.inj heq
      rcases Option.map_eq_some_iff.mp h with ⟨⟨rest, out'⟩, hturn, heq⟩
      obtain ⟨rfl, rfl⟩ := Prod.mk.inj heq
      have hrest := ih (.inl rfl) hturn
      have hzero : carry = 0 := by
        rcases hcarry with h0 | ⟨-, hall⟩
        · exact h0
        · cases hall with
          | cons _ hall => exact absurd hall hvalid
      have hspec := w.least_spec hleast
      -- the row shown is not allowed, so the one found shows another number
      have hgt : value ws xs < value ws rest + out' * radix ws := by
        rcases Nat.eq_or_lt_of_le hrest.le with heq | hlt
        · exfalso
          have hbound := value_lt_radix hxs
          have hout : out' = 0 := by
            by_contra hne
            have hmul := Nat.mul_le_mul_right (radix ws) (show 1 ≤ out' by omega)
            omega
          subst hout
          have hrow := value_inj hrest.allowed.inRange hxs (by omega)
          rw [hrow] at hrest
          exact hvalid hrest.allowed
        · exact hlt
      rw [hcomm, hzero]
      refine hrest.move hgt (by omega) hspec.1 (fun k hk _ ↦ hspec.2 k hk) ?_
      intro y ys k hy _ _ hbound
      exact le_of_digit_le hy hbound

theorem turn_ne_none {carry : Nat} (hx : InRange ws xs) (hcarry : carry ≤ 1)
    (hsome : ∀ w ∈ ws, ∃ k, k < w.length ∧ w.allowed k = true) : turn ws xs carry ≠ none := by
  induction hx generalizing carry with
  | nil => simp [turn]
  | @cons w x ws xs hxw hxs ih =>
    have hw := hsome w (by simp)
    have hrest : ∀ c, c ≤ 1 → turn ws xs c ≠ none := fun c hc ↦
      ih hc fun v hv ↦ hsome v (by simp [hv])
    unfold turn
    by_cases hvalid : Allowed ws xs
    · rcases Option.ne_none_iff_exists'.mp (w.next_ne_none hw (by omega : x + carry ≤ w.length)) with
        ⟨d, hd⟩
      rw [if_pos hvalid, hd]
      simp only [Option.map_some, Option.bind_some, ne_eq, Option.map_eq_none_iff]
      apply hrest
      split <;> omega
    · rcases Option.ne_none_iff_exists'.mp (w.least_ne_none hw) with ⟨d, hd⟩
      rw [if_neg hvalid, hd]
      simpa using hrest 0 (by omega)

end EvQueue.Odometer
