import Mathlib.Data.List.Basic
import Mathlib.Data.List.TakeWhile

/-!
# CheckedScan — loops over a string in memory, with every index checked

A string is followed by its terminator.  An access at an index that is neither one of the string nor that
of the terminator ends the program with this index.  Where the string is split in front of an index, what
is read there is the first character of the second part.
-/

namespace EvQueue.CheckedScan

variable {α : Type} (terminator : α)

/-- `line[i]`. -/
def read (line : List α) (i : Int) : Except Int α :=
  if i < 0 then .error i
  else
    match (line ++ [terminator])[i.toNat]? with
    | none => .error i
    | some c => .ok c

/-- `while(p(line[i])) i++`.  With more rounds than there are offsets it has left the string when it runs
out of them. -/
def scan (p : α → Bool) (line : List α) : Nat → Nat → Except Int Nat
  | 0, i => .error i
  | rounds + 1, i => (read terminator line i).bind fun c ↦ if p c then scan p line rounds (i + 1) else .ok i

variable {terminator} {line front rest : List α} {p : α → Bool} {rounds : Nat} {i : Int}

theorem read_append (front rest : List α) :
    read terminator (front ++ rest) front.length = .ok (rest.head?.getD terminator) := by
  have hchar : (front ++ rest ++ [terminator])[front.length]? = some (rest.head?.getD terminator) := by
    rw [List.append_assoc, List.getElem?_append_right (Nat.le_refl _), Nat.sub_self]
    cases rest <;> rfl
  unfold read
  rw [if_neg (by omega), Int.toNat_natCast, hchar]

/-- A loop that the terminator ends moves the index behind the characters that meet its condition. -/
theorem scan_append (hp : p terminator = false) (hrounds : rest.length < rounds) :
    scan terminator p (front ++ rest) rounds front.length =
      .ok (front ++ rest.takeWhile p).length := by
  induction rest generalizing front rounds with
  | nil =>
    obtain ⟨rounds, rfl⟩ : ∃ n, rounds = n + 1 := ⟨rounds - 1, by omega⟩
    unfold scan
    rw [read_append]
    show (if p terminator then _ else Except.ok front.length) = _
    rw [hp, if_neg Bool.false_ne_true, List.takeWhile_nil, List.append_nil]
  | cons c rest ih =>
    obtain ⟨rounds, rfl⟩ : ∃ n, rounds = n + 1 := ⟨rounds - 1, by omega⟩
    rw [List.length_cons] at hrounds
    unfold scan
    rw [read_append]
    show (if p c then _ else Except.ok front.length) = _
    by_cases hc : p c = true
    · have hnext : scan terminator p (front ++ [c] ++ rest) rounds (front ++ [c]).length =
          .ok (front ++ [c] ++ rest.takeWhile p).length := ih (by omega)
      rw [List.append_assoc, List.singleton_append, List.length_append, List.length_singleton] at hnext
      rw [if_pos hc, List.takeWhile_cons_of_pos hc, hnext, List.append_assoc, List.singleton_append]
    · rw [if_neg hc, List.takeWhile_cons_of_neg hc, List.append_nil]

end EvQueue.CheckedScan
