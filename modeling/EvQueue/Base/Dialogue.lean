import Mathlib.Data.List.Basic

/-!
# Dialogue — programs whose requests somebody else answers

A dialogue keeps a state and makes requests.  A request is carried out, or refused with a reason, which the
program raises.  The answers come from a list, so that a list is one course of events; where it ends the
program still waits for an answer.
-/

namespace EvQueue.Dialogue

/-- What has become of a program, with the answers that are left. -/
inductive Outcome (τ ε σ α : Type) where
  | done (a : α) (answers : List (Option τ)) (s : σ)
  | raised (e : ε) (answers : List (Option τ)) (s : σ)
  | waiting (s : σ)
deriving DecidableEq, Repr

/-- The answer `none` stands for a request that is carried out. -/
abbrev Program (τ ε σ α : Type) := List (Option τ) → σ → Outcome τ ε σ α

variable {τ ε σ α β : Type}

def done (a : α) : Program τ ε σ α := fun answers s ↦ .done a answers s

def wait : Program τ ε σ α := fun _ s ↦ .waiting s

def ofExcept : Except ε α → Program τ ε σ α
  | .ok a => done a
  | .error e => fun answers s ↦ .raised e answers s

/-- Something the program does on its own. -/
def act (f : σ → α × σ) : Program τ ε σ α := fun answers s ↦ .done (f s).1 answers (f s).2

def request (raise : τ → ε) (f : σ → α × σ) : Program τ ε σ α
  | [], s => .waiting s
  | none :: answers, s => .done (f s).1 answers (f s).2
  | some reason :: answers, s => .raised (raise reason) answers s

def bind (m : Program τ ε σ α) (f : α → Program τ ε σ β) : Program τ ε σ β := fun answers s ↦
  match m answers s with
  | .done a answers s => f a answers s
  | .raised e answers s => .raised e answers s
  | .waiting s => .waiting s

/-- `try` and `catch`; what the handler raises goes on. -/
def attempt (m : Program τ ε σ α) (handler : ε → Program τ ε σ α) : Program τ ε σ α := fun answers s ↦
  match m answers s with
  | .raised e answers s => handler e answers s
  | outcome => outcome

/-- One request after the other. -/
def requests (raise : τ → ε) : List (σ → σ) → Program τ ε σ Unit
  | [] => done ()
  | f :: fs => bind (request raise fun s ↦ ((), f s)) fun _ ↦ requests raise fs

variable {m : Program τ ε σ α} {f : α → Program τ ε σ β} {handler : ε → Program τ ε σ α}
variable {raise : τ → ε} {answers rest : List (Option τ)} {s s' : σ} {a : α} {b : β} {e : ε}

/-! ## How a program ends -/

theorem bind_raised_iff : bind m f answers s = .raised e rest s' ↔
    m answers s = .raised e rest s' ∨
      ∃ a between t, m answers s = .done a between t ∧ f a between t = .raised e rest s' := by
  unfold bind
  cases hm : m answers s <;> simp

theorem bind_done_iff : bind m f answers s = .done b rest s' ↔
    ∃ a between t, m answers s = .done a between t ∧ f a between t = .done b rest s' := by
  unfold bind
  cases hm : m answers s <;> simp

theorem bind_of_done {between : List (Option τ)} {t : σ} (h : m answers s = .done a between t) :
    bind m f answers s = f a between t := by
  unfold bind
  rw [h]

theorem attempt_raised_iff : attempt m handler answers s = .raised e rest s' ↔
    ∃ e' between t, m answers s = .raised e' between t ∧ handler e' between t = .raised e rest s' := by
  unfold attempt
  cases hm : m answers s <;> simp

theorem attempt_done_iff : attempt m handler answers s = .done a rest s' ↔
    m answers s = .done a rest s' ∨
      ∃ e between t, m answers s = .raised e between t ∧ handler e between t = .done a rest s' := by
  unfold attempt
  cases hm : m answers s <;> simp

theorem request_raised_iff {f : σ → α × σ} : request raise f answers s = .raised e rest s' ↔
    (∃ reason, answers = some reason :: rest ∧ e = raise reason) ∧ s' = s := by
  match answers with
  | [] => simp [request]
  | none :: answers => simp [request]
  | some reason :: answers =>
    simp only [request, Outcome.raised.injEq]
    constructor
    · rintro ⟨rfl, rfl, rfl⟩
      exact ⟨⟨reason, rfl, rfl⟩, rfl⟩
    · rintro ⟨⟨reason', hanswers, rfl⟩, rfl⟩
      cases hanswers
      exact ⟨rfl, rfl, rfl⟩

theorem request_done_iff {f : σ → α × σ} : request raise f answers s = .done a rest s' ↔
    answers = none :: rest ∧ (a, s') = f s := by
  match answers with
  | [] => simp [request]
  | none :: answers =>
    simp only [request, Outcome.done.injEq, List.cons.injEq, true_and, Prod.ext_iff]
    exact ⟨fun ⟨ha, hanswers, hs⟩ ↦ ⟨hanswers, ha.symm, hs.symm⟩,
      fun ⟨hanswers, ha, hs⟩ ↦ ⟨ha.symm, hanswers, hs.symm⟩⟩
  | some reason :: answers => simp [request]

theorem ofExcept_raised_iff {r : Except ε α} : ofExcept r answers s = .raised e rest s' ↔
    r = .error e ∧ rest = answers ∧ s' = s := by
  cases r <;> simp [ofExcept, done, eq_comm]

theorem ofExcept_done_iff {r : Except ε α} : ofExcept r answers s = .done a rest s' ↔
    r = .ok a ∧ rest = answers ∧ s' = s := by
  cases r <;> simp [ofExcept, done, eq_comm]

/-! ## Several requests -/

/-- They are all carried out when the answers say so. -/
theorem requests_done_iff : ∀ {fs : List (σ → σ)} {answers : List (Option τ)} {s : σ},
    requests raise fs answers s = .done () rest s' ↔
      answers = List.replicate fs.length none ++ rest ∧ s' = fs.foldl (fun s f ↦ f s) s
  | [], answers, s => by simp [requests, done, eq_comm]
  | f :: fs, answers, s => by
      unfold requests
      rw [bind_done_iff]
      simp only [request_done_iff, requests_done_iff, List.length_cons, List.replicate_succ,
        List.foldl_cons, List.cons_append]
      constructor
      · rintro ⟨⟨⟩, between, t, ⟨rfl, ht⟩, rfl, rfl⟩
        cases ht
        exact ⟨rfl, rfl⟩
      · rintro ⟨rfl, rfl⟩
        exact ⟨(), _, _, ⟨rfl, rfl⟩, rfl, rfl⟩

/-- They raise at the first refusal, with those before it carried out. -/
theorem requests_raised_iff : ∀ {fs : List (σ → σ)} {answers : List (Option τ)} {s : σ},
    requests raise fs answers s = .raised e rest s' ↔
      ∃ n < fs.length, ∃ reason, answers = List.replicate n none ++ some reason :: rest ∧
        e = raise reason ∧ s' = (fs.take n).foldl (fun s f ↦ f s) s
  | [], answers, s => by simp [requests, done]
  | f :: fs, answers, s => by
      unfold requests
      rw [bind_raised_iff]
      simp only [request_raised_iff, request_done_iff, requests_raised_iff]
      constructor
      · rintro (⟨⟨reason, rfl, rfl⟩, rfl⟩ | ⟨⟨⟩, between, t, ⟨rfl, ht⟩, n, hn, reason, rfl, rfl, rfl⟩)
        · exact ⟨0, Nat.succ_pos _, reason, rfl, rfl, rfl⟩
        · cases ht
          exact ⟨n + 1, Nat.succ_lt_succ hn, reason, by rw [List.replicate_succ, List.cons_append], rfl, rfl⟩
      · rintro ⟨n, hn, reason, rfl, rfl, rfl⟩
        cases n with
        | zero => exact .inl ⟨⟨reason, rfl, rfl⟩, rfl⟩
        | succ n =>
          refine .inr ⟨(), _, _, ⟨?_, rfl⟩, n, Nat.lt_of_succ_lt_succ hn, reason, rfl, rfl, rfl⟩
          rw [List.replicate_succ, List.cons_append]

/-- What none of the requests changes is as it was, whether they are all carried out or one is refused. -/
theorem foldl_take_keeps {view : σ → α} {fs : List (σ → σ)} (hkeeps : ∀ f ∈ fs, ∀ s, view (f s) = view s)
    (n : Nat) (s : σ) : view ((fs.take n).foldl (fun s f ↦ f s) s) = view s := by
  induction fs generalizing n s with
  | nil => rw [List.take_nil, List.foldl_nil]
  | cons f fs ih =>
    cases n with
    | zero => rw [List.take_zero, List.foldl_nil]
    | succ n =>
      rw [List.take_succ_cons, List.foldl_cons, ih (fun g hg ↦ hkeeps g (.tail _ hg)), hkeeps f (.head _)]

end EvQueue.Dialogue
