import Mathlib.Data.Nat.Notation

/-!
# Exception — what is thrown
-/

namespace EvQueue

/-- `Exception`. -/
structure Exception where
  context : String
  error : String
deriving DecidableEq, Repr

/-- Something that is thrown, as a handler of `Exception` tells it from the rest. -/
inductive Raised where
  | exception (e : Exception)
  | other
deriving DecidableEq, Repr

end EvQueue
