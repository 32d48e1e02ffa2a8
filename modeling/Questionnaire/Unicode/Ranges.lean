/-!
# Sets of code points

A Unicode property is stored as the list of its maximal ranges of code points, in ascending order.

## Main Definitions

* `Unicode.covers` - whether some range of a list holds a code point
-/

namespace Questionnaire.Unicode

/-- `covers ranges n` says that `n` lies in one of the closed ranges. -/
def covers (ranges : List (Nat × Nat)) (n : Nat) : Bool :=
  ranges.any fun r => r.1 ≤ n && n ≤ r.2

@[simp] theorem covers_nil (n : Nat) : covers [] n = false := rfl

theorem covers_cons (r : Nat × Nat) (ranges : List (Nat × Nat)) (n : Nat) :
    covers (r :: ranges) n = ((r.1 ≤ n && n ≤ r.2) || covers ranges n) := rfl

end Questionnaire.Unicode
