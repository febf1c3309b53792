/-!
# Sets of code points

A set of code points is written as the ascending list of its bounds: the first bound is the least
member, the second the least code point after it that is no longer a member, and so on alternately.
-/

namespace Gleaner.Text

/-- A set of code points, as ascending bounds where membership changes. -/
abbrev CodeSet := List Nat

/-- Membership: passing a bound turns the answer over. -/
def CodeSet.contains : CodeSet → Nat → Bool
  | [], _ => false
  | bound :: rest, n => if n < bound then false else !CodeSet.contains rest n

end Gleaner.Text
