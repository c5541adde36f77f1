/-!
# Tables of characters

A property of characters is kept as an ascending list of closed ranges of code points.
-/
namespace Speedtest.Text

/-- Whether a code point lies in one of the ranges. -/
def inRanges (ranges : List (Nat × Nat)) (n : Nat) : Bool :=
  ranges.any fun (low, high) => low ≤ n && n ≤ high

/-- Ascending and disjoint, which lets a reader of a table find a code point by eye. -/
def Ascending : List (Nat × Nat) → Prop
  | [] => True
  | [(low, high)] => low ≤ high
  | (low, high) :: (low', high') :: rest =>
    low ≤ high ∧ high < low' ∧ Ascending ((low', high') :: rest)

end Speedtest.Text
