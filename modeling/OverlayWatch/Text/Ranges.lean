/-!
# Classes of characters by ranges

A class is given by closed ranges of code points in increasing order.

* `within`   whether a character lies in one of them.
-/

namespace OverlayWatch.Text

def within (ranges : List (Nat × Nat)) (c : Char) : Bool :=
  (ranges.takeWhile fun r => r.1 ≤ c.toNat).any fun r => c.toNat ≤ r.2

theorem within_nil (c : Char) : within [] c = false := rfl

end OverlayWatch.Text
