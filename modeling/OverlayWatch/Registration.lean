import Std.Data.ExtTreeMap

/-!
# Registrations

A registration is the handle of one listener.  Registrations are numbered from 1 in the order in
which they are given out, and no number is given out twice.
-/

namespace OverlayWatch

structure Registration where
  number : Nat
deriving DecidableEq, Repr

namespace Registration

instance : Ord Registration := ⟨compareOn number⟩

instance : Std.TransOrd Registration := inferInstanceAs (Std.TransCmp (compareOn number))

instance : Std.LawfulEqOrd Registration where
  eq_of_compare h := by
    have h := Std.LawfulEqOrd.eq_of_compare (α := Nat) h
    exact congrArg Registration.mk h

def display (r : Registration) : String := "registration-" ++ toString r.number

end Registration

end OverlayWatch
