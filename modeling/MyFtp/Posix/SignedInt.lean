import Mathlib.Algebra.Group.Int.Defs
import Mathlib.Algebra.Group.Nat.Defs
import Mathlib.Logic.Function.Basic

/-!
# Arithmetic on signed integers

`<<` and `+` of C on a signed type of `w + 1` bits. The operands are integers; where the
language leaves the result undefined there is none.

> `shiftLeft_eq_some`, `add_eq_some`: when an operation is defined, and its result.
-/

namespace MyFtp.Posix

/-- The values of a signed type of `w + 1` bits. -/
def InRange (w : Nat) (x : Int) : Prop := -2 ^ w ≤ x ∧ x < 2 ^ w

instance (w : Nat) (x : Int) : Decidable (InRange w x) := inferInstanceAs (Decidable (_ ∧ _))

/-- `x << k`: undefined for a negative number, and when a bit would come to stand in the
sign or beyond. -/
def shiftLeft (w : Nat) (x : Int) (k : Nat) : Option Int :=
  if 0 ≤ x ∧ x * 2 ^ k < 2 ^ w then some (x * 2 ^ k) else none

/-- `x + y`: undefined when the sum is not a value of the type. -/
def add (w : Nat) (x y : Int) : Option Int := if InRange w (x + y) then some (x + y) else none

variable {w k : Nat} {x y v : Int}

theorem shiftLeft_eq_some :
    shiftLeft w x k = some v ↔ (0 ≤ x ∧ x * 2 ^ k < 2 ^ w) ∧ v = x * 2 ^ k := by
  unfold shiftLeft
  rw [Option.ite_none_right_eq_some, Option.some.injEq]
  exact and_congr_right fun _ => eq_comm

theorem add_eq_some : add w x y = some v ↔ InRange w (x + y) ∧ v = x + y := by
  unfold add
  rw [Option.ite_none_right_eq_some, Option.some.injEq]
  exact and_congr_right fun _ => eq_comm

end MyFtp.Posix
