import FluentSql.Power

/-! Rounding a quotient of naturals to a natural. The result is within half a unit of the
quotient; a quotient halfway between two naturals goes where the tie rule says. -/
namespace FluentSql

inductive Tie
  | up
  | even
  deriving DecidableEq

def Tie.roundsUp (tie : Tie) (floor : Nat) : Bool :=
  match tie with
  | .up => true
  | .even => floor % 2 == 1

def roundDiv (tie : Tie) (num den : Nat) : Nat :=
  let floor := num / den
  let doubled := 2 * (num % den)
  if doubled < den then floor
  else if den < doubled then floor + 1
  else if tie.roundsUp floor then floor + 1 else floor

theorem roundDiv_mul_self (tie : Tie) (n : Nat) {den : Nat} (h : 0 < den) :
    roundDiv tie (n * den) den = n := by
  simp [roundDiv,Nat.mul_mod_left,Nat.mul_div_cancel _ h,h]

theorem roundDiv_one (tie : Tie) (n : Nat) : roundDiv tie n 1 = n := by
  simpa using roundDiv_mul_self tie n Nat.one_pos

end FluentSql
