/-!
# Checked machine words

Dimensions, indices and lengths are whole numbers below `2 ^ 64`.  The three
operations below give a result only if it is such a number again, so a
computation written with them that gives a result has never wrapped around.
-/

set_option autoImplicit false

namespace HalfMatrix.Word

def modulus : Nat := Nat.pow 2 64

def add? (left right : Nat) : Option Nat :=
  if left + right < modulus then some (left + right) else none

def sub? (left right : Nat) : Option Nat :=
  if right ≤ left then some (left - right) else none

def mul? (left right : Nat) : Option Nat :=
  if left * right < modulus then some (left * right) else none

def saturatingAdd (left right : Nat) : Nat :=
  min (left + right) (modulus - 1)

theorem add?_eq_some_iff {left right sum : Nat} :
    add? left right = some sum ↔ left + right = sum ∧ sum < modulus := by
  unfold add?
  split <;> simp <;> omega

theorem sub?_eq_some_iff {left right difference : Nat} :
    sub? left right = some difference ↔ left = right + difference := by
  unfold sub?
  split <;> simp <;> omega

theorem mul?_eq_some_iff {left right product : Nat} :
    mul? left right = some product ↔ left * right = product ∧ product < modulus := by
  unfold mul?
  split <;> simp <;> omega

end HalfMatrix.Word
