import PartitionPruning.Numeral.Decimal

/-!
# Residues of numbers

A number has one residue modulo a prime in all of its representations: division is multiplication by
the inverse. `Decimal.residue?` is the residue modulo `2 ^ 61 - 1`, with the sign of the number; it
tells apart what is not equal, for nearly all numbers.
-/

namespace PartitionPruning

namespace Numeral

def powMod (m base : Nat) (e : Nat) : Nat :=
  if e = 0 then 1 % m
  else
    let half := powMod m base (e / 2)
    let square := half * half % m
    if e % 2 = 0 then square else square * base % m
termination_by e
decreasing_by omega

/-- Squaring and multiplying by turns gives the power. -/
theorem powMod_eq (m base e : Nat) : powMod m base e = base ^ e % m := by
  -- Strong induction, since the exponent is halved and not counted down.
  induction e using Nat.strongRecOn with
  | ind e ih =>
    unfold powMod
    split
    · rename_i h
      simp [h]
    · rename_i h
      have half := ih (e / 2) (by omega)
      simp only [half]
      have square : base ^ (e / 2) % m * (base ^ (e / 2) % m) % m = base ^ (e / 2 * 2) % m := by
        rw [← Nat.mul_mod, ← Nat.pow_add, ← Nat.mul_two]
      rw [square]
      split
      · rename_i he
        have : e / 2 * 2 = e := by omega
        rw [this]
      · rename_i he
        have : e = e / 2 * 2 + 1 := by omega
        conv => rhs; rw [this, Nat.pow_succ]
        rw [Nat.mul_mod, Nat.mod_mod, ← Nat.mul_mod]

def residuePrime : Nat := 2 ^ (61 : Nat) - 1

def residueOfPower (e : Int) : Nat :=
  let base := if 0 ≤ e then 10 else powMod residuePrime 10 (residuePrime - 2)
  powMod residuePrime base e.natAbs

end Numeral

namespace Decimal

open Numeral

/-- The residue of a number, with its sign. That of an infinity is fixed; what is not a number has
none. -/
def residue? : Decimal → Option Int
  | .finite negative c e => some (signed negative (c % residuePrime * residueOfPower e % residuePrime))
  | .infinite negative => some (signed negative 314159)
  | .nan .. => none

/-- The residue of an integer is taken without its exponent. -/
theorem residue?_ofInt (n : Int) :
    (ofInt n).residue? = some (signed (n < 0) (n.natAbs % residuePrime)) := by
  have h : residueOfPower 0 = 1 := by simp [residueOfPower, powMod_eq, residuePrime]
  simp [ofInt, residue?, h]

end Decimal

end PartitionPruning
