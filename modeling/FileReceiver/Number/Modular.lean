/-
# Arithmetic modulo a number

Numbers stand for their remainders. A power is computed by squaring, and the
inverse modulo a prime is a power.

Key definitions: `Modular.subtract`, `Modular.power`, `Modular.inverse`.
Key theorems: `Modular.power_eq`.
-/

namespace FileReceiver.Modular

/-- The difference of two numbers. -/
def subtract (m a b : Nat) : Nat :=
  (a + (m - b % m)) % m

/-- A power: the power of the square by half the exponent, and one factor more if it is odd. -/
def power (m a e : Nat) : Nat :=
  if e = 0 then 1 % m
  else
    let half := power m (a * a % m) (e / 2)
    if e % 2 = 0 then half else half * a % m
termination_by e
decreasing_by omega

/-- The inverse modulo a prime. -/
def inverse (p a : Nat) : Nat :=
  power p a (p - 2)

/-- Powers are the powers of numbers up to the remainder. -/
theorem power_eq (m a e : Nat) : power m a e = Nat.pow a e % m := by
  induction e using Nat.strongRecOn generalizing a with
  | ind e ih =>
    rw [power]
    split
    · next h => subst h; rfl
    · next h =>
      have hHalf : power m (a * a % m) (e / 2) = Nat.pow (a * a) (e / 2) % m := by
        rw [ih (e / 2) (by omega)]
        exact (Nat.pow_mod _ _ _).symm
      have hSquare (k : Nat) : Nat.pow (a * a) k = Nat.pow a (2 * k) :=
        ((Nat.pow_mul a 2 k).trans (congrArg (Nat.pow · k) (Nat.pow_two a))).symm
      simp only [hHalf, hSquare]
      split
      · next hEven => rw [show 2 * (e / 2) = e by omega]
      · next hOdd =>
        have hPow : Nat.pow a (2 * (e / 2)) * a = Nat.pow a (2 * (e / 2) + 1) := rfl
        rw [Nat.mod_mul_mod, hPow, show 2 * (e / 2) + 1 = e by omega]

end FileReceiver.Modular
