import Ibridger.Foundation.Backoff
import Ibridger.Js.Numbers

/-! # The sleeps of the JS reconnect loop

`Math.min(baseDelayMs * 2 ** attempt, maxDelayMs)` in doubles, and what `setTimeout`
makes of it: a delay below 1, above 2147483647 or not a number becomes 1.
-/

namespace Ibridger.Js

/-- What the arithmetic of the delay, on whole doubles, comes to. -/
inductive Number where
  | finite (value : Nat)
  | infinity
  | nan
deriving DecidableEq

namespace Number

/-- A whole number that fits 53 bits and an exponent; from 2^1024 on it is infinite. -/
def ofNat (value : Nat) : Number := if value < 2 ^ 1024 then .finite value else .infinity

/-- `2 ** attempt`. -/
def power (attempt : Nat) : Number := ofNat (2 ^ attempt)

/-- The product of a double and a power of two, which is exact. -/
def mul : Number → Number → Number
  | .finite a, .finite b => ofNat (a * b)
  | .finite a, .infinity | .infinity, .finite a => if a = 0 then .nan else .infinity
  | .infinity, .infinity => .infinity
  | .nan, _ | _, .nan => .nan

/-- `Math.min`. -/
def min : Number → Number → Number
  | .finite a, .finite b => .finite (Min.min a b)
  | .finite a, .infinity | .infinity, .finite a => .finite a
  | .infinity, .infinity => .infinity
  | .nan, _ | _, .nan => .nan

end Number

/-- The longest delay of a Node timer. -/
def TIMEOUT_MAX : Nat := 2147483647

/-- How long a timer of this many milliseconds waits. -/
def timerDelay (ms : Nat) : Nat := if 1 ≤ ms ∧ ms ≤ TIMEOUT_MAX then ms else 1

/-- How long `sleep` waits. -/
def sleepMs : Number → Nat
  | .finite ms => timerDelay ms
  | .infinity | .nan => 1

/-- The delay before an attempt, as `scheduleReconnect` computes it. -/
def ReconnectOptions.delayNumber (options : ReconnectOptions) (attempt : Nat) : Number :=
  ((Number.finite options.baseDelayMs).mul (.power attempt)).min (.finite options.maxDelayMs)

theorem timerDelay_of_large {ms : Nat} (hms : TIMEOUT_MAX < ms) : timerDelay ms = 1 := by
  rw [timerDelay, if_neg (by omega)]

/-- Doubles lead to the same sleeps as whole numbers without a limit. -/
theorem ReconnectOptions.sleepMs_delayNumber (options : ReconnectOptions)
    (hmax : options.maxDelayMs < 2 ^ 1024) (attempt : Nat) :
    sleepMs (options.delayNumber attempt) = timerDelay (options.delay attempt) := by
  unfold delayNumber delay Number.power Number.ofNat
  by_cases hpower : 2 ^ attempt < 2 ^ 1024
  · rw [if_pos hpower, Number.mul, Number.ofNat]
    by_cases hproduct : options.baseDelayMs * 2 ^ attempt < 2 ^ 1024
    · rw [if_pos hproduct]
      rfl
    · rw [if_neg hproduct]
      have hle : options.maxDelayMs ≤ options.baseDelayMs * 2 ^ attempt :=
        Nat.le_of_lt (Nat.lt_of_lt_of_le hmax (Nat.le_of_not_lt hproduct))
      rw [Nat.min_eq_right hle]
      rfl
  · rw [if_neg hpower, Number.mul]
    by_cases hbase : options.baseDelayMs = 0
    · -- zero times infinity is not a number
      rw [if_pos hbase, hbase, Nat.zero_mul, Nat.zero_min]
      rfl
    · rw [if_neg hbase]
      have hle : options.maxDelayMs ≤ options.baseDelayMs * 2 ^ attempt := by
        calc options.maxDelayMs ≤ 2 ^ 1024 := Nat.le_of_lt hmax
          _ ≤ 2 ^ attempt := Nat.le_of_not_lt hpower
          _ ≤ options.baseDelayMs * 2 ^ attempt :=
            Nat.le_mul_of_pos_left _ (Nat.pos_of_ne_zero hbase)
      rw [Nat.min_eq_right hle]
      rfl

/-! ## Delays given as 64-bit numbers -/

/-- The sleeps are those of the exact delays, although a double may not hold them. -/
theorem timerDelay_numberOfLong (base maximum : UInt64) (attempt : Nat) :
    timerDelay (min (numberOfLong base * 2 ^ attempt) (numberOfLong maximum)) =
      timerDelay (min (base.toNat * 2 ^ attempt) maximum.toNat) := by
  have hsmall : ∀ {long : UInt64}, long.toNat < 2 ^ 53 → numberOfLong long = long.toNat :=
    fun hlong => numberOfLong_of_le (Nat.le_of_lt hlong)
  have hpower : 1 ≤ 2 ^ attempt := Nat.one_le_two_pow
  have hmul : ∀ n, n ≤ n * 2 ^ attempt := fun n => Nat.le_mul_of_pos_right n hpower
  have hlimit : TIMEOUT_MAX < 2 ^ 53 := by decide
  by_cases hbase : base.toNat < 2 ^ 53
  · rw [hsmall hbase]
    by_cases hmax : maximum.toNat < 2 ^ 53
    · rw [hsmall hmax]
    · have hround := numberOfLong_ge (Nat.le_of_not_lt hmax)
      by_cases hproduct : base.toNat * 2 ^ attempt < 2 ^ 53
      · rw [Nat.min_eq_left (by omega), Nat.min_eq_left (by omega)]
      · rw [timerDelay_of_large (by omega), timerDelay_of_large (by omega)]
  · have hround := numberOfLong_ge (Nat.le_of_not_lt hbase)
    have hfirst := hmul (numberOfLong base)
    have hsecond := hmul base.toNat
    by_cases hmax : maximum.toNat < 2 ^ 53
    · rw [hsmall hmax, Nat.min_eq_right (by omega), Nat.min_eq_right (by omega)]
    · have hroundMax := numberOfLong_ge (Nat.le_of_not_lt hmax)
      rw [timerDelay_of_large (by omega), timerDelay_of_large (by omega)]

end Ibridger.Js
