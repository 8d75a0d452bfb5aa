import Ibridger.Foundation.Rounding
import Ibridger.Js.Client

/-! # Whole numbers as doubles

A double has 53 significant bits. `Number(long)` rounds a 64-bit number to them, and
`n++` rounds the sum; both are exact up to 2^53. In a text, a larger number has only the
digits that tell it from the other doubles.
-/

namespace Ibridger.Js

open Rounding

/-! ## `Number(long)` -/

theorem numberOfLong_eq (long : UInt64) : numberOfLong long = nearest 53 long.toNat := by
  unfold numberOfLong nearest
  rw [Nat.add_sub_add_right]

theorem numberOfLong_roundsTo (long : UInt64) : RoundsTo 53 long.toNat (numberOfLong long) := by
  rw [numberOfLong_eq]
  exact roundsTo_nearest (by decide) _

theorem numberOfLong_of_le {long : UInt64} (hsmall : long.toNat ≤ 2 ^ 53) :
    numberOfLong long = long.toNat :=
  (numberOfLong_roundsTo long).eq_of_fits (fits_self (by decide) hsmall)

/-- A number that a double cannot hold stays a large one. -/
theorem numberOfLong_ge {long : UInt64} (hlarge : 2 ^ 53 ≤ long.toNat) :
    2 ^ 53 ≤ numberOfLong long :=
  (numberOfLong_roundsTo long).le_of_le (fits_self (by decide) (Nat.le_refl _)) hlarge

theorem numberOfLong_le (long : UInt64) : numberOfLong long ≤ 2 ^ 64 := by
  apply (numberOfLong_roundsTo long).ge_of_ge ⟨1, 64, by decide, rfl⟩
  exact Nat.le_of_lt long.toNat_lt

/-- Below 2^53, only one 64-bit number becomes this one. -/
theorem numberOfLong_eq_iff {long : UInt64} {id : Nat} (hid : id < 2 ^ 53) :
    numberOfLong long = id ↔ long.toNat = id :=
  (numberOfLong_roundsTo long).eq_iff_of_lt (by decide) hid

example : numberOfLong 9007199254740993 = numberOfLong 9007199254740992 := by decide

/-! ## `n++` -/

theorem increment_of_lt {n : Nat} (hn : n < 2 ^ 53) : increment n = n + 1 := by
  rw [increment, if_pos hn]

theorem increment_roundsTo {n : Nat} (hn : n ≤ 2 ^ 53) : RoundsTo 53 (n + 1) (increment n) := by
  rcases Nat.lt_or_ge n (2 ^ 53) with hlt | hge
  · rw [increment_of_lt hlt]
    exact roundsTo_self (fits_self (by decide) hlt)
  · -- the sum lies halfway, and 2^53 has the even mantissa
    obtain rfl := Nat.le_antisymm hn hge
    apply (nearest_eq_iff (by decide)).mp
    decide

theorem increment_le {n : Nat} (hn : n ≤ 2 ^ 53) : increment n ≤ 2 ^ 53 := by
  unfold increment
  split
  · omega
  · exact hn

/-! ## Numbers in texts -/

theorem numberText_of_lt {n : Nat} (hn : n < 2 ^ 53) : numberText n = toString n := by
  rw [numberText, Rounding.shortest_of_lt (by decide) hn]

/-- What is printed is read back as the number, and nothing with more zeros is. -/
theorem numberText_shortest {n : Nat} (hn : Fits 53 n) : ∃ decimal,
    numberText n = toString decimal ∧ RoundsTo 53 decimal n ∧
      ∀ zeros ≤ 20, ∀ k, RoundsTo 53 k n → 10 ^ zeros ∣ k → 10 ^ zeros ∣ decimal := by
  refine ⟨shortest 53 n 20, rfl, shortest_roundsTo (by decide) hn 20, ?_⟩
  intro zeros hzeros k hround hdvd
  exact dvd_shortest (by decide) hround hdvd hzeros

example : numberText (numberOfLong 18446744073709551615) = "18446744073709552000" := by decide

/-! ## `Long.fromNumber(id)` -/

theorem Client.requestId_toNat {Value : Type} {call : Call Value} {id : Nat} (hid : id ≤ 2 ^ 53)
    (payload : List UInt8) : (requestEnvelope call id payload).requestId.toNat = id := by
  change (UInt64.ofNat id).toNat = id
  rw [UInt64.toNat_ofNat']
  exact Nat.mod_eq_of_lt (by omega)

end Ibridger.Js
