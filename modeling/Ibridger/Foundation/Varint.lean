import Mathlib.Data.List.Basic

/-! # Base-128 varints

A whole number in groups of seven bits, the lowest group first. Every byte but the last
one has its highest bit set, so a reader knows where the number ends.
-/

namespace Varint

/-- At most `fuel` groups of a number. -/
def groups : Nat → Nat → List UInt8
  | 0, _ => []
  | fuel + 1, n =>
      if n < 128 then [UInt8.ofNat n]
      else UInt8.ofNat (n % 128 + 128) :: groups fuel (n / 128)

def encode (n : Nat) : List UInt8 :=
  groups (n + 1) n

/-- The number in front of the bytes and what is behind it. -/
def decode : List UInt8 → Option (Nat × List UInt8)
  | [] => none
  | byte :: rest =>
      if byte.toNat < 128 then some (byte.toNat, rest)
      else (decode rest).map fun (n, behind) => (byte.toNat - 128 + 128 * n, behind)

theorem groups_eq_encode {fuel n : Nat} (hfuel : n < fuel) : groups fuel n = encode n := by
  induction n using Nat.strongRecOn generalizing fuel with
  | ind n ih =>
      obtain ⟨fuel, rfl⟩ := Nat.exists_eq_add_one_of_ne_zero (Nat.ne_zero_of_lt hfuel)
      rw [encode, groups, groups]
      by_cases hsmall : n < 128
      · rw [if_pos hsmall, if_pos hsmall]
      · have hless : n / 128 < n := Nat.div_lt_self (by omega) (by decide)
        rw [if_neg hsmall, if_neg hsmall, ih _ hless (by omega), ih _ hless hless]

theorem encode_of_lt {n : Nat} (hsmall : n < 128) : encode n = [UInt8.ofNat n] := by
  rw [encode, groups, if_pos hsmall]

theorem encode_of_ge {n : Nat} (hlarge : 128 ≤ n) :
    encode n = UInt8.ofNat (n % 128 + 128) :: encode (n / 128) := by
  rw [encode, groups, if_neg (Nat.not_lt.mpr hlarge),
    groups_eq_encode (Nat.div_lt_self (by omega) (by decide))]

theorem toNat_last {n : Nat} (hsmall : n < 128) : (UInt8.ofNat n).toNat = n := by
  rw [UInt8.toNat_ofNat', Nat.mod_eq_of_lt (by omega)]

theorem toNat_continued (n : Nat) : (UInt8.ofNat (n % 128 + 128)).toNat = n % 128 + 128 := by
  rw [UInt8.toNat_ofNat', Nat.mod_eq_of_lt (by omega)]

theorem encode_ne_nil (n : Nat) : encode n ≠ [] := by
  rcases Nat.lt_or_ge n 128 with hsmall | hlarge
  · rw [encode_of_lt hsmall]
    exact List.cons_ne_nil _ _
  · rw [encode_of_ge hlarge]
    exact List.cons_ne_nil _ _

/-- Decoding ends where the number ends. -/
@[simp] theorem decode_encode (n : Nat) (rest : List UInt8) :
    decode (encode n ++ rest) = some (n, rest) := by
  induction n using Nat.strongRecOn with
  | ind n ih =>
      rcases Nat.lt_or_ge n 128 with hsmall | hlarge
      · rw [encode_of_lt hsmall, List.singleton_append, decode, toNat_last hsmall, if_pos hsmall]
      · have hless : n / 128 < n := Nat.div_lt_self (by omega) (by decide)
        rw [encode_of_ge hlarge, List.cons_append, decode, toNat_continued, if_neg (by omega),
          ih _ hless, Option.map_some, Nat.add_sub_cancel]
        exact congrArg (fun n => some (n, rest)) (Nat.mod_add_div n 128)

end Varint
