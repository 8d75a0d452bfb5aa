import Mathlib.Data.Nat.Dist
import Mathlib.Tactic.Ring

/-! # Rounding to a number of significant bits

A binary floating-point format of precision `p` holds the whole numbers that are a
mantissa below `2 ^ p` times a power of two, as far as its exponents go. Rounding takes
a number to the nearest of them; of two that are equally near, to the one with an even
mantissa, for which one bit less is enough.
-/

namespace Rounding

/-- The number needs at most `p` significant bits. -/
def Fits (p n : Nat) : Prop :=
  ∃ mantissa exponent, mantissa < 2 ^ p ∧ n = mantissa * 2 ^ exponent

/-- The second number is the first one rounded to nearest, ties to even. -/
structure RoundsTo (p n rounded : Nat) : Prop where
  fits : Fits p rounded
  nearest : ∀ k, Fits p k → Nat.dist n rounded ≤ Nat.dist n k
  even : ∀ k, Fits p k → k ≠ rounded → Nat.dist n k = Nat.dist n rounded → Fits (p - 1) rounded

/-- Cut off the bits behind the first `p`, and round up where they are more than half a
unit, or half a unit behind an odd number. -/
def nearest (p n : Nat) : Nat :=
  if n ≤ 2 ^ p then n
  else
    let unit := 2 ^ (n.log2 + 1 - p)
    let quotient := n / unit
    let twice := 2 * (n % unit)
    if twice < unit ∨ (twice = unit ∧ quotient % 2 = 0) then quotient * unit
    else (quotient + 1) * unit

/-- Of the multiples of a unit on both sides of a number, one that is rounded to it; of two
such, the nearer one. -/
def multiple? (p unit n : Nat) : Option Nat :=
  let below := n / unit * unit
  let above := (n / unit + 1) * unit
  if nearest p below = n ∧ (nearest p above = n → n - below ≤ above - n) then some below
  else if nearest p above = n then some above
  else none

/-- The decimal number that is rounded to `n` and ends in the most zeros, `zeros` at most. -/
def shortest (p n : Nat) : Nat → Nat
  | 0 => n
  | zeros + 1 => (multiple? p (10 ^ (zeros + 1)) n).getD (shortest p n zeros)

variable {p n m k : Nat}

/-! ## The numbers that fit -/

theorem fits_of_le (hp : 0 < p) (hm : m ≤ 2 ^ p) (exponent : Nat) : Fits p (m * 2 ^ exponent) := by
  by_cases hlt : m < 2 ^ p
  · exact ⟨m, exponent, hlt, rfl⟩
  · have heq : m = 2 ^ p := by omega
    refine ⟨1, p + exponent, Nat.one_lt_two_pow (by omega), ?_⟩
    rw [heq, Nat.pow_add, Nat.one_mul]

theorem fits_self (hp : 0 < p) (hn : n ≤ 2 ^ p) : Fits p n := by
  simpa using fits_of_le hp hn 0

/-- With an even mantissa, one bit less is enough. -/
theorem fits_of_even (hp : 0 < p) (hm : m ≤ 2 ^ (p + 1)) (heven : m % 2 = 0) (exponent : Nat) :
    Fits p (m * 2 ^ exponent) := by
  have hpow : 2 ^ (p + 1) = 2 * 2 ^ p := Nat.pow_succ'
  have hhalf : m = m / 2 * 2 := by omega
  have hfits : Fits p (m / 2 * 2 ^ (exponent + 1)) := fits_of_le hp (by omega) _
  rwa [Nat.pow_succ', ← Nat.mul_assoc, ← hhalf] at hfits

/-- A mantissa that uses up its bits is even where one bit less is enough. -/
theorem even_of_fits {exponent : Nat} (hm : 2 ^ p ≤ m) (hfits : Fits p (m * 2 ^ exponent)) :
    m % 2 = 0 := by
  obtain ⟨mantissa, other, hlt, heq⟩ := hfits
  have hother : exponent < other := by
    -- with this unit or a smaller one, the mantissa would have too many bits
    by_contra hle
    have hpow : 2 ^ other ≤ 2 ^ exponent := Nat.pow_le_pow_right (by decide) (Nat.le_of_not_lt hle)
    have hless : m * 2 ^ exponent < m * 2 ^ exponent := by
      calc m * 2 ^ exponent = mantissa * 2 ^ other := heq
        _ ≤ mantissa * 2 ^ exponent := Nat.mul_le_mul_left _ hpow
        _ < m * 2 ^ exponent :=
          Nat.mul_lt_mul_of_pos_right (Nat.lt_of_lt_of_le hlt hm) (Nat.two_pow_pos _)
    exact Nat.lt_irrefl _ hless
  obtain ⟨shift, rfl⟩ := Nat.exists_eq_add_of_lt hother
  have hm : m = 2 * (mantissa * 2 ^ shift) := by
    apply Nat.eq_of_mul_eq_mul_right (Nat.two_pow_pos exponent)
    rw [heq, Nat.pow_succ, Nat.pow_add]
    ring
  omega

/-! ## The neighbours of a number -/

/-- The numbers that fit on both sides of a number, with none in between. -/
structure Neighbours (p n lower upper : Nat) : Prop where
  lower_fits : Fits p lower
  upper_fits : Fits p upper
  lower_le : lower ≤ n
  le_upper : n ≤ upper
  gap : ∀ k, Fits p k → k ≤ lower ∨ upper ≤ k

/-- Where the mantissa uses up its bits, the next number that fits is one unit away. -/
theorem Fits.outside {exponent : Nat} (hk : Fits (p + 1) k) (hm : 2 ^ p ≤ m) :
    k ≤ m * 2 ^ exponent ∨ (m + 1) * 2 ^ exponent ≤ k := by
  obtain ⟨mantissa, other, hlt, rfl⟩ := hk
  by_cases hother : exponent ≤ other
  · -- it is a multiple of the unit
    obtain ⟨shift, rfl⟩ := Nat.exists_eq_add_of_le hother
    have hmultiple : mantissa * 2 ^ (exponent + shift) = mantissa * 2 ^ shift * 2 ^ exponent := by
      rw [Nat.pow_add]
      ring
    rw [hmultiple]
    rcases Nat.lt_or_ge m (mantissa * 2 ^ shift) with hmore | hless
    · exact .inr (Nat.mul_le_mul_right _ hmore)
    · exact .inl (Nat.mul_le_mul_right _ hless)
  · left
    calc mantissa * 2 ^ other ≤ 2 ^ (p + 1) * 2 ^ other := Nat.mul_le_mul_right _ (Nat.le_of_lt hlt)
      _ = 2 ^ p * 2 ^ (other + 1) := by
        rw [Nat.pow_succ, Nat.pow_succ]
        ring
      _ ≤ m * 2 ^ exponent :=
        Nat.mul_le_mul hm (Nat.pow_le_pow_right (by decide) (Nat.lt_of_not_le hother))

/-- Behind the unit of a large number, its first bits are a mantissa that uses up its bits. -/
theorem mantissa_bounds (hn : 2 ^ (p + 1) < n) :
    2 ^ p ≤ n / 2 ^ (n.log2 - p) ∧ n / 2 ^ (n.log2 - p) < 2 ^ (p + 1) := by
  have hzero : n ≠ 0 := Nat.ne_zero_of_lt hn
  have hlog : p + 1 ≤ n.log2 := (Nat.le_log2 hzero).mpr (Nat.le_of_lt hn)
  constructor
  · rw [Nat.le_div_iff_mul_le (Nat.two_pow_pos _), ← Nat.pow_add, Nat.add_sub_of_le (by omega)]
    exact Nat.log2_self_le hzero
  · rw [Nat.div_lt_iff_lt_mul (Nat.two_pow_pos _), ← Nat.pow_add]
    have hexponent : p + 1 + (n.log2 - p) = n.log2 + 1 := by omega
    rw [hexponent]
    exact Nat.lt_log2_self

theorem neighbours_of_lt (hn : 2 ^ (p + 1) < n) :
    Neighbours (p + 1) n (n / 2 ^ (n.log2 - p) * 2 ^ (n.log2 - p))
      ((n / 2 ^ (n.log2 - p) + 1) * 2 ^ (n.log2 - p)) := by
  obtain ⟨hlow, hhigh⟩ := mantissa_bounds hn
  refine ⟨fits_of_le p.succ_pos (Nat.le_of_lt hhigh) _, fits_of_le p.succ_pos hhigh _,
    Nat.div_mul_le_self _ _, ?_, fun k hk => hk.outside hlow⟩
  rw [Nat.mul_comm]
  exact Nat.le_of_lt (Nat.lt_mul_div_succ n (Nat.two_pow_pos _))

/-- How far away a number is from the multiples of a unit below and above it. -/
theorem sub_multiples (n unit : Nat) (hunit : 0 < unit) :
    n - n / unit * unit = n % unit ∧ (n / unit + 1) * unit - n = unit - n % unit := by
  have hsplit := Nat.div_add_mod n unit
  have hrest := Nat.mod_lt n hunit
  rw [Nat.mul_comm] at hsplit
  rw [Nat.add_one_mul]
  omega

namespace Neighbours

variable {lower upper : Nat}

theorem roundsTo_lower (hneighbours : Neighbours p n lower upper)
    (hnear : n - lower < upper - n ∨ n - lower = upper - n ∧ Fits (p - 1) lower) :
    RoundsTo p n lower := by
  have hlower := hneighbours.lower_le
  have hupper := hneighbours.le_upper
  refine ⟨hneighbours.lower_fits, ?_, ?_⟩
  · intro k hk
    have hgap := hneighbours.gap k hk
    unfold Nat.dist
    omega
  · intro k hk hne hsame
    have hgap := hneighbours.gap k hk
    rcases hnear with hcloser | ⟨-, heven⟩
    · unfold Nat.dist at hsame
      omega
    · exact heven

theorem roundsTo_upper (hneighbours : Neighbours p n lower upper)
    (hnear : upper - n < n - lower ∨ upper - n = n - lower ∧ Fits (p - 1) upper) :
    RoundsTo p n upper := by
  have hlower := hneighbours.lower_le
  have hupper := hneighbours.le_upper
  refine ⟨hneighbours.upper_fits, ?_, ?_⟩
  · intro k hk
    have hgap := hneighbours.gap k hk
    unfold Nat.dist
    omega
  · intro k hk hne hsame
    have hgap := hneighbours.gap k hk
    rcases hnear with hcloser | ⟨-, heven⟩
    · unfold Nat.dist at hsame
      omega
    · exact heven

theorem eq_or_eq (hneighbours : Neighbours p n lower upper) (hround : RoundsTo p n m) :
    m = lower ∨ m = upper := by
  have hlower := hneighbours.lower_le
  have hupper := hneighbours.le_upper
  have hgap := hneighbours.gap m hround.fits
  have hnearLower := hround.nearest lower hneighbours.lower_fits
  have hnearUpper := hround.nearest upper hneighbours.upper_fits
  unfold Nat.dist at hnearLower hnearUpper
  omega

end Neighbours

/-! ## The rounded number -/

theorem roundsTo_self (hn : Fits p n) : RoundsTo p n n := by
  refine ⟨hn, ?_, ?_⟩
  · intro k _
    rw [Nat.dist_self]
    exact Nat.zero_le _
  · intro k _ hne hsame
    rw [Nat.dist_self] at hsame
    exact absurd (Nat.eq_of_dist_eq_zero hsame).symm hne

namespace RoundsTo

theorem eq_of_fits (hround : RoundsTo p n m) (hn : Fits p n) : m = n := by
  have hnear := hround.nearest n hn
  rw [Nat.dist_self] at hnear
  exact (Nat.eq_of_dist_eq_zero (Nat.le_zero.mp hnear)).symm

/-- No number is rounded across one that fits. -/
theorem le_of_le (hround : RoundsTo p n m) (hk : Fits p k) (hle : k ≤ n) : k ≤ m := by
  have hnear := hround.nearest k hk
  unfold Nat.dist at hnear
  omega

theorem ge_of_ge (hround : RoundsTo p n m) (hk : Fits p k) (hle : n ≤ k) : m ≤ k := by
  have hnear := hround.nearest k hk
  unfold Nat.dist at hnear
  omega

/-- Nothing is rounded to a small number but the number itself. -/
theorem eq_iff_of_lt (hround : RoundsTo p n m) (hp : 0 < p) (hk : k < 2 ^ p) : m = k ↔ n = k := by
  constructor
  · rintro rfl
    rcases Nat.lt_or_ge (2 ^ p) n with hlarge | hsmall
    · have hle := hround.le_of_le (fits_self hp (Nat.le_refl _)) (Nat.le_of_lt hlarge)
      omega
    · exact (hround.eq_of_fits (fits_self hp hsmall)).symm
  · rintro rfl
    exact hround.eq_of_fits (fits_self hp (Nat.le_of_lt hk))

/-- Of two neighbours that are equally near, only one has an even mantissa. -/
theorem not_upper {exponent : Nat} (hm : 2 ^ p ≤ m)
    (hlower : RoundsTo (p + 1) n (m * 2 ^ exponent)) :
    ¬ RoundsTo (p + 1) n ((m + 1) * 2 ^ exponent) := by
  intro hupper
  have hne : m * 2 ^ exponent ≠ (m + 1) * 2 ^ exponent := by
    rw [Nat.add_one_mul]
    have hunit := Nat.two_pow_pos exponent
    omega
  have hsame := Nat.le_antisymm (hlower.nearest _ hupper.fits) (hupper.nearest _ hlower.fits)
  have hfirst := even_of_fits hm (hlower.even _ hupper.fits hne.symm hsame.symm)
  have hsecond := even_of_fits (Nat.le_succ_of_le hm) (hupper.even _ hlower.fits hne hsame)
  omega

theorem unique {other : Nat} (hround : RoundsTo (p + 1) n m) (hother : RoundsTo (p + 1) n other) :
    m = other := by
  rcases Nat.lt_or_ge (2 ^ (p + 1)) n with hlarge | hsmall
  · have hneighbours := neighbours_of_lt hlarge
    obtain ⟨hlow, -⟩ := mantissa_bounds hlarge
    -- both are neighbours of the number, and a tie has one winner
    rcases hneighbours.eq_or_eq hround with rfl | rfl
    · rcases hneighbours.eq_or_eq hother with rfl | rfl
      · rfl
      · exact absurd hother (hround.not_upper hlow)
    · rcases hneighbours.eq_or_eq hother with rfl | rfl
      · exact absurd hround (hother.not_upper hlow)
      · rfl
  · have hfits := fits_self p.succ_pos hsmall
    rw [hround.eq_of_fits hfits, hother.eq_of_fits hfits]

end RoundsTo

theorem roundsTo_nearest (hp : 0 < p) (n : Nat) : RoundsTo (p + 1) n (nearest (p + 1) n) := by
  unfold nearest
  split
  next hsmall => exact roundsTo_self (fits_self p.succ_pos hsmall)
  next hlarge =>
    rw [Nat.add_sub_add_right]
    have hn := Nat.lt_of_not_le hlarge
    have hneighbours := neighbours_of_lt hn
    obtain ⟨hlow, hhigh⟩ := mantissa_bounds hn
    obtain ⟨hbelow, habove⟩ := sub_multiples n (2 ^ (n.log2 - p)) (Nat.two_pow_pos _)
    dsimp only
    -- the two branches are the two neighbours
    split
    next hdown =>
      apply hneighbours.roundsTo_lower
      rw [hbelow, habove]
      rcases hdown with hless | ⟨hhalf, heven⟩
      · exact .inl (by omega)
      · exact .inr ⟨by omega, fits_of_even hp (Nat.le_of_lt hhigh) heven _⟩
    next hup =>
      apply hneighbours.roundsTo_upper
      rw [hbelow, habove]
      by_cases hhalf : 2 * (n % 2 ^ (n.log2 - p)) = 2 ^ (n.log2 - p)
      · exact .inr ⟨by omega, fits_of_even hp hhigh (by omega) _⟩
      · exact .inl (by omega)

/-- A number is rounded to exactly one number. -/
theorem nearest_eq_iff (hp : 0 < p) : nearest (p + 1) n = m ↔ RoundsTo (p + 1) n m := by
  constructor
  · rintro rfl
    exact roundsTo_nearest hp n
  · intro hround
    exact (roundsTo_nearest hp n).unique hround

/-! ## The shortest decimal number -/

/-- What lies between a number and its rounded one is rounded as well. -/
theorem RoundsTo.between (hround : RoundsTo p k n)
    (hbetween : k ≤ m ∧ m ≤ n ∨ n ≤ m ∧ m ≤ k) : RoundsTo p m n := by
  refine ⟨hround.fits, ?_, ?_⟩
  · intro j hj
    have hnear := hround.nearest j hj
    unfold Nat.dist at hnear ⊢
    omega
  · intro j hj hne hsame
    have hnear := hround.nearest j hj
    apply hround.even j hj hne
    unfold Nat.dist at hnear hsame ⊢
    omega

theorem multiple?_eq_some {unit : Nat} (hmultiple : multiple? p unit n = some m) :
    unit ∣ m ∧ nearest p m = n := by
  unfold multiple? at hmultiple
  dsimp only at hmultiple
  split at hmultiple
  next hbelow =>
    cases hmultiple
    exact ⟨Nat.dvd_mul_left _ _, hbelow.1⟩
  next =>
    split at hmultiple
    next habove =>
      cases hmultiple
      exact ⟨Nat.dvd_mul_left _ _, habove⟩
    next => cases hmultiple

/-- Where another multiple is rounded to the number, one beside the number is. -/
theorem multiple?_ne_none {unit : Nat} (hp : 0 < p) (hunit : 0 < unit) (hdvd : unit ∣ k)
    (hround : RoundsTo (p + 1) k n) : multiple? (p + 1) unit n ≠ none := by
  obtain ⟨factor, rfl⟩ := hdvd
  have hsplit := Nat.div_add_mod n unit
  have hrest := Nat.mod_lt n hunit
  unfold multiple?
  dsimp only
  rcases Nat.lt_or_ge (n / unit) factor with habove | hbelow
  · have hnear : RoundsTo (p + 1) ((n / unit + 1) * unit) n := by
      apply hround.between
      right
      have hle := Nat.mul_le_mul_left unit (Nat.succ_le_of_lt habove)
      rw [Nat.mul_comm (n / unit + 1)]
      constructor
      · rw [Nat.mul_add_one]
        omega
      · exact hle
    rw [if_pos ((nearest_eq_iff hp).mpr hnear)]
    split
    · exact Option.some_ne_none _
    · exact Option.some_ne_none _
  · have hnear : RoundsTo (p + 1) (n / unit * unit) n := by
      apply hround.between
      left
      rw [Nat.mul_comm (n / unit)]
      exact ⟨Nat.mul_le_mul_left unit hbelow, by omega⟩
    have hsame := (nearest_eq_iff hp).mpr hnear
    split
    · exact Option.some_ne_none _
    next hfarther =>
      -- the one below was passed over for the one above
      rw [if_pos]
      · exact Option.some_ne_none _
      · by_contra hno
        exact hfarther ⟨hsame, fun hyes => absurd hyes hno⟩

theorem shortest_roundsTo (hp : 0 < p) (hn : Fits (p + 1) n) (zeros : Nat) :
    RoundsTo (p + 1) (shortest (p + 1) n zeros) n := by
  induction zeros with
  | zero => exact roundsTo_self hn
  | succ zeros ih =>
    unfold shortest
    cases hmultiple : multiple? (p + 1) (10 ^ (zeros + 1)) n with
    | none => exact ih
    | some m => exact (nearest_eq_iff hp).mp (multiple?_eq_some hmultiple).2

/-- No number with more zeros is rounded to this one. -/
theorem dvd_shortest {zeros count : Nat} (hp : 0 < p) (hround : RoundsTo (p + 1) k n)
    (hdvd : 10 ^ count ∣ k) (hcount : count ≤ zeros) :
    10 ^ count ∣ shortest (p + 1) n zeros := by
  induction zeros with
  | zero =>
    rw [Nat.le_zero.mp hcount, Nat.pow_zero]
    exact Nat.one_dvd _
  | succ zeros ih =>
    unfold shortest
    cases hmultiple : multiple? (p + 1) (10 ^ (zeros + 1)) n with
    | none =>
      apply ih
      have hne : count ≠ zeros + 1 := by
        rintro rfl
        exact multiple?_ne_none hp (Nat.pow_pos (by decide)) hdvd hround hmultiple
      omega
    | some m =>
      have hpow : 10 ^ count ∣ 10 ^ (zeros + 1) := Nat.pow_dvd_pow 10 hcount
      exact Nat.dvd_trans hpow (multiple?_eq_some hmultiple).1

/-- A small number stands for itself. -/
theorem shortest_of_lt (hp : 0 < p) (hn : n < 2 ^ (p + 1)) (zeros : Nat) :
    shortest (p + 1) n zeros = n := by
  have hfits := fits_self p.succ_pos (Nat.le_of_lt hn)
  exact ((shortest_roundsTo hp hfits zeros).eq_iff_of_lt p.succ_pos hn).mp rfl

end Rounding
