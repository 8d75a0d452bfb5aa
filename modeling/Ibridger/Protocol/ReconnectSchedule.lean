import Ibridger.Cpp.ReconnectAttempts
import Ibridger.Js.ReconnectAttempts
import Mathlib.Algebra.Ring.Nat
import Mathlib.Algebra.Order.Ring.Int
import Mathlib.Data.Nat.Cast.Order.Ring

/-! # One reconnect schedule in both languages

Both SDKs are to wait `min (base * 2 ^ i) max` milliseconds before attempt `i`. C++
multiplies 64-bit numbers, doubles thirty times at most and counts attempts with an `int`;
JS hands the delay to `setTimeout`, which takes 31 bits.
-/

namespace Ibridger.Protocol

open RetryPolicy Wire

/-- What a user configures in both SDKs. -/
structure Schedule where
  /-- In milliseconds. -/
  base : UInt64
  maximum : UInt64
  base_lt : base.toNat < 2 ^ 63
  maximum_lt : maximum.toNat < 2 ^ 63
  /-- The attempts before giving up; `none` is unlimited. -/
  bound : Option Nat
  bound_le : ∀ n, bound = some n → n ≤ 2147483647
  /-- Whether a callback for successful attempts is set. -/
  onReconnect : Bool

namespace Schedule

variable (schedule : Schedule)

/-- The delay before an attempt. -/
def delay (attempt : Nat) : Nat :=
  min (schedule.base.toNat * 2 ^ attempt) schedule.maximum.toNat

/-- The schedule that both SDKs are to keep. -/
def intended : RetryPolicy where
  allows attempt := schedule.bound.all fun n => attempt < n
  wait attempt := schedule.delay attempt

def cppConfig : Cpp.ReconnectConfig where
  maxAttempts := schedule.bound.elim (-1) Int.ofNat
  baseDelay := schedule.base.toNat
  maxDelay := schedule.maximum.toNat
  onReconnect := schedule.onReconnect

def jsOptions : Js.ReconnectOptions where
  maxAttempts := schedule.bound
  baseDelayMs := Js.numberOfLong schedule.base
  maxDelayMs := Js.numberOfLong schedule.maximum
  onReconnect := schedule.onReconnect

end Schedule

/-- How an attempt ends in the two SDKs. -/
structure AttemptResult where
  cpp : Cpp.ConnectOutcome
  js : Option String
  same : cpp = .connected ↔ js = none

def AttemptResult.succeeds (result : AttemptResult) : Bool := result.js.isNone

def AttemptResult.refused : AttemptResult where
  cpp := .failed (.ibridger .internal)
  js := some "connect ECONNREFUSED"
  same := by simp

/-- A C++ call that is about to reconnect. -/
structure CppOutage (config : Cpp.ReconnectConfig) where
  client : Cpp.Client
  call : Nat
  resend : Option Cpp.ErrorCode
  codec_eq : client.codec = none
  config_eq : client.config.reconnect = some config

/-- A JS client that is about to reconnect. -/
structure JsOutage (Value : Type) (options : Js.ReconnectOptions) where
  client : Js.Client Value
  codec_eq : client.codec = none
  reconnecting_eq : client.reconnecting = false
  config_eq : client.config.reconnect = some options

/-- The sleeps of `attempt_reconnect`, and what becomes of it. -/
def CppOutage.tries {config : Cpp.ReconnectConfig} (format : EnvelopeFormat)
    (outage : CppOutage config) (results : List AttemptResult) : List Int × Verdict :=
  Cpp.Client.tries format outage.call
    (outage.client.attemptReconnect outage.call 0 outage.resend) (results.map AttemptResult.cpp)

/-- The sleeps of the loop that `scheduleReconnect` starts, and what becomes of it. -/
def JsOutage.tries {Value : Type} {options : Js.ReconnectOptions} (format : EnvelopeFormat)
    (decode : Nat → List UInt8 → Except String Value) (outage : JsOutage Value options)
    (results : List AttemptResult) : List Int × Verdict :=
  Js.Client.tries format decode options outage.client.loops.length
    (outage.client.scheduleReconnect options) (results.map AttemptResult.js)

namespace Schedule

variable (schedule : Schedule)

/-- How many attempts the bound and the results allow for. -/
def made (results : List AttemptResult) : Nat :=
  match schedule.bound with
  | none => tried (results.map AttemptResult.succeeds)
  | some n => min n (tried (results.map AttemptResult.succeeds))

/-- Both SDKs make the attempts of the schedule, and no product overflows. -/
structure Kept {Value : Type} (format : EnvelopeFormat)
    (decode : Nat → List UInt8 → Except String Value) (cpp : CppOutage schedule.cppConfig)
    (js : JsOutage Value schedule.jsOptions) (results : List AttemptResult) : Prop where
  in_range : ∀ i < schedule.made results, ¬ schedule.cppConfig.Overflows i
  cpp : cpp.tries format results =
    schedule.intended.attempts 0 (results.map AttemptResult.succeeds)
  js : js.tries format decode results =
    schedule.intended.attempts 0 (results.map AttemptResult.succeeds)

/-- The numbers of an attempt stay within what the code can handle. -/
structure Exact (attempt : Nat) : Prop where
  /-- The product is a 64-bit number. -/
  product : schedule.base.toNat * 2 ^ min attempt 30 < 2 ^ 63
  /-- The delay is at its maximum by the time that C++ stops doubling. -/
  doubled : attempt ≤ 30 ∨ schedule.maximum.toNat ≤ schedule.base.toNat * 2 ^ 30
  /-- `setTimeout` takes the delay. -/
  positive : 1 ≤ schedule.delay attempt
  timer : schedule.delay attempt ≤ 2147483647
  /-- The attempt is counted with an `int`. -/
  counted : attempt < 2147483647

section Kept

variable {schedule} {results : List AttemptResult} {attempt : Nat}

theorem length_intended (results : List AttemptResult) :
    (schedule.intended.attempts 0 (results.map AttemptResult.succeeds)).1.length =
      schedule.made results := by
  unfold made
  cases hbound : schedule.bound with
  | none =>
      apply length_attempts_of_forall
      intro i
      simp [intended, hbound]
  | some n =>
      apply length_attempts_of_limit
      intro i
      simp [intended, hbound]

theorem intended_of_made (hattempt : attempt < schedule.made results) :
    schedule.intended.allows attempt = true := by
  unfold made at hattempt
  cases hbound : schedule.bound with
  | none => simp [intended, hbound]
  | some n =>
      rw [hbound] at hattempt
      simp only [intended, hbound, Option.all_some, decide_eq_true_eq]
      exact Nat.lt_of_lt_of_le hattempt (Nat.min_le_left _ _)

theorem limit_eq : schedule.cppConfig.limit = schedule.bound.getD 2147483647 := by
  cases hbound : schedule.bound with
  | none => simp [Cpp.ReconnectConfig.limit, cppConfig, hbound]
  | some n => simp [Cpp.ReconnectConfig.limit, cppConfig, hbound]

theorem lt_limit_iff (hattempt : schedule.intended.allows attempt = true) :
    attempt < schedule.cppConfig.limit ↔ attempt < 2147483647 := by
  rw [limit_eq]
  cases hbound : schedule.bound with
  | none => rfl
  | some n =>
      have hle := schedule.bound_le n hbound
      simp only [intended, hbound, Option.all_some, decide_eq_true_eq] at hattempt
      simp only [Option.getD_some]
      omega

/-- The product of C++, before it is cut to 64 bits. -/
theorem product_cast (base attempt : Nat) :
    (base : Int) * 2 ^ min attempt 30 = ((base * 2 ^ min attempt 30 : Nat) : Int) := by
  push_cast
  rfl

theorem overflows_iff :
    ¬ schedule.cppConfig.Overflows attempt ↔
      schedule.base.toNat * 2 ^ min attempt 30 < 2 ^ 63 := by
  unfold Cpp.ReconnectConfig.Overflows cppConfig
  rw [not_not]
  dsimp only
  rw [product_cast]
  omega

/-- Without an overflow, C++ doubles thirty times and waits no longer than the maximum. -/
theorem cpp_delay_eq (hproduct : schedule.base.toNat * 2 ^ min attempt 30 < 2 ^ 63) :
    schedule.cppConfig.delay attempt =
      (min (schedule.base.toNat * 2 ^ min attempt 30) schedule.maximum.toNat : Nat) := by
  unfold Cpp.ReconnectConfig.delay cppConfig
  dsimp only
  rw [product_cast, Int.bmod_eq_of_le (by omega) (by omega), Nat.cast_min]

/-- Thirty doublings are enough where they come to the maximum. -/
theorem doubled_iff (hbase : 1 ≤ schedule.base.toNat) :
    min (schedule.base.toNat * 2 ^ min attempt 30) schedule.maximum.toNat =
        schedule.delay attempt ↔
      attempt ≤ 30 ∨ schedule.maximum.toNat ≤ schedule.base.toNat * 2 ^ 30 := by
  unfold delay
  by_cases hle : attempt ≤ 30
  · simp [hle]
  · -- the doublings that are left out count below the maximum
    rw [Nat.min_eq_right (Nat.le_of_not_le hle)]
    have hmore : schedule.base.toNat * 2 ^ 30 < schedule.base.toNat * 2 ^ attempt :=
      Nat.mul_lt_mul_of_pos_left (Nat.pow_lt_pow_right (by decide) (Nat.lt_of_not_le hle)) hbase
    omega

theorem timerDelay_eq_self_iff {ms : Nat} :
    Js.timerDelay ms = ms ↔ 1 ≤ ms ∧ ms ≤ 2147483647 := by
  unfold Js.timerDelay Js.TIMEOUT_MAX
  split
  · simp_all
  · omega

theorem js_wait_eq (attempt : Nat) :
    schedule.jsOptions.policy.wait attempt = (Js.timerDelay (schedule.delay attempt) : Int) := by
  have hmax : schedule.jsOptions.maxDelayMs < 2 ^ 1024 := by
    apply Nat.lt_of_le_of_lt (Js.numberOfLong_le schedule.maximum)
    rw [Nat.pow_lt_pow_iff_right (by decide)]
    decide
  unfold Js.ReconnectOptions.policy
  dsimp only
  rw [Js.ReconnectOptions.sleepMs_delayNumber _ hmax]
  exact congrArg _ (Js.timerDelay_numberOfLong schedule.base schedule.maximum attempt)

/-- An attempt is made as intended exactly if its numbers are within range. -/
theorem exact_iff (hattempt : schedule.intended.allows attempt = true) :
    ¬ schedule.cppConfig.Overflows attempt ∧
        (schedule.cppConfig.policy.allows attempt = true ∧
          schedule.cppConfig.policy.wait attempt = schedule.intended.wait attempt) ∧
        (schedule.jsOptions.policy.allows attempt = true ∧
          schedule.jsOptions.policy.wait attempt = schedule.intended.wait attempt) ↔
      schedule.Exact attempt := by
  have hcount : schedule.cppConfig.policy.allows attempt = true ↔ attempt < 2147483647 := by
    rw [← lt_limit_iff hattempt]
    simp [Cpp.ReconnectConfig.policy]
  have hjs : schedule.jsOptions.policy.allows attempt = true := hattempt
  have htimer : schedule.jsOptions.policy.wait attempt = schedule.intended.wait attempt ↔
      1 ≤ schedule.delay attempt ∧ schedule.delay attempt ≤ 2147483647 := by
    rw [js_wait_eq, ← timerDelay_eq_self_iff]
    exact Int.ofNat_inj
  have hcpp : schedule.base.toNat * 2 ^ min attempt 30 < 2 ^ 63 → 1 ≤ schedule.delay attempt →
      (schedule.cppConfig.policy.wait attempt = schedule.intended.wait attempt ↔
        attempt ≤ 30 ∨ schedule.maximum.toNat ≤ schedule.base.toNat * 2 ^ 30) := by
    intro hproduct hpositive
    -- a delay that is positive has a positive base
    have hbase : 1 ≤ schedule.base.toNat := by
      by_contra hzero
      have hbase : schedule.base.toNat = 0 := by omega
      rw [delay, hbase, Nat.zero_mul, Nat.zero_min] at hpositive
      omega
    rw [← doubled_iff hbase]
    change schedule.cppConfig.delay attempt = _ ↔ _
    rw [cpp_delay_eq hproduct]
    exact Int.ofNat_inj
  rw [overflows_iff, hcount, htimer]
  constructor
  · rintro ⟨hproduct, ⟨hcounted, hwait⟩, -, hpositive, htime⟩
    exact ⟨hproduct, (hcpp hproduct hpositive).mp hwait, hpositive, htime, hcounted⟩
  · rintro ⟨hproduct, hdoubled, hpositive, htime, hcounted⟩
    exact ⟨hproduct, ⟨hcounted, (hcpp hproduct hpositive).mpr hdoubled⟩, hjs, hpositive, htime⟩

/-- The sleeps of C++ are those of the schedule exactly if each attempt has its number
and its delay. -/
theorem cpp_tries_iff (format : EnvelopeFormat) (cpp : CppOutage schedule.cppConfig) :
    cpp.tries format results =
        schedule.intended.attempts 0 (results.map AttemptResult.succeeds) ↔
      ∀ i < schedule.made results, schedule.cppConfig.policy.allows i = true ∧
        schedule.cppConfig.policy.wait i = schedule.intended.wait i := by
  have hgives : ∀ i, schedule.intended.allows i = false →
      schedule.cppConfig.policy.allows i = false := by
    intro i hi
    cases hbound : schedule.bound with
    | none => simp [intended, hbound] at hi
    | some n =>
        simp only [intended, hbound, Option.all_some, decide_eq_false_iff_not] at hi
        simp [Cpp.ReconnectConfig.policy, limit_eq, hbound, Nat.le_of_not_lt hi]
  have houtcomes : (results.map AttemptResult.cpp).map (fun outcome =>
      decide (outcome = .connected)) = results.map AttemptResult.succeeds := by
    rw [List.map_map]
    apply List.map_congr_left
    intro result _
    rw [Function.comp_apply, Bool.eq_iff_iff, decide_eq_true_eq, result.same]
    simp [AttemptResult.succeeds]
  have hattempts := @attempts_eq_iff _ _ 0 hgives (results.map AttemptResult.succeeds)
  rw [CppOutage.tries, Cpp.Client.tries_attemptReconnect cpp.codec_eq cpp.config_eq, houtcomes,
    hattempts, length_intended]
  simp

/-- So are those of JS. -/
theorem js_tries_iff {Value : Type} (format : EnvelopeFormat)
    (decode : Nat → List UInt8 → Except String Value) (js : JsOutage Value schedule.jsOptions) :
    js.tries format decode results =
        schedule.intended.attempts 0 (results.map AttemptResult.succeeds) ↔
      ∀ i < schedule.made results, schedule.jsOptions.policy.allows i = true ∧
        schedule.jsOptions.policy.wait i = schedule.intended.wait i := by
  have houtcomes : (results.map AttemptResult.js).map Option.isNone =
      results.map AttemptResult.succeeds := by
    rw [List.map_map]
    rfl
  have hattempts := @attempts_eq_iff schedule.intended schedule.jsOptions.policy 0
    (fun i hi => hi) (results.map AttemptResult.succeeds)
  rw [JsOutage.tries, Js.Client.tries_scheduleReconnect js.codec_eq js.reconnecting_eq
    js.config_eq, houtcomes, hattempts, length_intended]
  simp

end Kept

/-- Both SDKs make the attempts of the schedule exactly if the numbers of each attempt that
the bound and the results allow for stay within range. -/
theorem kept_iff_exact {Value : Type} (format : EnvelopeFormat)
    (decode : Nat → List UInt8 → Except String Value) (cpp : CppOutage schedule.cppConfig)
    (js : JsOutage Value schedule.jsOptions) (results : List AttemptResult) :
    schedule.Kept format decode cpp js results ↔
      ∀ i < schedule.made results, schedule.Exact i := by
  constructor
  · intro hkept i hi
    rw [← exact_iff (intended_of_made hi)]
    exact ⟨hkept.in_range i hi, (cpp_tries_iff format cpp).mp hkept.cpp i hi,
      (js_tries_iff format decode js).mp hkept.js i hi⟩
  · -- all three parts come from the same attempts
    intro hexact
    have hparts := fun i hi => (exact_iff (intended_of_made hi)).mpr (hexact i hi)
    constructor
    · intro i hi
      exact (hparts i hi).1
    · rw [cpp_tries_iff]
      intro i hi
      exact (hparts i hi).2.1
    · rw [js_tries_iff]
      intro i hi
      exact (hparts i hi).2.2

/-- A client that has never been connected, and whose `call` reconnects. -/
def cppFresh : CppOutage schedule.cppConfig where
  client := .init { reconnect := some schedule.cppConfig }
  call := 0
  resend := none
  codec_eq := rfl
  config_eq := rfl

def jsFresh : JsOutage Unit schedule.jsOptions where
  client := .init { reconnect := some schedule.jsOptions }
  codec_eq := rfl
  reconnecting_eq := rfl
  config_eq := rfl

/-- A base of 2^33 milliseconds, a maximum of ten seconds and no bound. -/
def overflowing : Schedule where
  base := 8589934592
  maximum := 10000
  base_lt := by decide
  maximum_lt := by decide
  bound := none
  bound_le := by simp
  onReconnect := false

/-- After thirty failures, C++ sleeps for a negative time where JS sleeps ten seconds. -/
theorem late_delay_negative :
    let results := List.replicate 30 AttemptResult.refused
    let format : EnvelopeFormat := ⟨fun _ => none, fun _ => .error ""⟩
    let decode : Nat → List UInt8 → Except String Unit := fun _ _ => .ok ()
    overflowing.cppFresh.tries format results =
        (List.replicate 30 10000 ++ [-9223372036854775808], .waiting) ∧
      overflowing.jsFresh.tries format decode results = (List.replicate 31 10000, .waiting) ∧
      ¬ overflowing.Kept format decode overflowing.cppFresh overflowing.jsFresh results := by
  intro results format decode
  have hcpp : overflowing.cppFresh.tries format results =
      (List.replicate 30 10000 ++ [-9223372036854775808], .waiting) := by
    rw [CppOutage.tries, Cpp.Client.tries_attemptReconnect overflowing.cppFresh.codec_eq
      overflowing.cppFresh.config_eq]
    decide
  have hjs : overflowing.jsFresh.tries format decode results =
      (List.replicate 31 10000, .waiting) := by
    have hdelay : ∀ i, overflowing.delay i = 10000 := by
      intro i
      exact Nat.min_eq_right (Nat.le_trans (by decide) (Nat.le_mul_of_pos_right _
        (Nat.two_pow_pos i)))
    rw [(js_tries_iff format decode _).mpr]
    · decide
    · intro i _
      refine ⟨rfl, ?_⟩
      rw [js_wait_eq, hdelay]
      change (Js.timerDelay 10000 : Int) = overflowing.delay i
      rw [hdelay]
      rfl
  refine ⟨hcpp, hjs, ?_⟩
  intro hkept
  have hsame := hkept.cpp.trans hkept.js.symm
  rw [hcpp, hjs] at hsame
  revert hsame
  decide

end Schedule

end Ibridger.Protocol
