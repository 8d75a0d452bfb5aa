import Mathlib.Data.List.Basic

/-! # Retrying with waits in between

A policy says how many attempts there are and how long to wait before each. The first
attempt that succeeds is the last.
-/

/-- When to try again. Attempts are counted from zero. -/
structure RetryPolicy where
  allows : Nat → Bool
  wait : Nat → Int

namespace RetryPolicy

inductive Verdict where
  /-- The wait before the next attempt is under way. -/
  | waiting
  | succeeded
  | exhausted
deriving DecidableEq, Repr

/-- The waits of the attempts from the `n`-th on, whose outcomes are given, and what
becomes of them. -/
def attempts (policy : RetryPolicy) (n : Nat) : List Bool → List Int × Verdict
  | [] => if policy.allows n then ([policy.wait n], .waiting) else ([], .exhausted)
  | succeeds :: rest =>
      if policy.allows n then
        if succeeds then ([policy.wait n], .succeeded)
        else
          (policy.wait n :: (policy.attempts (n + 1) rest).1, (policy.attempts (n + 1) rest).2)
      else ([], .exhausted)

variable {policy other : RetryPolicy} {n : Nat}

theorem attempts_of_not_allows (hn : policy.allows n = false) (outcomes : List Bool) :
    policy.attempts n outcomes = ([], .exhausted) := by
  cases outcomes with
  | nil => simp [attempts, hn]
  | cons succeeds rest => simp [attempts, hn]

/-- Policies of which one gives up wherever the other does make the same attempts
exactly when they agree on each that is made. -/
theorem attempts_eq_iff (hgives : ∀ i, policy.allows i = false → other.allows i = false)
    (outcomes : List Bool) :
    other.attempts n outcomes = policy.attempts n outcomes ↔
      ∀ i < (policy.attempts n outcomes).1.length,
        other.allows (n + i) = true ∧ other.wait (n + i) = policy.wait (n + i) := by
  induction outcomes generalizing n with
  | nil =>
      by_cases hn : policy.allows n = true
      · by_cases hother : other.allows n = true
        · simp [attempts, hn, hother]
        · simp [attempts, hn, hother]
      · have hstop : policy.allows n = false := by simpa using hn
        simp [attempts_of_not_allows hstop, attempts_of_not_allows (hgives n hstop)]
  | cons succeeds rest ih =>
      by_cases hn : policy.allows n = true
      · by_cases hother : other.allows n = true
        · cases succeeds with
          | true => simp [attempts, hn, hother]
          | false =>
              have hrest := @ih (n + 1)
              -- the first attempt, and those behind it
              have hsplit : ∀ property : Nat → Prop, ∀ count,
                  (∀ i < count + 1, property (n + i)) ↔
                    property n ∧ ∀ i < count, property (n + 1 + i) := by
                intro property count
                constructor
                · intro h
                  refine ⟨h 0 (Nat.succ_pos _), ?_⟩
                  intro i hi
                  have hi' := h (i + 1) (Nat.succ_lt_succ hi)
                  rwa [Nat.add_comm i 1, ← Nat.add_assoc] at hi'
                · rintro ⟨hzero, hsucc⟩ i hi
                  cases i with
                  | zero => exact hzero
                  | succ i =>
                      rw [Nat.add_comm i 1, ← Nat.add_assoc]
                      exact hsucc i (Nat.lt_of_succ_lt_succ hi)
              simp only [attempts, hn, hother, if_true, Bool.false_eq_true, if_false,
                List.length_cons, Prod.mk.injEq, List.cons.injEq]
              rw [hsplit fun i => other.allows i = true ∧ other.wait i = policy.wait i, ← hrest,
                Prod.ext_iff, and_assoc]
              simp [hother]
        · -- giving up here differs at the first attempt
          have hfirst : (policy.attempts n (succeeds :: rest)).1.length ≠ 0 := by
            cases succeeds <;> simp [attempts, hn]
          constructor
          · intro heq
            rw [← heq, attempts_of_not_allows (by simpa using hother)] at hfirst
            exact absurd rfl hfirst
          · intro hall
            exact absurd (hall 0 (Nat.pos_of_ne_zero hfirst)).1 hother
      · have hstop : policy.allows n = false := by simpa using hn
        simp [attempts_of_not_allows hstop, attempts_of_not_allows (hgives n hstop)]

/-- The attempts that come before the first success, and it. -/
def tried (outcomes : List Bool) : Nat :=
  (outcomes.takeWhile fun succeeds => !succeeds).length + 1

theorem length_attempts_of_forall (hall : ∀ i, policy.allows i = true) (outcomes : List Bool) :
    (policy.attempts n outcomes).1.length = tried outcomes := by
  induction outcomes generalizing n with
  | nil => simp [attempts, tried, hall]
  | cons succeeds rest ih =>
      cases succeeds with
      | true => simp [attempts, tried, hall]
      | false => simp [attempts, tried, hall, ih]

theorem length_attempts_of_limit {limit : Nat} (hall : ∀ i, policy.allows i = decide (i < limit))
    (outcomes : List Bool) :
    (policy.attempts n outcomes).1.length = min (limit - n) (tried outcomes) := by
  induction outcomes generalizing n with
  | nil =>
      by_cases hn : n < limit
      · simp [attempts, tried, hall, hn]
        omega
      · simp [attempts, tried, hall, hn]
        omega
  | cons succeeds rest ih =>
      by_cases hn : n < limit
      · cases succeeds with
        | true =>
            simp [attempts, tried, hall, hn]
            omega
        | false =>
            have hrest := @ih (n + 1)
            have htried : tried (false :: rest) = tried rest + 1 := by simp [tried]
            rw [htried]
            simp only [attempts, hall, hn, decide_true, if_true, Bool.false_eq_true, if_false,
              List.length_cons, hrest]
            omega
      · simp [attempts, hall, hn]
        omega

end RetryPolicy
