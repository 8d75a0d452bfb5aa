import Ibridger.Cpp.ClientStep
import Ibridger.Foundation.Backoff

/-! # The attempts of `attempt_reconnect`

What a call sleeps and what becomes of its attempts while no other thread steps in.
-/

namespace Ibridger.Cpp

open RetryPolicy Wire

/-- The loop of `attempt_reconnect`, as a policy. -/
def ReconnectConfig.policy (config : ReconnectConfig) : RetryPolicy where
  allows attempt := decide (attempt < config.limit)
  wait := config.delay

/-- The product of the delay is a `long long`. -/
def ReconnectConfig.Overflows (config : ReconnectConfig) (attempt : Nat) : Prop :=
  ¬ (-2 ^ 63 ≤ config.baseDelay * 2 ^ min attempt 30 ∧
    config.baseDelay * 2 ^ min attempt 30 < 2 ^ 63)

namespace Client

variable (format : EnvelopeFormat)

/-- The sleeps of a call in `attempt_reconnect`, whose attempts end as given. -/
def tries (i : Nat) : Client → List ConnectOutcome → List Int × Verdict
  | client, [] =>
      match (client.calls i).phase with
      | .sleeping _ delay _ => ([delay], .waiting)
      | _ => ([], .exhausted)
  | client, outcome :: rest =>
      match (client.calls i).phase with
      | .sleeping _ delay _ =>
          match (client.connectLocked outcome).1 with
          | none => ([delay], .succeeded)
          | some _ =>
              match client.step format (.wake i outcome {}) with
              | none => ([delay], .waiting)
              | some next => (delay :: (tries i next rest).1, (tries i next rest).2)
      | _ => ([], .exhausted)

variable {format} {client : Client} {config : ReconnectConfig} {i : Nat}

theorem attemptReconnect_phase (hconfig : client.config.reconnect = some config) (n : Nat)
    (resend : Option ErrorCode) :
    ((client.attemptReconnect i n resend).calls i).phase =
      if n < config.limit then .sleeping n (config.delay n) resend
      else .returned (.error (resend.getD (.ibridger .notConnected))) := by
  rw [attemptReconnect_eq hconfig]
  simp [setPhase, setCall]

/-- A failed attempt is followed by the next. -/
theorem step_wake_failed (hcodec : client.codec = none)
    (hconfig : client.config.reconnect = some config) {n : Nat} {resend : Option ErrorCode}
    {outcome : ConnectOutcome} (hn : n < config.limit) (houtcome : outcome ≠ .connected) :
    ((client.attemptReconnect i n resend).connectLocked outcome).1.isSome ∧
      ∃ failed : Client, failed.codec = none ∧ failed.config.reconnect = some config ∧
        (client.attemptReconnect i n resend).step format (.wake i outcome {}) =
          some (failed.attemptReconnect i (n + 1) resend) := by
  have hphase := @attemptReconnect_phase client config i hconfig n resend
  rw [if_pos hn] at hphase
  have hsleeps := @attemptReconnect_eq client config hconfig i n resend
  have hstill : (client.attemptReconnect i n resend).codec = none := by
    rw [hsleeps]
    exact hcodec
  have hsame : (client.attemptReconnect i n resend).config = client.config := by rw [hsleeps]; rfl
  let failed : Client := { client.attemptReconnect i n resend with transport := false }
  have hfailed : ∃ err, (client.attemptReconnect i n resend).connectLocked outcome =
      (some err, failed) := by
    cases outcome with
    | connected => exact absurd rfl houtcome
    | noTransport => exact ⟨.ibridger .internal, by simp [connectLocked, hstill, failed]⟩
    | failed err => exact ⟨err, by simp [connectLocked, hstill, failed]⟩
  obtain ⟨err, herr⟩ := hfailed
  refine ⟨by rw [herr]; rfl, failed, hstill, hsame.symm ▸ hconfig, ?_⟩
  simp only [step, hphase, wake, herr]

/-- The attempts of a call that is alone are those of the policy. -/
theorem tries_attemptReconnect (hcodec : client.codec = none)
    (hconfig : client.config.reconnect = some config) (resend : Option ErrorCode) (n : Nat)
    (outcomes : List ConnectOutcome) :
    tries format i (client.attemptReconnect i n resend) outcomes =
      config.policy.attempts n (outcomes.map fun outcome => decide (outcome = .connected)) := by
  induction outcomes generalizing client n with
  | nil =>
      have hphase := @attemptReconnect_phase client config i hconfig n resend
      by_cases hn : n < config.limit
      · rw [if_pos hn] at hphase
        simp [tries, hphase, attempts, ReconnectConfig.policy, hn]
      · rw [if_neg hn] at hphase
        simp [tries, hphase, attempts, ReconnectConfig.policy, hn]
  | cons outcome rest ih =>
      have hphase := @attemptReconnect_phase client config i hconfig n resend
      by_cases hn : n < config.limit
      · rw [if_pos hn] at hphase
        have hallows : config.policy.allows n = true := by simp [ReconnectConfig.policy, hn]
        by_cases houtcome : outcome = .connected
        · subst houtcome
          have hconnected : ((client.attemptReconnect i n resend).connectLocked .connected).1 =
              none := by
            rw [attemptReconnect_eq hconfig]
            simp [connectLocked, setPhase, setCall, hcodec]
          simp [tries, hphase, hconnected, attempts, hallows]
          rfl
        · obtain ⟨hfailed, failed, hfree, hsame, hstep⟩ :=
            @step_wake_failed format client config i hcodec hconfig n resend outcome hn houtcome
          obtain ⟨err, herr⟩ := Option.isSome_iff_exists.mp hfailed
          simp only [tries, hphase, herr, hstep, ih hfree hsame, attempts, hallows, List.map_cons,
            houtcome, decide_false, if_true, Bool.false_eq_true, if_false]
          rfl
      · rw [if_neg hn] at hphase
        simp [tries, hphase, attempts, ReconnectConfig.policy, hn]

end Client

end Ibridger.Cpp
