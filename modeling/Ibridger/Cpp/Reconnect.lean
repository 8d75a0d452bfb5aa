import Ibridger.Cpp.Client
import Ibridger.Wire.KnownMessages

/-! # Reconnecting while others reconnect

While a call sleeps in `attempt_reconnect`, another thread may restore the
connection. The call then takes the mutex and finds the client connected, but
`connect_locked` reports this as an error, like a failed attempt.
-/

namespace Ibridger.Cpp.Client

open Transition Wire

/-- A call wakes in `attempt_reconnect` and finds the client connected. -/
def FindsConnected (client : Client) (event : ClientEvent) : Prop :=
  ∃ i outcome traffic attempt delay resend, event = .wake i outcome traffic ∧
    (client.calls i).phase = .sleeping attempt delay resend ∧ client.codec.isSome

/-- A call that finds the client connected leaves the loop and goes on over the
connection that is there. -/
def LeavesLoop (client : Client) (event : ClientEvent) (next : Client) : Prop :=
  ∀ i outcome traffic attempt delay resend c, event = .wake i outcome traffic →
    (client.calls i).phase = .sleeping attempt delay resend → client.codec = some c →
    (∃ write, next.writes = client.writes ++ [write] ∧ write.call = i ∧ write.conn = c) ∧
      (∀ attempt' delay' resend', (next.calls i).phase ≠ .sleeping attempt' delay' resend') ∧
      (next.calls i).phase ≠ .returned (.error (.ibridger .notConnected))

theorem attemptReconnect_writes (client : Client) (i attempt : Nat) (resend : Option ErrorCode) :
    (client.attemptReconnect i attempt resend).writes = client.writes := by
  unfold attemptReconnect
  split
  · rfl
  · split <;> rfl

variable {format : EnvelopeFormat}

/-- A call that finds the client connected takes this for a failed attempt. -/
theorem wake_of_connected {client : Client} (hcodec : client.codec.isSome) (i attempt : Nat)
    (resend : Option ErrorCode) (outcome : ConnectOutcome) (traffic : Traffic) :
    wake format client i attempt resend outcome traffic =
      some (client.attemptReconnect i (attempt + 1) resend) := by
  unfold wake connectLocked
  rw [if_pos hcodec]

theorem leavesLoop_iff {client next : Client} {event : ClientEvent}
    (hstep : client.step format event = some next) :
    LeavesLoop client event next ↔ ¬ FindsConnected client event := by
  constructor
  · intro hleaves hfinds
    obtain ⟨i, outcome, traffic, attempt, delay, resend, rfl, hphase, hcodec⟩ := hfinds
    obtain ⟨c, hc⟩ := Option.isSome_iff_exists.mp hcodec
    obtain ⟨⟨write, hwrites, -⟩, -⟩ :=
      hleaves i outcome traffic attempt delay resend c rfl hphase hc
    simp only [step, hphase, wake_of_connected hcodec, Option.some.injEq] at hstep
    rw [← hstep, attemptReconnect_writes] at hwrites
    simp at hwrites
  · intro hnot i outcome traffic attempt delay resend c hevent hphase hcodec
    exact absurd ⟨i, outcome, traffic, attempt, delay, resend, hevent, hphase,
      by rw [hcodec]; rfl⟩ hnot

/-- In a run of the client, whoever finds the connection restored goes on over
it exactly when nobody ever finds it restored. -/
theorem run_leavesLoop_iff (config : ClientConfig) (format : EnvelopeFormat)
    (events : List ClientEvent) :
    Along (step format) LeavesLoop (init config) events ↔
      Guarded (step format) (fun client event => ¬ FindsConnected client event) (init config)
        events := by
  apply Along.congr_of_invariant fun _ => True
  · intros
    trivial
  · intro client event next _ hstep
    exact leavesLoop_iff hstep
  · trivial

/-- With one attempt allowed, a call that sleeps while another thread connects
returns `not_connected` although the client is connected. -/
theorem not_connected_while_connected :
    ∃ last, run (step (.knowing []))
        (init { reconnect := some { maxAttempts := 1 } })
        [.call 0 "Echo" "Echo" [] {}, .connect .connected, .wake 0 .connected {}] = some last ∧
      last.isConnected = true ∧
      (last.calls 0).phase = .returned (.error (.ibridger .notConnected)) :=
  ⟨_, rfl, rfl, rfl⟩

end Ibridger.Cpp.Client
