import Ibridger.Cpp.RetrySafety

/-! # Responses with another id, in C++

`call` compares the id of the response with its own and returns `protocol_error`
when they differ. It leaves the connection to the next call.
-/

namespace Ibridger.Cpp.Client

open Transition Wire

variable (format : EnvelopeFormat)

/-- The step ends a call because the response that it reads from the connection
has another id than its request. -/
def EndsByMismatch (client : Client) (event : ClientEvent) (c : Nat) : Prop :=
  ∃ i request conn last response, Sends client event i c request ∧
    EnvelopeCodec.send format ((client.offer c event.traffic).links c).conn request =
      some (none, conn) ∧
    EnvelopeCodec.recv format conn = some (.ok response, last) ∧
    response.requestId ≠ request.requestId

/-- The connection is closed and not the current one, and no call will use it any more. -/
structure Left (client : Client) (c : Nat) : Prop where
  closed : (client.links c).conn.connected = false
  forgotten : client.codec ≠ some c
  unused : ∀ last, Reachable (step format) client last → last.writesOn c = client.writesOn c

/-- A call that ends by a mismatch leaves its connection. -/
def LeavesOnMismatch (client : Client) (event : ClientEvent) (next : Client) : Prop :=
  ∀ c, EndsByMismatch format client event c → Left format next c

/-- No call reads a response with another id. -/
def NoMismatch (client : Client) (event : ClientEvent) : Prop :=
  ∀ c, ¬ EndsByMismatch format client event c

variable {format}

/-- A request that is sent and answered gives a step. -/
theorem Sends.prepared {client : Client} {event : ClientEvent} {i c : Nat} {request : Envelope}
    (hsends : Sends client event i c request) :
    ∃ middle after, Prepared client i c event.traffic request middle ∧
      ∀ next, Exchanged format middle i c request after next →
        client.step format event = some next := by
  cases hsends with
  | began i c service method payload traffic hcodec hidle =>
      refine ⟨_, .send, prepared_began service method payload traffic hcodec hidle, ?_⟩
      intro next hexchanged
      exact step_began hcodec hidle hexchanged
  | restarted i attempt delay traffic hcodec hphase =>
      refine ⟨_, .send, prepared_restarted traffic hcodec hphase, ?_⟩
      intro next hexchanged
      exact step_restarted hcodec hphase hexchanged
  | resent i attempt delay err request traffic hcodec hphase hrequest =>
      refine ⟨_, .resend, prepared_resent traffic hcodec hphase hrequest, ?_⟩
      intro next hexchanged
      exact step_resent hcodec hphase hrequest hexchanged

/-- The call returns an error, and the connection stays the current one. -/
theorem EndsByMismatch.exists_step {client : Client} {event : ClientEvent} {c : Nat}
    (hends : EndsByMismatch format client event c) :
    ∃ next, client.step format event = some next ∧ next.codec = some c ∧
      ∃ i, (next.calls i).phase = .returned (.error (.ibridger .protocolError)) := by
  obtain ⟨i, request, conn, last, response, hsends, hsend, hrecv, hother⟩ := hends
  obtain ⟨middle, after, hprepared, hexchange⟩ := @Sends.prepared format _ _ _ _ _ hsends
  have hsame : EnvelopeCodec.send format (middle.links c).conn request = some (none, conn) := by
    rw [hprepared.links_eq]
    exact hsend
  have hanswered := @Exchanged.answered format middle i c request after _ _ _ hsame hrecv
  generalize ((middle.wrote i c request none conn).reached i c last).setPhase i _ = next
    at hanswered
  obtain ⟨error, sent, hexchanging⟩ := hanswered.exchanging
  cases hexchanging.send_eq.symm.trans hsame
  obtain ⟨hphase, hcodec, -⟩ := hexchanging.received hrecv
  refine ⟨next, hexchange next hanswered, hcodec.trans hprepared.codec_eq, i, ?_⟩
  rw [hphase, accept, if_neg hother]

theorem leavesOnMismatch_iff {client next : Client} {event : ClientEvent}
    (hstep : client.step format event = some next) :
    LeavesOnMismatch format client event next ↔ NoMismatch format client event := by
  apply forall_congr'
  intro c
  constructor
  · intro hleaves hends
    obtain ⟨other, hother, hcodec, -⟩ := hends.exists_step
    cases hstep.symm.trans hother
    exact (hleaves hends).forgotten hcodec
  · intro hnone hends
    exact absurd hends hnone

/-- Along a run of the client, every mismatch is fatal for its connection exactly
when there is none. -/
theorem run_leavesOnMismatch_iff (config : ClientConfig) (events : List ClientEvent) :
    Along (step format) (LeavesOnMismatch format) (init config) events ↔
      Guarded (step format) (NoMismatch format) (init config) events := by
  apply Along.congr_of_invariant fun _ => True
  · intros
    trivial
  · intro client event next _ hstep
    exact leavesOnMismatch_iff hstep
  · trivial

end Ibridger.Cpp.Client
