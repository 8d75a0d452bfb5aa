import Ibridger.Js.Abandoned

/-! # Responses with another id, in JS

`call` compares the id of the response with its own and throws when they
differ. It leaves the codec and the connection as they are.
-/

namespace Ibridger.Js.Client

open Transition UnixSocketConnection Wire

variable {Value : Type} {format : EnvelopeFormat}
  {decode : Nat → List UInt8 → Except String Value}

variable (format) in
/-- The step ends a call because the response that it has read from the connection
has another id than its request. -/
def EndsByMismatch (client : Client Value) (event : ClientEvent) (c : Nat) : Prop :=
  ∃ i r id timeoutMs reader frame response, event = .resume i ∧
    (client.calls i).phase = .receiving r id timeoutMs ∧
    client.reads[r]? = some ⟨reader, c, .settled (.ok frame)⟩ ∧
    format.parse frame = .ok response ∧ numberOfLong response.requestId ≠ id

variable (format decode) in
/-- A call that ends by a mismatch leaves its connection. -/
def LeavesOnMismatch (client : Client Value) (event : ClientEvent) (next : Client Value) : Prop :=
  ∀ c, EndsByMismatch format client event c → Left format decode next c

variable (format) in
/-- A response with another id comes only from a connection that has already ended. -/
def MismatchesOnlyEnded (client : Client Value) (event : ClientEvent) : Prop :=
  ∀ c, EndsByMismatch format client event c → (client.conns c).connected = false

/-- The call is rejected, and everything else is as before. -/
theorem EndsByMismatch.step_eq {client next : Client Value} {event : ClientEvent} {c : Nat}
    (hends : EndsByMismatch format client event c)
    (hstep : client.step format decode event = some next) :
    ∃ i id response, numberOfLong response.requestId ≠ id ∧
      next = client.finish i (respond id (decode i) response) := by
  obtain ⟨i, r, id, timeoutMs, reader, frame, response, rfl, hphase, hread, hparse, hother⟩ := hends
  refine ⟨i, id, response, hother, ?_⟩
  simp only [step, resume, hphase, hread, received, hparse] at hstep
  exact (Option.some_inj.mp hstep).symm

/-- What the call is rejected with. -/
theorem EndsByMismatch.settled {client next : Client Value} {event : ClientEvent} {c : Nat}
    (hends : EndsByMismatch format client event c)
    (hstep : client.step format decode event = some next) :
    ∃ i, ∃ id got : Nat, (next.calls i).phase = .settled (.error (.error
      ("Protocol error: expected request_id " ++ numberText id ++ ", got " ++ numberText got))) := by
  obtain ⟨i, id, response, hother, rfl⟩ := hends.step_eq hstep
  refine ⟨i, id, numberOfLong response.requestId, ?_⟩
  simp only [finish, settle, setPhase, setCall, Function.update_self]
  rw [respond, if_pos hother]

theorem leavesOnMismatch_iff {client next : Client Value} {event : ClientEvent}
    (hgrounded : Grounded client) (hstep : client.step format decode event = some next) :
    LeavesOnMismatch format decode client event next ↔ MismatchesOnlyEnded format client event := by
  apply forall_congr'
  intro c
  apply imp_congr_right
  intro hends
  obtain ⟨i, id, response, -, rfl⟩ := hends.step_eq hstep
  obtain ⟨_, r, _, _, _, frame, _, -, -, hread, -⟩ := hends
  exact left_iff (hgrounded.step hstep) (hgrounded.opened _ (List.mem_of_getElem? hread))

/-- Along a run of the client, every mismatch is fatal for its connection exactly
when every mismatch comes from a connection that has already ended. -/
theorem run_leavesOnMismatch_iff (config : ClientConfig) (events : List ClientEvent) :
    Along (step format decode) (LeavesOnMismatch format decode) (init config) events ↔
      Guarded (step format decode) (MismatchesOnlyEnded format) (init config) events := by
  apply Along.congr_of_invariant Grounded
  · intro client event next hgrounded hstep
    exact hgrounded.step hstep
  · intro client event next hgrounded hstep
    exact leavesOnMismatch_iff hgrounded hstep
  · exact init_grounded config

end Ibridger.Js.Client
