import Ibridger.Js.LateResponses

/-! # What a call sends

The envelope that a call creates names its arguments, and a peer that answers the requests
in order answers each call by what it makes of its own envelope.
-/

namespace Ibridger.Js

open LengthPrefix Transition UnixSocketConnection Wire

variable {Value : Type}

/-- The envelope of the call, if it has one, names its arguments. -/
def Call.Addressed (call : Call Value) : Prop :=
  ∀ request, call.envelope = some request → ∃ id payload,
    call.encoded = .ok payload ∧ request = Client.requestEnvelope call id payload

namespace Client

variable {format : EnvelopeFormat} {decode : Nat → List UInt8 → Except String Value}
  {client next : Client Value}

def Addressed (client : Client Value) : Prop := ∀ i, (client.calls i).Addressed

namespace Addressed

theorem init (config : ClientConfig) : (Client.init config : Client Value).Addressed :=
  fun _ _ henvelope => by cases henvelope

variable (haddressed : client.Addressed)

include haddressed

theorem update {i : Nat} {call : Call Value}
    (hcalls : next.calls = Function.update client.calls i call) (hcall : call.Addressed) :
    next.Addressed := by
  intro j
  rw [hcalls, Function.update_apply]
  split
  · exact hcall
  · exact haddressed j

/-- The envelope that a call creates as it starts is made of its arguments. -/
theorem start (i : Nat) : (client.start format i).Addressed := by
  have hcreated : ∀ (c : Nat) (payload : List UInt8) (phase : CallPhase Value),
      (client.calls i).encoded = .ok payload →
        ((client.begun i c payload).setPhase i phase).Addressed := by
    intro c payload phase hencoded
    refine haddressed.update (begun_setPhase_calls client i c payload phase) ?_
    rintro request ⟨⟩
    exact ⟨client.nextRequestId, payload, hencoded, rfl⟩
  have hstarts := client.start_cases format i
  generalize client.start format i = next at hstarts ⊢
  cases hstarts with
  | rejected error => exact haddressed.update rfl (haddressed i)
  | unserializable c payload _ _ hencoded _ => exact hcreated c payload _ hencoded
  | sending c payload bytes _ _ hencoded _ =>
      exact hcreated c payload _ hencoded

theorem resume {i : Nat} (hresume : client.resume format decode i = some next) :
    next.Addressed := by
  cases resume_cases hresume with
  | starting hphase => exact haddressed.start i
  | receiving c id timeoutMs hphase =>
      unfold receive
      split <;> exact haddressed.update rfl (haddressed i)
  | unsent c id timeoutMs error hphase => exact haddressed.update rfl (haddressed i)
  | sending c id timeoutMs send result hphase _ => exact haddressed.update rfl (haddressed i)
  | received r id timeoutMs read result hphase _ _ => exact haddressed.update rfl (haddressed i)
  | failing error hphase => exact haddressed.update rfl (haddressed i)

theorem step {event : ClientEvent} (hstep : client.step format decode event = some next) :
    next.Addressed := by
  by_cases hcall : ¬ event.OfCall
  · unfold Addressed
    rw [(step_callsKept hcall hstep).calls_eq]
    exact haddressed
  cases event with
  | call i service method encoded options =>
      obtain ⟨-, hnext⟩ := call_cases hstep
      have hcalled : (client.called i service method encoded options).Addressed :=
        haddressed.update rfl fun _ henvelope => by cases henvelope
      rcases hnext with ⟨-, rfl⟩ | rfl
      · exact hcalled.update rfl (hcalled i)
      · exact hcalled.start i
  | poll i =>
      obtain ⟨-, hnext⟩ := poll_cases hstep
      rcases hnext with rfl | rfl | rfl
      · exact haddressed.update rfl (haddressed i)
      · exact haddressed
      · exact haddressed.update rfl (haddressed i)
  | timeout i =>
      obtain ⟨r, id, timeoutMs, hphase, rfl⟩ := timeout_cases hstep
      exact haddressed.update rfl (haddressed i)
  | resume i => exact haddressed.resume hstep
  | connect | disconnect | connected | connectFailed | data | close | error | written | sleepOver
  | read => exact absurd id hcall

end Addressed

theorem addressed_of_run {config : ClientConfig} {events : List ClientEvent}
    (hrun : Transition.run (Client.step format decode) (Client.init config) events = some client) :
    client.Addressed :=
  run_invariant Addressed (fun _ _ _ haddressed hstep => haddressed.step hstep)
    (Addressed.init config) hrun

/-- A call that has settled behind an envelope is out of time, or its envelope could not be
serialized or was too large to be sent, or it has made of the response to the envelope what
it is to make of it. -/
inductive Comes (format : EnvelopeFormat) (parse : List UInt8 → Except String Value)
    (reply : Envelope → Envelope) (request : Envelope) : Except CallError Value → Prop where
  | timedOut (timeoutMs : Nat) : Comes format parse reply request (.error (Js.timedOut timeoutMs))
  | unserializable (hserialize : format.serialize request = none) :
      Comes format parse reply request (.error .unserializable)
  | oversized (bytes : List UInt8) (hserialize : format.serialize request = some bytes)
      (hlarge : MAX_FRAME_SIZE < bytes.length) :
      Comes format parse reply request (.error (.transport (frameTooLargeError bytes.length)))
  | answered : Comes format parse reply request (outcome parse (reply request))

/-- The calls of a client whose peer answers its requests in order. -/
theorem Sequenced.comes {frames : List (List UInt8)} {front rest : List UInt8}
    {requests : List Envelope} {reply : Envelope → Envelope} (hinverse : format.Inverse)
    (hseq : client.Sequenced format decode frames front requests)
    (hmirrors : ∀ request, (reply request).requestId = request.requestId)
    (hreplies : format.Emitted ((client.conns 0).received ++ rest)
      ((format.envelopes (client.conns 0).output).map reply))
    {i : Nat} {request : Envelope} {result : Except CallError Value}
    (henvelope : (client.calls i).envelope = some request)
    (hsettled : (client.calls i).phase = .settled result) :
    Comes format (decode i) reply request result := by
  rw [hseq.line.received_eq, List.append_assoc] at hreplies
  have hended := hseq.ended i result hsettled
  rw [henvelope] at hended
  cases hended with
  | unserializable _ hserialize => exact .unserializable hserialize
  | oversized _ bytes hserialize hlarge => exact .oversized bytes hserialize hlarge
  | timedOut r _ timeoutMs howner hrequest => exact .timedOut timeoutMs
  | answered r _ payload howner hrequest hframe =>
      obtain ⟨response, hresponse, hparse⟩ := hreplies.carries_frame hseq.line.fits hframe
      rw [List.getElem?_map, getElem?_of_initial (hseq.requests_prefix hinverse) hrequest] at hresponse
      cases hresponse
      rw [received, hparse]
      dsimp only
      rw [respond_of_mirrored (hmirrors request) (hseq.small request (List.mem_of_getElem? hrequest))]
      exact .answered

end Client

end Ibridger.Js
