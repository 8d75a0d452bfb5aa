import Ibridger.Cpp.RequestIds
import Ibridger.Js.RequestIds

/-! # Request ids start from 1 on every connection

The specification numbers the requests of each connection from 1 on. Both clients number
their own requests, over all connections: the ids are those of the specification as long
as a client writes all its requests to one connection.
-/

namespace Ibridger.Protocol

open Transition Wire

variable {Value : Type} {format : EnvelopeFormat}
  {decode : Nat → List UInt8 → Except String Value}

/-- In a run of either client in which every request is written where the requests of all
the other calls stand already, the ids on every connection are 1, 2, 3, and so on. -/
theorem connections_number_from_one (hinverse : format.Inverse) :
    (∀ config events,
      Guarded (Js.Client.step format decode) (Js.Client.InStep format) (Js.Client.init config)
        events →
      Throughout (Js.Client.step format decode) (Js.Client.Restarts format) (Js.Client.init config)
        events) ∧
    ∀ config events, (∀ event ∈ events, Cpp.Progressing event.traffic.sends) →
      Guarded (Cpp.Client.step format) (Cpp.Client.InStep format) (Cpp.Client.init config) events →
      Throughout (Cpp.Client.step format) (Cpp.Client.Restarts format) (Cpp.Client.init config)
        events :=
  ⟨fun config _ hguard => Js.Client.request_ids_restart config hinverse hguard,
    fun config _ hprogress hguard => Cpp.Client.request_ids_restart config hinverse hprogress hguard⟩

/-- A client of each kind that makes its first call. -/
theorem first_call_numbers_from_one :
    Throughout (Js.Client.step (.knowing Js.Client.firstRequest) fun _ => .ok)
        (Js.Client.Restarts (.knowing Js.Client.firstRequest))
        (Js.Client.init {} : Js.Client (List UInt8))
        [.connect, .connected 0 false, .call 0 "" "" (.ok []) {}, .written 0 0 none, .resume 0] ∧
      Throughout (Cpp.Client.step Cpp.Client.counterFormat)
        (Cpp.Client.Restarts Cpp.Client.counterFormat) (Cpp.Client.init {})
        [.connect .connected, .call 0 "" "" [] (Cpp.Client.answering [16, 1] [8, 1, 16, 1])] := by
  constructor
  · have hinverse : (EnvelopeFormat.knowing Js.Client.firstRequest).Inverse :=
      EnvelopeFormat.knowing_inverse (by decide)
    have hserialize : (EnvelopeFormat.knowing Js.Client.firstRequest).serialize namelessRequest =
        some [8, 0, 16, 1, 26, 0, 34, 0, 42, 0] :=
      EnvelopeFormat.knowing_serialize (by decide) (by decide)
    refine (@connections_number_from_one _ _ (fun _ => .ok) hinverse).1 {} _ ?_
    refine .cons rfl ?_ (.cons rfl ?_ (.cons
      (Js.Client.call_eq_some rfl rfl rfl rfl hserialize) ?_ (.cons rfl ?_ (.cons rfl ?_ trivial))))
    · intro _ c hcodec
      cases hcodec
    · intro _ c hcodec
      cases hcodec
    · intro _ c _ j other hother
      cases hother
    all_goals
      rintro ⟨call, c, payload, bytes, hstarting, -⟩
      cases hstarting
  · exact (@connections_number_from_one _ _ (fun _ => .ok) Cpp.Client.counterFormat_inverse).2
      {} _ (by decide) Cpp.Client.first_call_inStep

/-- Each client numbers the first request on its second connection 2. -/
theorem second_connection_numbered_from_two :
    (∃ client : Js.Client (List UInt8),
      run (Js.Client.step (.knowing Js.Client.twoRequests) fun _ => .ok) (Js.Client.init {})
          Js.Client.callsAgain = some client ∧
        EnvelopeFormat.requestIds (.knowing Js.Client.twoRequests) (client.conns 1).output = [2] ∧
        ¬ client.Restarts (.knowing Js.Client.twoRequests)) ∧
      ∃ client, run (Cpp.Client.step Cpp.Client.secondFormat) (Cpp.Client.init {})
          Cpp.Client.callsAgain = some client ∧
        (∀ event ∈ Cpp.Client.callsAgain, Cpp.Progressing event.traffic.sends) ∧
        Cpp.Client.secondFormat.requestIds (client.links 1).conn.wire = [2] ∧
        ¬ client.Restarts Cpp.Client.secondFormat := by
  have hsecond : ¬ FromOne [2] := by
    unfold FromOne
    decide
  constructor
  · obtain ⟨client, hrun, houtput⟩ := Js.Client.callsAgain_output
    have hemitted := EnvelopeFormat.knowing_emitted (by decide)
      (by decide : ∀ message ∈ Js.Client.twoRequests.drop 1, message ∈ Js.Client.twoRequests)
      (by decide)
    have hids : EnvelopeFormat.requestIds (.knowing Js.Client.twoRequests)
        (client.conns 1).output = [2] := by
      rw [houtput, EnvelopeFormat.requestIds]
      exact congrArg (List.map Envelope.requestId) hemitted.envelopes_eq
    refine ⟨client, hrun, hids, ?_⟩
    intro hrestarts
    exact hsecond (hids ▸ hrestarts 1)
  · obtain ⟨client, hrun, hids⟩ := Cpp.Client.callsAgain_requestIds
    refine ⟨client, hrun, Cpp.Client.progressing_callsAgain, hids, ?_⟩
    intro hrestarts
    exact hsecond (hids ▸ hrestarts 1)

end Ibridger.Protocol
