import Ibridger.Js.Sequence
import Ibridger.Wire.KnownMessages

/-! # Responses that come too late

A call whose time is out leaves the connection open and its `recvFrame` behind.
The response that comes later is not for the next call, and is kept from it only
where the frames of both are told apart.
-/

namespace Ibridger.Js

open LengthPrefix Transition UnixSocketConnection Wire

namespace Client

variable {Value : Type} (format : EnvelopeFormat)
  (decode : Nat → List UInt8 → Except String Value)

/-- What a call is to make of the response to its own request. -/
def outcome (parse : List UInt8 → Except String Value) (response : Envelope) :
    Except CallError Value :=
  if response.status ≠ .ok then
    .error (.rpc response.status
      (if response.errorMessage = "" then
        "RPC failed with status " ++ toString (statusNumber response.status)
      else response.errorMessage))
  else (parse response.payload).mapError .protobuf

/-- How a call that has taken an id ends when the peer answers its requests by
`reply`: it has run out of time, its request could not be serialized or was too
large to be sent, or its result is that of the response to its own request. -/
inductive OwnResult (client : Client Value) (reply : Nat → Envelope → Envelope) (i : Nat)
    (request : Envelope) : Except CallError Value → Prop where
  | timedOut (timeoutMs : Nat) : OwnResult client reply i request (.error (Js.timedOut timeoutMs))
  | unserializable (hserialize : format.serialize request = none) :
      OwnResult client reply i request (.error .unserializable)
  | oversized (bytes : List UInt8) (hserialize : format.serialize request = some bytes)
      (hlarge : MAX_FRAME_SIZE < bytes.length) :
      OwnResult client reply i request (.error (.transport (frameTooLargeError bytes.length)))
  | answered (r : Nat) (read : Read) (hread : client.reads[r]? = some read) (hcall : read.call = i)
      (hrequest : (format.envelopes (client.conns 0).output)[r]? = some request) :
      OwnResult client reply i request (outcome (decode i) (reply r request))

/-- The peer answers all requests in order; the bytes `rest` are still to come. -/
def PeerAnswers (client : Client Value) (reply : Nat → Envelope → Envelope) : Prop :=
  ∃ rest, format.Emitted ((client.conns 0).received ++ rest)
    ((format.envelopes (client.conns 0).output).mapIdx reply)

variable {format decode}

/-- A response that mirrors the id of its request is taken for its own. -/
theorem respond_of_mirrored {parse : List UInt8 → Except String Value}
    {request response : Envelope} (hmirrored : response.requestId = request.requestId)
    (hsmall : request.requestId.toNat ≤ 2 ^ 53) :
    respond request.requestId.toNat parse response = outcome parse response := by
  have hid : numberOfLong response.requestId = request.requestId.toNat := by
    rw [hmirrored, numberOfLong_of_le hsmall]
  rw [respond, if_neg (not_not.mpr hid), outcome]
  split
  · rfl
  · cases parse response.payload <;> rfl

/-- The requests are the first envelopes of what is written. -/
theorem Sequenced.requests_prefix {client : Client Value} {frames : List (List UInt8)}
    {front : List UInt8} {requests : List Envelope} (hinverse : format.Inverse)
    (hseq : client.Sequenced format decode frames front requests) :
    requests <+: format.envelopes (client.conns 0).output := by
  cases hseq.flight with
  | free hfree hnone houtput => exact (houtput.emitted hinverse).envelopes_eq ▸ List.prefix_refl _
  | receiving i r id timeoutMs request hphase hbusy henvelope hid howner hrequest houtput =>
      exact (houtput.emitted hinverse).envelopes_eq ▸ List.prefix_refl _
  | failing i error hphase hbusy hended houtput =>
      exact (houtput.emitted hinverse).envelopes_eq ▸ List.prefix_refl _
  | sending i id timeoutMs send request bytes before hphase hbusy henvelope hid hsmall hserialize
      hbefore hputs =>
      obtain ⟨rest, houtput⟩ := hputs.output_prefix
      rw [houtput, ← (hbefore.emitted hinverse).envelopes_eq]
      exact EnvelopeFormat.envelopes_prefix _ _

/-- In a run on one connection in which the calls join in order, against a peer
that answers all requests, every call that does not run out of time gets the
response to its own request, and no call parses bytes of another's response. -/
theorem calls_get_own_responses {config : ClientConfig} {throws : Bool}
    {events : List ClientEvent} {last : Client Value} {reply : Nat → Envelope → Envelope}
    (hinverse : format.Inverse) (hundisturbed : ∀ event ∈ events, event.Undisturbed)
    (hjoins : Guarded (step format decode) JoinsInOrder (init config)
      (.connect :: .connected 0 throws :: events))
    (hrun : run (step format decode) (init config) (.connect :: .connected 0 throws :: events) =
      some last)
    (hmirrors : ∀ r request, (reply r request).requestId = request.requestId)
    (hanswers : last.PeerAnswers format reply) :
    (∀ i request result, (last.calls i).envelope = some request →
      (last.calls i).phase = .settled result →
        OwnResult format decode last reply i request result) ∧
      ∀ (r : Nat) read, last.reads[r]? = some read → OwnFrame (last.conns 0) r read.frame := by
  obtain ⟨rest, hreplies⟩ := hanswers
  obtain ⟨-, hconnected⟩ := hjoins _ rfl
  obtain ⟨-, hevents⟩ := hconnected _ rfl
  obtain ⟨frames, front, requests, hseq⟩ :=
    sequenced_of_run hundisturbed hevents hrun hreplies.not_oversized
  rw [hseq.line.received_eq, List.append_assoc] at hreplies
  constructor
  · intro i request result henvelope hsettled
    have hended := hseq.ended i result hsettled
    rw [henvelope] at hended
    cases hended with
    | unserializable _ hserialize => exact .unserializable hserialize
    | oversized _ bytes hserialize hlarge => exact .oversized bytes hserialize hlarge
    | timedOut r _ timeoutMs howner hrequest => exact .timedOut timeoutMs
    | answered r _ payload howner hrequest hframe =>
        have hwritten := getElem?_of_initial (hseq.requests_prefix hinverse) hrequest
        obtain ⟨response, hresponse, hparse⟩ := hreplies.carries_frame hseq.line.fits hframe
        rw [List.getElem?_mapIdx, hwritten, Option.map_some] at hresponse
        cases hresponse
        have hsmall := hseq.small request (List.mem_of_getElem? hrequest)
        rw [List.getElem?_map] at howner
        obtain ⟨read, hread, hpair⟩ := Option.map_eq_some_iff.mp howner
        rw [received, hparse]
        dsimp only
        rw [respond_of_mirrored (hmirrors r request) hsmall]
        exact .answered r read hread (congrArg Prod.fst hpair) hwritten
  · intro r read hread
    apply hseq.line.lined.own hseq.line.received_eq hseq.line.fits
    rw [List.getElem?_map, hread, Option.map_some]

/-- The first two requests, as protobuf.js writes them, and the responses to them. -/
def lateMessages : List (Envelope × List UInt8) :=
  [(namelessRequest, [8, 0, 16, 1, 26, 0, 34, 0, 42, 0]),
    ({ namelessRequest with requestId := 2 }, [8, 0, 16, 2, 26, 0, 34, 0, 42, 0]),
    ({ Envelope.empty with type := .response, requestId := 1 }, [8, 1, 16, 1]),
    ({ Envelope.empty with type := .response, requestId := 2 }, [8, 1, 16, 2])]

theorem lateMessages_first : (EnvelopeFormat.knowing lateMessages).serialize namelessRequest =
    some [8, 0, 16, 1, 26, 0, 34, 0, 42, 0] :=
  EnvelopeFormat.knowing_serialize (by decide) (by decide)

theorem lateMessages_second : (EnvelopeFormat.knowing lateMessages).serialize
    { namelessRequest with requestId := 2 } = some [8, 0, 16, 2, 26, 0, 34, 0, 42, 0] :=
  EnvelopeFormat.knowing_serialize (by decide) (by decide)

theorem lateMessages_emitted {messages : List (Envelope × List UInt8)}
    (hknown : messages ⊆ lateMessages)
    (hfits : ∀ message ∈ messages, message.2.length ≤ MAX_FRAME_SIZE) :
    (EnvelopeFormat.knowing lateMessages).Emitted (frameHeader.stream (messages.map Prod.snd))
      (messages.map Prod.fst) :=
  EnvelopeFormat.knowing_emitted (by decide) hknown hfits

/-- The peer sends back the id of the request. -/
def mirror (_ : Nat) (request : Envelope) : Envelope :=
  { Envelope.empty with type := .response, requestId := request.requestId }

/-- A call gives up behind its header, and the next call gets its own response. -/
theorem next_call_gets_own_response :
    ∃ (last : Client (List UInt8)) (result : Except CallError (List UInt8)),
      run (step (.knowing lateMessages) fun _ => .ok) (init {})
        [.connect, .connected 0 false, .call 0 "" "" (.ok []) {}, .written 0 0 none, .resume 0,
          .written 0 1 none, .resume 0, .resume 0, .data 0 [0, 0, 0, 4], .read 0, .timeout 0,
          .resume 0, .call 1 "" "" (.ok []) {}, .written 0 2 none, .resume 1, .written 0 3 none,
          .resume 1, .resume 1, .data 0 [8, 1, 16, 1, 0, 0, 0, 4, 8, 1, 16, 2], .read 1, .read 1,
          .resume 1] = some last ∧
      (last.calls 1).phase = .settled result ∧
      OwnResult (.knowing lateMessages) (fun _ => .ok) last mirror 1
        { namelessRequest with requestId := 2 } result := by
  obtain ⟨left, hleft, hguard, last, result, hlast, hguard', houtput, hreceived, henvelope, hphase⟩ :
      ∃ left : Client (List UInt8),
        run (step (.knowing lateMessages) fun _ => .ok) (init {})
          [.connect, .connected 0 false, .call 0 "" "" (.ok []) {}, .written 0 0 none, .resume 0,
            .written 0 1 none, .resume 0, .resume 0, .data 0 [0, 0, 0, 4], .read 0, .timeout 0,
            .resume 0] = some left ∧
        Guarded (step (.knowing lateMessages) fun _ => .ok) JoinsInOrder (init {})
          [.connect, .connected 0 false, .call 0 "" "" (.ok []) {}, .written 0 0 none, .resume 0,
            .written 0 1 none, .resume 0, .resume 0, .data 0 [0, 0, 0, 4], .read 0, .timeout 0,
            .resume 0] ∧
        ∃ (last : Client (List UInt8)) (result : Except CallError (List UInt8)),
          run (step (.knowing lateMessages) fun _ => .ok) left
            [.call 1 "" "" (.ok []) {}, .written 0 2 none, .resume 1, .written 0 3 none, .resume 1,
              .resume 1, .data 0 [8, 1, 16, 1, 0, 0, 0, 4, 8, 1, 16, 2], .read 1, .read 1,
              .resume 1] = some last ∧
          Guarded (step (.knowing lateMessages) fun _ => .ok) JoinsInOrder left
            [.call 1 "" "" (.ok []) {}, .written 0 2 none, .resume 1, .written 0 3 none, .resume 1,
              .resume 1, .data 0 [8, 1, 16, 1, 0, 0, 0, 4, 8, 1, 16, 2], .read 1, .read 1,
              .resume 1] ∧
          (last.conns 0).output = frameHeader.stream ((lateMessages.take 2).map Prod.snd) ∧
          (last.conns 0).received = frameHeader.stream ((lateMessages.drop 2).map Prod.snd) ∧
          (last.calls 1).envelope = some { namelessRequest with requestId := 2 } ∧
          (last.calls 1).phase = .settled result := by
    refine ⟨_, run_cons_eq_some.mpr ⟨_, rfl, run_cons_eq_some.mpr ⟨_, rfl, run_cons_eq_some.mpr
      ⟨_, call_eq_some rfl rfl rfl rfl lateMessages_first, rfl⟩⟩⟩, ?_, _, _, run_cons_eq_some.mpr
      ⟨_, call_eq_some rfl rfl rfl rfl lateMessages_second, rfl⟩, ?_, rfl, rfl, rfl, rfl⟩
    · refine .cons rfl trivial (.cons rfl trivial (.cons
        (call_eq_some rfl rfl rfl rfl lateMessages_first) trivial (.cons rfl trivial (.cons rfl ?_
        (.cons rfl trivial (.cons rfl ?_ (.cons rfl ?_ (.cons rfl trivial (.cons rfl trivial
        (.cons rfl trivial (.cons rfl ?_ trivial)))))))))))
      · rintro c id timeoutMs ⟨⟩
      · rintro c id timeoutMs ⟨⟩
      · rintro c id timeoutMs ⟨⟩
        exact ⟨fun recv hmem => (by cases hmem), .inl rfl⟩
      · rintro c id timeoutMs ⟨⟩
    · refine .cons (call_eq_some rfl rfl rfl rfl lateMessages_second) trivial (.cons rfl trivial
        (.cons rfl ?_ (.cons rfl trivial (.cons rfl ?_ (.cons rfl ?_ (.cons rfl trivial
        (.cons rfl trivial (.cons rfl trivial (.cons rfl ?_ trivial)))))))))
      · rintro c id timeoutMs ⟨⟩
      · rintro c id timeoutMs ⟨⟩
      · rintro c id timeoutMs ⟨⟩
        refine ⟨?_, .inr (by decide)⟩
        intro recv hmem
        cases List.mem_singleton.mp hmem
      · rintro c id timeoutMs ⟨⟩
  refine ⟨last, result, (run_append_of_run hleft).trans hlast, hphase, ?_⟩
  have hrun := (run_append_of_run hleft).trans hlast
  have hrequests := @lateMessages_emitted (lateMessages.take 2) (List.take_subset _ _) (by decide)
  have hresponses := @lateMessages_emitted (lateMessages.drop 2) (List.drop_subset _ _) (by decide)
  refine (@calls_get_own_responses _ _ _ _ _ _ last mirror
    (EnvelopeFormat.knowing_inverse (by decide)) (by decide)
    (hguard.append hleft hguard') hrun (fun _ _ => rfl) ⟨[], ?_⟩).1 1 _ result henvelope hphase
  rw [hreceived, houtput, hrequests.envelopes_eq, List.append_nil]
  exact hresponses

/-- The second call begins to receive while the first still waits for its header:
the late response, which comes whole, is torn between the two, and the second
call fails. The connection is open throughout. -/
theorem late_response_misleads_next_call :
    ∃ last : Client (List UInt8),
      run (step (.knowing lateMessages) fun _ => .ok) (init {})
        [.connect, .connected 0 false, .call 0 "" "" (.ok []) {}, .written 0 0 none, .resume 0,
          .written 0 1 none, .resume 0, .resume 0, .timeout 0, .resume 0,
          .call 1 "" "" (.ok []) {}, .written 0 2 none, .resume 1, .written 0 3 none, .resume 1,
          .resume 1, .data 0 [0, 0, 0, 4, 8, 1, 16, 1], .read 1, .resume 1] = some last ∧
      last.PeerAnswers (.knowing lateMessages) mirror ∧ last.codec = some 0 ∧
      (last.conns 0).socket = .live ∧
      (last.calls 1).envelope = some { namelessRequest with requestId := 2 } ∧
      (last.calls 1).phase =
        .settled (.error (.transport (incomingFrameTooLargeError 134287361))) ∧
      ¬ OwnResult (.knowing lateMessages) (fun _ => .ok) last mirror 1
        { namelessRequest with requestId := 2 }
        (.error (.transport (incomingFrameTooLargeError 134287361))) := by
  obtain ⟨left, hleft, last, hlast, houtput, hreceived, hcodec, hlive, henvelope, hphase⟩ :
      ∃ left : Client (List UInt8),
        run (step (.knowing lateMessages) fun _ => .ok) (init {})
          [.connect, .connected 0 false, .call 0 "" "" (.ok []) {}, .written 0 0 none, .resume 0,
            .written 0 1 none, .resume 0, .resume 0, .timeout 0, .resume 0] = some left ∧
        ∃ last : Client (List UInt8),
          run (step (.knowing lateMessages) fun _ => .ok) left
            [.call 1 "" "" (.ok []) {}, .written 0 2 none, .resume 1, .written 0 3 none, .resume 1,
              .resume 1, .data 0 [0, 0, 0, 4, 8, 1, 16, 1], .read 1, .resume 1] = some last ∧
          (last.conns 0).output = frameHeader.stream ((lateMessages.take 2).map Prod.snd) ∧
          (last.conns 0).received = [0, 0, 0, 4, 8, 1, 16, 1] ∧ last.codec = some 0 ∧
          (last.conns 0).socket = .live ∧
          (last.calls 1).envelope = some { namelessRequest with requestId := 2 } ∧
          (last.calls 1).phase =
            .settled (.error (.transport (incomingFrameTooLargeError 134287361))) :=
    ⟨_, run_cons_eq_some.mpr ⟨_, rfl, run_cons_eq_some.mpr ⟨_, rfl, run_cons_eq_some.mpr
      ⟨_, call_eq_some rfl rfl rfl rfl lateMessages_first, rfl⟩⟩⟩, _, run_cons_eq_some.mpr
      ⟨_, call_eq_some rfl rfl rfl rfl lateMessages_second, rfl⟩, rfl, rfl, rfl, rfl, rfl, rfl⟩
  refine ⟨last, (run_append_of_run hleft).trans hlast, ?_, hcodec, hlive, henvelope, hphase, ?_⟩
  · have hrequests := @lateMessages_emitted (lateMessages.take 2) (List.take_subset _ _) (by decide)
    have hresponses := @lateMessages_emitted (lateMessages.drop 2) (List.drop_subset _ _) (by decide)
    refine ⟨[0, 0, 0, 4, 8, 1, 16, 2], ?_⟩
    rw [hreceived, houtput, hrequests.envelopes_eq]
    exact hresponses
  · intro hown
    generalize hresult : (.error (.transport (incomingFrameTooLargeError 134287361)) :
      Except CallError (List UInt8)) = result at hown
    cases hown with
    | timedOut timeoutMs => cases hresult
    | unserializable hserialize => cases hresult
    | oversized bytes hserialize hlarge =>
        cases lateMessages_second.symm.trans hserialize
        exact absurd hlarge (by decide)
    | answered r read hread hcall hrequest => cases hresult

end Client

end Ibridger.Js
