import Ibridger.Js.Link
import Ibridger.Js.TypedMethod

/-! # Remote calls and local calls

A JS client that calls the typed methods of a JS server one by one gets from each
call what the handler comes to on the request.
-/

namespace Ibridger.Js

open LengthPrefix MethodTypes Rpc Transition UnixSocketConnection Wire

/-- The envelope is a request of the call, and fits into a frame as does its response. -/
structure Fits {types : MethodTypes} (handlers : types.Handlers) (format : EnvelopeFormat)
    (calls : Nat → types.Invocation) (i : Nat) (request : Envelope) : Prop where
  requests : (calls i).Requests request
  encodes : handlers.Encodes (calls i)
  sendable : Sendable format request
  reply_sendable : Sendable format (Dispatch.reply handlers.services request)

namespace Link

variable {Value : Type} {services : ServiceTable MethodHandler} {format : EnvelopeFormat}
  {decode : Nat → List UInt8 → Except String Value} {fine : Nat → Envelope → Prop}
  {link : Link Value}

/-- The response number `r` is the one to the request number `r`. -/
theorem Linked.response_eq {frames : List (List UInt8)} {front : List UInt8}
    {requests : List Envelope} {r : Nat} {payload : List UInt8} {request : Envelope}
    (hinverse : format.Inverse) (hlinked : link.Linked services format decode fine)
    (hseq : link.client.Sequenced format decode frames front requests)
    (hframe : frames[r]? = some payload) (hrequest : requests[r]? = some request) :
    format.parse payload = .ok (Dispatch.reply services request) := by
  obtain ⟨taken, behind, hkeeps⟩ := hlinked.answering.keeps
  obtain ⟨⟨-, -, rest, hemitted⟩, -, -⟩ := hkeeps.serves hinverse hlinked.answering.fits
  obtain ⟨more, hmore⟩ := hlinked.inbound
  rw [← hmore, hseq.line.received_eq, List.append_assoc, List.append_assoc] at hemitted
  obtain ⟨response, hresponse, hparse⟩ := hemitted.carries_frame hseq.line.fits hframe
  rw [hlinked.answering.replied.responses_eq, List.getElem?_map] at hresponse
  obtain ⟨other, hother, rfl⟩ := Option.map_eq_some_iff.mp hresponse
  -- both requests have this number among the envelopes that the client has written
  have hanswered : link.session.log.exchanges.map Exchange.request <+:
      format.envelopes (link.client.conns 0).output := by
    refine .trans ?_ (EnvelopeFormat.envelopes_mono hlinked.outbound)
    rw [hkeeps.envelopes_eq, Log.requests, List.append_assoc]
    exact List.prefix_append _ _
  have hwritten := Client.getElem?_of_initial (hseq.requests_prefix hinverse) hrequest
  rw [Client.getElem?_of_initial hanswered hother] at hwritten
  cases hwritten
  exact hparse

/-- A call that has settled has made of the response to its request what it is to
make of it. -/
theorem Linked.result_eq {i : Nat} {result : Except CallError Value} (hinverse : format.Inverse)
    (hsendable : ∀ i request, fine i request → Sendable format request)
    (hlinked : link.Linked services format decode fine)
    (hsettled : (link.client.calls i).phase = .settled result) :
    ∃ request, fine i request ∧
      result = Client.outcome (decode i) (Dispatch.reply services request) := by
  obtain ⟨frames, front, requests, hseq⟩ := hlinked.sequenced
  have hsmooth := hlinked.steady.smooth i
  rw [hsettled] at hsmooth
  obtain ⟨request, henvelope, hrequest⟩ :=
    hlinked.steady.fine i (by rw [hsettled]; exact fun h => (by cases h))
  have hended := hseq.ended i result hsettled
  rw [henvelope] at hended
  refine ⟨request, hrequest, ?_⟩
  cases hended with
  | unserializable _ hserialize =>
      exact absurd (hsendable i request hrequest) (not_sendable_of_none hserialize)
  | oversized _ bytes hserialize hlarge =>
      exact absurd ((hsendable i request hrequest).length_le hserialize) (Nat.not_le_of_lt hlarge)
  | timedOut r _ timeoutMs howner hnumber => exact absurd rfl (hsmooth timeoutMs)
  | answered r _ payload howner hnumber hframe =>
      have hparse := hlinked.response_eq hinverse hseq hframe hnumber
      have hsmall := hseq.small request (List.mem_of_getElem? hnumber)
      rw [Client.received, hparse]
      dsimp only
      rw [Client.respond_of_mirrored (Dispatch.reply_requestId services request) hsmall]

end Link

/-- A JS client on a connection to a JS server, with any chunks in both directions.
As long as every request and its response fit into frames, every call is bound to
settle with what the handler comes to on the request, and in between both ends are
ready for the next call. -/
theorem remote_calls_same_as_local {types : MethodTypes} (htypes : types.Inverse)
    {format : EnvelopeFormat} (hinverse : format.Inverse) (handlers : types.Handlers)
    (calls : Nat → types.Invocation) {config : ClientConfig} {throws : Bool}
    {client : Client (Returned calls)} {events : List LinkEvent} {last : Link (Returned calls)}
    (hconnect : run (Client.step format (decode calls)) (Client.init config)
      [.connect, .connected 0 throws] = some client)
    (hallows : Guarded (Link.step handlers.services format (decode calls))
      (Link.Allows handlers.services (Fits handlers format calls))
      ⟨client, Session.fresh⟩ events)
    (hrun : run (Link.step handlers.services format (decode calls)) ⟨client, Session.fresh⟩
      events = some last) :
    (∀ i result, (last.client.calls i).phase = .settled result → SameAsLocal handlers i result) ∧
      (∀ i, (last.client.calls i).phase ≠ .idle →
        Inevitable (Link.step handlers.services format (decode calls)) (Link.Own handlers.services)
          (fun link => ∃ result, (link.client.calls i).phase = .settled result ∧
            SameAsLocal handlers i result) last) ∧
      ((∀ i, ¬ (last.client.calls i).phase.InFlight) →
        last.Ready handlers.services format (decode calls)) := by
  have hfine : ∀ i request, Fits handlers format calls i request →
      Sendable format request ∧ Sendable format (Dispatch.reply handlers.services request) :=
    fun i request hfits => ⟨hfits.sendable, hfits.reply_sendable⟩
  have hsame : ∀ {link : Link (Returned calls)} {i result},
      link.Linked handlers.services format (decode calls) (Fits handlers format calls) →
      (link.client.calls i).phase = .settled result → SameAsLocal handlers i result := by
    intro link i result hlinked hsettled
    obtain ⟨request, hfits, rfl⟩ :=
      hlinked.result_eq hinverse (fun i request h => (hfine i request h).1) hsettled
    exact (reaches_outcome htypes handlers hfits.requests hfits.encodes).sameAsLocal
  cases hconnect
  have hlinked : last.Linked handlers.services format (decode calls)
      (Fits handlers format calls) :=
    run_invariant_of_guarded (Link.Linked handlers.services format (decode calls) _)
      (fun _ _ _ hlinked hallows hstep => hlinked.step hinverse hfine hallows hstep)
      (Link.onConnection_linked config) hallows hrun
  refine ⟨fun i result => hsame hlinked, ?_, hlinked.ready hinverse⟩
  intro i hmade
  refine (hlinked.settles hinverse hfine hmade).mono ?_
  rintro link ⟨hlinked, result, hsettled⟩
  exact ⟨result, hsettled, hsame hlinked hsettled⟩

/-! ## A call over one connection -/

/-- All messages are bytes. -/
def rawTypes : MethodTypes where
  Req _ _ := List UInt8
  Resp _ _ := List UInt8
  reqType _ _ := { encode := .ok, decode := .ok }
  respType _ _ := { encode := .ok, decode := .ok }

theorem rawTypes_inverse : rawTypes.Inverse :=
  ⟨fun _ _ _ _ hencode => (by cases hencode; rfl), fun _ _ _ _ hencode => (by cases hencode; rfl)⟩

/-- Every method gives back its request behind a zero. -/
def padding : rawTypes.Handlers := fun _ => some fun _ => some fun req => .ok (0 :: req)

def paddedCalls : Nat → rawTypes.Invocation := fun _ => ⟨"", "", [7]⟩

def paddedRequest : Envelope := { namelessRequest with payload := [7] }

/-- The request of the first call and the response to it, as protobuf.js writes them. -/
def paddedMessages : List (Envelope × List UInt8) :=
  [(paddedRequest, [8, 0, 16, 1, 26, 0, 34, 0, 42, 1, 7]),
    ({ Envelope.empty with type := .response, requestId := 1, payload := [0, 7] },
      [8, 1, 16, 1, 42, 2, 0, 7, 48, 0])]

theorem paddedMessages_request :
    (EnvelopeFormat.knowing paddedMessages).serialize paddedRequest =
      some [8, 0, 16, 1, 26, 0, 34, 0, 42, 1, 7] :=
  EnvelopeFormat.knowing_serialize (by decide) (by decide)

theorem paddedRequest_fits :
    Fits padding (.knowing paddedMessages) paddedCalls 0 paddedRequest := by
  refine ⟨⟨rfl, rfl, rfl⟩, fun value _ => ⟨value, rfl⟩, ⟨_, paddedMessages_request, by decide⟩, ?_⟩
  have hserialize : (EnvelopeFormat.knowing paddedMessages).serialize
      (Dispatch.reply padding.services paddedRequest) =
        some [8, 1, 16, 1, 42, 2, 0, 7, 48, 0] :=
    EnvelopeFormat.knowing_serialize (by decide) (List.mem_cons_of_mem _ List.mem_cons_self)
  exact ⟨_, hserialize, by decide⟩

/-- The first call, with its request in two chunks and its response in one. -/
def paddedEvents : List LinkEvent :=
  [.client (.call 0 "" "" (.ok [7]) {}), .client (.written 0 0 none), .client (.resume 0),
    .session (.data [0, 0]), .client (.written 0 1 none), .client (.resume 0), .client (.resume 0),
    .session (.data [0, 11, 8, 0, 16, 1, 26, 0, 34, 0, 42, 1, 7]), .session .resume,
    .session .resume, .session (.handled (.returned [0, 7])), .session (.written 0),
    .session .resume, .session (.written 1), .session .resume,
    .client (.data 0 [0, 0, 0, 10, 8, 1, 16, 1, 42, 2, 0, 7, 48, 0]), .client (.read 0),
    .client (.read 0), .client (.resume 0)]

theorem padded_call_same_as_local :
    ∃ last : Link (Returned paddedCalls),
      run (Link.step padding.services (.knowing paddedMessages) (decode paddedCalls))
        ⟨Client.onConnection {}, Session.fresh⟩ paddedEvents = some last ∧
      (last.client.calls 0).phase = .settled (.ok ⟨0, [0, 7]⟩) ∧
      SameAsLocal padding 0 (.ok ⟨0, [0, 7]⟩ : Except CallError (Returned paddedCalls)) := by
  have hclient := @Client.call_eq_some _ (.knowing paddedMessages) (decode paddedCalls)
    (Client.onConnection {}) 0 0 "" "" [7] _ {} paddedRequest rfl rfl rfl rfl paddedMessages_request
  have hcall := @Link.step_client_some _ padding.services _ _
    ⟨Client.onConnection {}, Session.fresh⟩ (.call 0 "" "" (.ok [7]) {}) _ trivial hclient
  obtain ⟨last, hrun, hallows, hphase⟩ :
      ∃ last : Link (Returned paddedCalls),
        run (Link.step padding.services (.knowing paddedMessages) (decode paddedCalls))
          ⟨Client.onConnection {}, Session.fresh⟩ paddedEvents = some last ∧
        Guarded (Link.step padding.services (.knowing paddedMessages) (decode paddedCalls))
          (Link.Allows padding.services
            (Fits padding (.knowing paddedMessages) paddedCalls))
          ⟨Client.onConnection {}, Session.fresh⟩ paddedEvents ∧
        (last.client.calls 0).phase = .settled (.ok ⟨0, [0, 7]⟩) := by
    refine ⟨_, run_cons_eq_some.mpr ⟨_, hcall, rfl⟩, ?_, rfl⟩
    refine .cons hcall ⟨rfl, [7], rfl, paddedRequest_fits⟩ (.cons rfl rfl (.cons rfl trivial
      (.cons rfl trivial (.cons rfl rfl (.cons rfl trivial (.cons rfl trivial (.cons rfl trivial
      (.cons rfl trivial (.cons rfl trivial (.cons rfl ?_ (.cons rfl trivial (.cons rfl trivial
      (.cons rfl trivial (.cons rfl trivial (.cons rfl trivial (.cons rfl trivial
      (.cons rfl trivial (.cons rfl trivial trivial))))))))))))))))))
    -- the handler does what it does as a function
    rintro request handler ⟨⟩ ⟨⟩
    rfl
  refine ⟨last, hrun, hphase, ?_⟩
  exact (@remote_calls_same_as_local _ rawTypes_inverse _
    (EnvelopeFormat.knowing_inverse (by decide)) padding paddedCalls {} false
    (Client.onConnection {}) _ last rfl hallows hrun).1 0 _ hphase

end Ibridger.Js
