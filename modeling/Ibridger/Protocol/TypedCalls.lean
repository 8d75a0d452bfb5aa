import Ibridger.Cpp.ClientStub
import Ibridger.Js.Addressed
import Ibridger.Js.RemoteCalls
import Ibridger.Js.TypedMethod
import Ibridger.Protocol.Peers

/-! # Typed calls between the two SDKs

A C++ stub or a JS client calls a typed method of a server of either SDK. What reaches
the caller is what the handler comes to on the request.
-/

namespace Ibridger.Protocol

open Rpc Transition Wire

/-- The classes of both SDKs for one message. -/
structure Message (Value : Type) where
  cpp : Cpp.MessageType Value
  js : Js.ProtoType Value

/-- The bytes are read as the message by both classes. -/
def Message.Reads {Value : Type} (message : Message Value) (bytes : List UInt8) (value : Value) :
    Prop :=
  message.cpp.parse bytes = some value ∧ message.js.decode bytes = .ok value

/-- What one of the classes writes both read, if it is not larger than a frame. -/
structure Message.Shared {Value : Type} (message : Message Value) : Prop where
  cpp : ∀ value bytes, message.cpp.serialize value = some bytes →
    bytes.length ≤ MAX_FRAME_SIZE → message.Reads bytes value
  js : ∀ value bytes, message.js.encode value = .ok bytes →
    bytes.length ≤ MAX_FRAME_SIZE → message.Reads bytes value

variable {Req Resp : Type}

/-- The message that a typed handler returns, if it returns one. -/
def value? : Cpp.TypedOutcome Resp → Option Resp
  | .returned resp => some resp
  | .threw _ | .threwUnknown => none

/-- The server has a typed handler for the call that the request names; `handle` is what it
comes to, with `none` where it fails or its message cannot be written. -/
inductive Peer.Provides (reqType : Message Req) (respType : Message Resp)
    (handle : Req → Option Resp) (request : Envelope) : Peer → Prop where
  | cpp {table : ServiceTable Cpp.MethodHandler} (handler : Req → Cpp.TypedOutcome Resp)
      (hresolve : table.resolve request =
        some fun payload => (Cpp.ServiceBase.typed reqType.cpp respType.cpp handler payload).2)
      (hhandle : ∀ req, handle req =
        (value? (handler req)).filter fun resp => (respType.cpp.serialize resp).isSome) :
      Provides reqType respType handle request (.cpp table)
  | js {services : ServiceTable Js.MethodHandler} (handler : Js.TypedHandler Req Resp)
      (hresolve : services.resolve request =
        some (Js.typedMethod reqType.js respType.js handler))
      (hhandle : ∀ req, handle req =
        (handler req).toOption.filter fun resp => (respType.js.encode resp).isOk) :
      Provides reqType respType handle request (.js services)

/-- The response that comes of a typed handler: a value that both SDKs read, or an error. -/
inductive Carries (respType : Message Resp) (response : Envelope) : Option Resp → Prop where
  | returned (resp : Resp) (hstatus : response.status = .ok)
      (hreads : respType.Reads response.payload resp) : Carries respType response (some resp)
  | failed (hstatus : response.status = .internal) : Carries respType response none

namespace Peer

variable {reqType : Message Req} {respType : Message Resp} {handle : Req → Option Resp}
  {request : Envelope} {peer : Peer}

/-- A response of the server carries what the handler comes to on the request. -/
theorem Provides.carries (hresp : respType.Shared)
    (hprovides : peer.Provides reqType respType handle request) {req : Req}
    (hreads : reqType.Reads request.payload req)
    (hfits : (peer.reply request).payload.length ≤ MAX_FRAME_SIZE) :
    Carries respType (peer.reply request) (handle req) := by
  revert hfits
  cases hprovides with
  | cpp handler hresolve hhandle =>
      change (Cpp.Dispatcher.reply _ request).payload.length ≤ MAX_FRAME_SIZE →
        Carries respType (Cpp.Dispatcher.reply _ request) _
      rw [Cpp.Dispatcher.reply_of_resolve hresolve, Cpp.ServiceBase.typed, Cpp.typedHandler,
        hreads.1, hhandle]
      dsimp only
      cases handler req with
      | returned resp =>
          dsimp only [value?]
          cases hserialize : respType.cpp.serialize resp with
          | none =>
              rw [Option.filter_some, if_neg (by simp [hserialize])]
              exact fun _ => .failed rfl
          | some bytes =>
              rw [Option.filter_some, if_pos (by simp [hserialize])]
              exact fun hfits => .returned resp rfl (hresp.cpp resp bytes hserialize hfits)
      | threw what => exact fun _ => .failed rfl
      | threwUnknown => exact fun _ => .failed rfl
  | js handler hresolve hhandle =>
      change (Js.Dispatch.reply _ request).payload.length ≤ MAX_FRAME_SIZE →
        Carries respType (Js.Dispatch.reply _ request) _
      rw [Js.Dispatch.reply_of_resolve hresolve, Js.typedMethod, hreads.2, hhandle]
      dsimp only
      cases handler req with
      | ok resp =>
          dsimp only [Except.toOption]
          cases hencode : respType.js.encode resp with
          | error message =>
              rw [Option.filter_some, if_neg (by simp [hencode, Except.isOk, Except.toBool])]
              exact fun _ => .failed rfl
          | ok bytes =>
              rw [Option.filter_some, if_pos (by simp [hencode, Except.isOk, Except.toBool])]
              exact fun hfits => .returned resp rfl (hresp.js resp bytes hencode hfits)
      | error message => exact fun _ => .failed rfl

/-- A request that names no method is answered with `NOT_FOUND`. -/
theorem reply_notFound (hresolve : ¬ peer.Resolves request) :
    (peer.reply request).status = .notFound := by
  cases peer with
  | cpp table =>
      change (Cpp.Dispatcher.reply table request).status = _
      rw [Cpp.Dispatcher.reply]
      cases hlocate : Cpp.Dispatcher.locate table request with
      | ok handler =>
          exact absurd (by rw [Resolves, Cpp.Dispatcher.resolve_of_locate_ok hlocate]; rfl) hresolve
      | error response =>
          obtain ⟨hnone, hanswers⟩ := Cpp.Dispatcher.of_locate_error hlocate
          exact (hanswers.notFound_iff.mpr hnone).2
  | js services =>
      change (Js.Dispatch.reply services request).status = _
      rw [Js.Dispatch.reply]
      cases hlocate : Js.Dispatch.locate services request with
      | ok handler =>
          exact absurd (by rw [Resolves, Js.Dispatch.resolve_of_locate_ok hlocate]; rfl) hresolve
      | error response =>
          obtain ⟨hnone, hanswers⟩ := Js.Dispatch.of_locate_error hlocate
          exact (hanswers.notFound_iff.mpr hnone).2

end Peer

/-! ## A C++ stub -/

section

variable {reqType : Message Req} {respType : Message Resp} {handle : Req → Option Resp}

/-- What the stub returns where the handler came to `result`. -/
def stubResult (result : Option Resp) : Except Cpp.StubError Resp :=
  match result with
  | some resp => .ok resp
  | none => .error (.errc .ioError)

theorem call_of_carries {req : Req} {payload : List UInt8}
    (hserialize : reqType.cpp.serialize req = some payload) {response : Envelope}
    {result : Option Resp} (hcarries : Carries respType response result) :
    Cpp.ClientStub.call reqType.cpp respType.cpp (fun _ => .ok response) req = stubResult result := by
  rw [Cpp.ClientStub.call_of_response _ hserialize]
  cases hcarries with
  | returned resp hstatus hreads =>
      rw [if_neg (not_not.mpr hstatus), hreads.1]
      rfl
  | failed hstatus =>
      rw [hstatus, if_pos (by decide)]
      rfl

/-- What has come to the client of each server is a beginning of its responses. -/
theorem honest_of_hosts {format : EnvelopeFormat} (hinverse : format.Inverse) {peers : Nat → Peer}
    {formats : Nat → EnvelopeFormat}
    (hformats : ∀ c, format.Understands (formats c) ∧ (formats c).Understands format)
    {client : Cpp.Client} (hstreams : Cpp.Client.Streams format client)
    (hhosts : ∀ c, (peers c).Hosts (formats c) (client.links c).conn.wire
      (client.links c).arrived) :
    Cpp.Client.Honest format (fun c _ => (peers c).reply) client := by
  intro c
  obtain ⟨hreads, hread⟩ := hformats c
  obtain ⟨rest, hemitted⟩ := (hhosts c).emitted hinverse hreads hread (hstreams.writes c)
  refine ⟨rest, ?_⟩
  have hmap : (format.envelopes (client.links c).conn.wire).mapIdx (fun _ => (peers c).reply) =
      (format.envelopes (client.links c).conn.wire).map (peers c).reply := by
    apply List.ext_getElem (by simp)
    simp
  rwa [hmap]

/-- A client correlates its calls with the servers on its connections. -/
theorem correlated_of_hosts {config : Cpp.ClientConfig} {format : EnvelopeFormat}
    (hinverse : format.Inverse) {peers : Nat → Peer} {formats : Nat → EnvelopeFormat}
    (hformats : ∀ c, format.Understands (formats c) ∧ (formats c).Understands format)
    {events : List Cpp.ClientEvent}
    (hprogress : ∀ event ∈ events, Cpp.Progressing event.traffic.sends)
    (hhosts : Throughout (Cpp.Client.step format) (fun client => ∀ c,
      (peers c).Hosts (formats c) (client.links c).conn.wire (client.links c).arrived)
      (Cpp.Client.init config) events) {client : Cpp.Client}
    (hrun : run (Cpp.Client.step format) (Cpp.Client.init config) events = some client) :
    Cpp.Client.Correlated format (fun c _ => (peers c).reply) client := by
  refine (run_invariant_of_along (fun client => Cpp.Client.AtMostOnce format client ∧
    Cpp.Client.Streams format client ∧
    Cpp.Client.Correlated format (fun c _ => (peers c).reply) client) ?_
    ⟨Cpp.Client.atMostOnce_init config, Cpp.Client.streams_init config,
      Cpp.Client.correlated_init config⟩
    ((guarded_of_forall_mem hprogress).and hhosts.2) hrun).2.2
  rintro client event next ⟨honce, hstreams, hcorrelated⟩ ⟨hevent, hnext⟩ hstep
  have hstreams' := hstreams.step honce hevent hstep
  exact ⟨honce.step hstep, hstreams',
    hcorrelated.step honce hinverse (fun c _ request => (peers c).reply_requestId request)
      hstreams hevent (honest_of_hosts hinverse hformats hstreams' hnext) hstep⟩

/-- A C++ client with a server of either SDK on each of its connections, in any run with
reconnections and broken connections. A call never finds the response to another one. A
typed call that gets a response returns what the handler of its method comes to on its
request, `io_error` where that fails or its message cannot be written, and
`no_such_file_or_directory` where there is none. -/
theorem stub_calls_same_as_local (config : Cpp.ClientConfig) {format : EnvelopeFormat}
    (hinverse : format.Inverse) {peers : Nat → Peer} {formats : Nat → EnvelopeFormat}
    (hformats : ∀ c, format.Understands (formats c) ∧ (formats c).Understands format)
    {events : List Cpp.ClientEvent}
    (hprogress : ∀ event ∈ events, Cpp.Progressing event.traffic.sends)
    (hhosts : Throughout (Cpp.Client.step format) (fun client => ∀ c,
      (peers c).Hosts (formats c) (client.links c).conn.wire (client.links c).arrived)
      (Cpp.Client.init config) events) {client : Cpp.Client}
    (hrun : run (Cpp.Client.step format) (Cpp.Client.init config) events = some client) :
    (∀ i, (client.calls i).phase ≠ .returned (.error (.ibridger .protocolError))) ∧
      ∀ i response, (client.calls i).phase = .returned (.ok response) → ∃ c request,
        request = Cpp.Client.requestOf (client.calls i) request.requestId ∧
        response = (peers c).reply request ∧
        ∀ {Req Resp : Type} {reqType : Message Req} {respType : Message Resp}
          {handle : Req → Option Resp} {req : Req}, reqType.Shared → respType.Shared →
          reqType.cpp.serialize req = some (client.calls i).payload →
          ((client.calls i).payload.length ≤ MAX_FRAME_SIZE →
            response.payload.length ≤ MAX_FRAME_SIZE →
            (peers c).Provides reqType respType handle request →
              Cpp.ClientStub.call reqType.cpp respType.cpp (fun _ => .ok response) req =
                stubResult (handle req)) ∧
          (¬ (peers c).Resolves request →
            Cpp.ClientStub.call reqType.cpp respType.cpp (fun _ => .ok response) req =
              .error (.errc .noSuchFileOrDirectory)) := by
  have hcorrelated := correlated_of_hosts hinverse hformats hprogress hhosts hrun
  refine ⟨?_, ?_⟩
  · intro i hphase
    apply hcorrelated.mismatch i
    rw [hphase]
    rfl
  intro i response hreturned
  obtain ⟨c, k, write, -, -, hrequest, rfl⟩ := hcorrelated.own i response hreturned
  have haddressed := Cpp.Client.addressed_of_run hrun i write.request hrequest
  refine ⟨c, write.request, haddressed, rfl, ?_⟩
  intro Req Resp reqType respType handle req hreq hresp hserialize
  have hcarried : write.request.payload = (client.calls i).payload := by
    rw [haddressed]
    rfl
  constructor
  · intro hrequested hresponded hprovides
    refine call_of_carries hserialize (hprovides.carries hresp ?_ hresponded)
    rw [hcarried]
    exact hreq.cpp req _ hserialize hrequested
  · intro hresolve
    rw [Cpp.ClientStub.call_of_response _ hserialize, Peer.reply_notFound hresolve]
    exact if_pos (by decide)

end

/-! ## A JS client -/

section

open Js

variable {Value Resp : Type}

/-- What a call of a JS client settles with where the handler came to `result`. -/
inductive Settles (wrap : Resp → Value) : Option Resp → Except CallError Value → Prop where
  | returned (resp : Resp) : Settles wrap (some resp) (.ok (wrap resp))
  | failed (message : String) : Settles wrap none (.error (.rpc .internal message))

theorem settles_of_carries {respType : Message Resp} {wrap : Resp → Value} {response : Envelope}
    {result : Option Resp} {parse : List UInt8 → Except String Value}
    (hparse : ∀ payload, parse payload = (respType.js.decode payload).map wrap)
    (hcarries : Carries respType response result) :
    Settles wrap result (Client.outcome parse response) := by
  rw [Client.outcome]
  cases hcarries with
  | returned resp hstatus hreads =>
      rw [if_neg (not_not.mpr hstatus), hparse, hreads.2]
      exact .returned resp
  | failed hstatus =>
      rw [hstatus, if_pos (by decide)]
      exact .failed _

/-- A JS client with a server of either SDK, in any run on one connection in which the
calls join in order. A call that has taken an id and settles is out of time, or its request
could not be serialized or was too large, or it has come to what the handler of its method
comes to on the request, to `INTERNAL` where that fails or its message cannot be written, and
to `NOT_FOUND` where there is none. -/
theorem js_calls_same_as_local {config : ClientConfig} {throws : Bool}
    {format serverFormat : EnvelopeFormat} (hinverse : format.Inverse)
    (hreads : format.Understands serverFormat) (hread : serverFormat.Understands format)
    {decode : Nat → List UInt8 → Except String Value} {peer : Peer} {events : List ClientEvent}
    (hundisturbed : ∀ event ∈ events, event.Undisturbed)
    (hjoins : Guarded (Client.step format decode) Client.JoinsInOrder (Client.init config)
      (.connect :: .connected 0 throws :: events)) {last : Client Value}
    (hrun : run (Client.step format decode) (Client.init config)
      (.connect :: .connected 0 throws :: events) = some last)
    (hhosts : peer.Hosts serverFormat (last.conns 0).output (last.conns 0).received)
    {i : Nat} {request : Envelope} {result : Except CallError Value}
    (henvelope : (last.calls i).envelope = some request)
    (hsettled : (last.calls i).phase = .settled result) :
    (∃ id payload, (last.calls i).encoded = .ok payload ∧
      request = Client.requestEnvelope (last.calls i) id payload) ∧
    ((∃ timeoutMs, result = .error (timedOut timeoutMs)) ∨
      (format.serialize request = none ∧ result = .error .unserializable) ∨
      (∃ bytes, format.serialize request = some bytes ∧ MAX_FRAME_SIZE < bytes.length ∧
        result = .error (.transport (frameTooLargeError bytes.length))) ∨
      ∀ {Req Resp : Type} {reqType : Message Req} {respType : Message Resp}
        {handle : Req → Option Resp} {req : Req} {wrap : Resp → Value},
        reqType.Shared → respType.Shared → reqType.js.encode req = (last.calls i).encoded →
        (∀ payload, decode i payload = (respType.js.decode payload).map wrap) →
        (request.payload.length ≤ MAX_FRAME_SIZE →
          (peer.reply request).payload.length ≤ MAX_FRAME_SIZE →
          peer.Provides reqType respType handle request → Settles wrap (handle req) result) ∧
        (¬ peer.Resolves request → ∃ message, result = .error (.rpc .notFound message))) := by
  obtain ⟨sent, hsent⟩ := hhosts.wrote
  obtain ⟨-, hconnected⟩ := hjoins _ rfl
  obtain ⟨-, hevents⟩ := hconnected _ rfl
  obtain ⟨frames, front, requests, hseq⟩ :=
    Client.sequenced_of_run hundisturbed hevents hrun hsent.not_oversized
  obtain ⟨behind, all, hwrote⟩ := hseq.wrote
  obtain ⟨written, hwritten⟩ := hwrote.writes
  obtain ⟨rest, hreplies⟩ := hhosts.emitted hinverse hreads hread hwritten
  obtain ⟨id, payload, hencoded, hrequest⟩ := Client.addressed_of_run hrun i request henvelope
  refine ⟨⟨id, payload, hencoded, hrequest⟩, ?_⟩
  cases hseq.comes hinverse peer.reply_requestId hreplies henvelope hsettled with
  | timedOut timeoutMs => exact .inl ⟨timeoutMs, rfl⟩
  | unserializable hserialize => exact .inr (.inl ⟨hserialize, rfl⟩)
  | oversized bytes hserialize hlarge => exact .inr (.inr (.inl ⟨bytes, hserialize, hlarge, rfl⟩))
  | answered =>
      refine .inr (.inr (.inr ?_))
      intro Req Resp reqType respType handle req wrap hreq hresp hencode hparse
      constructor
      · intro hrequested hresponded hprovides
        refine settles_of_carries hparse (hprovides.carries hresp ?_ hresponded)
        rw [hrequest] at hrequested ⊢
        exact hreq.js req payload (hencode.trans hencoded) hrequested
      · intro hresolve
        rw [Client.outcome, Peer.reply_notFound hresolve, if_pos (by decide)]
        exact ⟨_, rfl⟩

end

/-! ### A stub and a JS server -/

/-- A call on a connection at rest, with its response at once, adds the two frames to the
streams of the connection. -/
theorem step_responded {format : EnvelopeFormat} {client : Cpp.Client} {i c : Nat}
    {service method : String} {argument bytes payload : List UInt8} {request response : Envelope}
    (hcodec : client.codec = some c) (hidle : (client.calls i).phase = .idle)
    (hrests : Cpp.Client.Rests (client.links c))
    (hrequest : request =
      Cpp.Client.requestOf { client.calls i with service, method, payload := argument }
        client.nextRequestId)
    (hserialize : format.serialize request = some bytes) (hbytes : bytes.length ≤ MAX_FRAME_SIZE)
    (hresponse : format.parse payload = .ok response) (hpayload : payload.length ≤ MAX_FRAME_SIZE)
    (hid : response.requestId = request.requestId) :
    ∃ next, client.step format
        (.call i service method argument (Cpp.Client.answering bytes payload)) = some next ∧
      (next.calls i).phase = .returned (.ok response) ∧ (next.calls i).payload = argument ∧
      ∀ d, (next.links d).conn.wire =
          (client.links d).conn.wire ++ (if d = c then frameHeader.frame bytes else []) ∧
        (next.links d).arrived =
          (client.links d).arrived ++ (if d = c then frameHeader.frame payload else []) := by
  have hprepared := @Cpp.Client.prepared_began client i c service method argument
    (Cpp.Client.answering bytes payload) hcodec hidle
  have hsame : Cpp.Client.requestOf ((client.named i service method argument).calls i)
      client.nextRequestId = request := by
    rw [hrequest, Cpp.Client.named, Cpp.Client.setCall_calls, if_pos rfl]
  rw [hsame] at hprepared
  generalize hmiddle : (client.named i service method argument).begun i c
    (Cpp.Client.answering bytes payload) = middle at hprepared
  obtain ⟨left, unread, hleft, hunread, hsend, hrecv⟩ := Cpp.Client.offer_answering
    (congrArg Cpp.Link.conn (hprepared.links_eq c).symm) hrests hserialize hbytes hresponse hpayload
  have hexchanged := @Cpp.Client.Exchanged.answered format middle i c request .send _ _ _ hsend hrecv
  have hstep := Cpp.Client.step_began hcodec hidle (by rw [hsame, hmiddle]; exact hexchanged)
  generalize hnext : ((middle.wrote i c request none _).reached i c _).setPhase i _ = next
    at hexchanged hstep
  obtain ⟨error, conn, hexchanging⟩ := hexchanged.exchanging
  cases hexchanging.send_eq.symm.trans hsend
  obtain ⟨hphase, -, -⟩ := hexchanging.received hrecv
  refine ⟨next, hstep, ?_, ?_, ?_⟩
  · rw [hphase, Cpp.Client.accept, if_pos hid]
  · simp only [Cpp.Client.step, hidle] at hstep
    refine (Cpp.Client.enter_continues hstep i).payload_eq.trans ?_
    rw [Cpp.Client.setCall_calls, if_pos rfl]
  · intro d
    obtain ⟨hwire, -, harrived, -⟩ := hexchanging.links_eq d
    obtain ⟨hbefore, -, -, hcome⟩ := client.offer_links c d (Cpp.Client.answering bytes payload)
    rw [← hprepared.links_eq] at hbefore hcome
    have hread : Cpp.bytesOf (Cpp.Client.answering bytes payload).reads = frameHeader.frame payload :=
      List.append_nil _
    rw [hwire, harrived, hcome, hread]
    refine ⟨?_, rfl⟩
    by_cases hd : d = c
    · subst hd
      rw [if_pos rfl, if_pos rfl, hbefore]
    · rw [if_neg hd, if_neg hd, hbefore, List.append_nil]

/-- A message that is its bytes. -/
def rawMessage : Message (List UInt8) where
  cpp := { serialize := some, parse := some }
  js := { encode := .ok, decode := .ok }

theorem rawMessage_shared : rawMessage.Shared :=
  ⟨fun _ _ hserialize _ => (by cases hserialize; exact ⟨rfl, rfl⟩),
    fun _ _ hencode _ => (by cases hencode; exact ⟨rfl, rfl⟩)⟩

/-- A JS server whose methods give back their requests. -/
def echoServices : ServiceTable Js.MethodHandler :=
  fun _ => some fun _ => some (Js.typedMethod rawMessage.js rawMessage.js .ok)

theorem echoServices_runs :
    (Peer.js echoServices).Runs Cpp.Client.counterFormat [] [] ∧
      (Peer.js echoServices).Runs Cpp.Client.counterFormat [0, 0, 0, 2, 16, 1]
        [0, 0, 0, 4, 8, 1, 16, 1] := by
  constructor
  · exact @Peer.Runs.js _ _ [] Js.Session.fresh trivial rfl
  · obtain ⟨session, hrun, hguarded, hreceived, houtput⟩ :
      ∃ session, run (Js.Session.step echoServices Cpp.Client.counterFormat) Js.Session.fresh
          [.data [0, 0, 0, 2, 16, 1], .resume, .resume, .handled (.returned []), .written 0,
            .resume, .written 1] = some session ∧
        Guarded (Js.Session.step echoServices Cpp.Client.counterFormat)
          (Js.Session.HandledBy echoServices) Js.Session.fresh
          [.data [0, 0, 0, 2, 16, 1], .resume, .resume, .handled (.returned []), .written 0,
            .resume, .written 1] ∧ session.conn.received = [0, 0, 0, 2, 16, 1] ∧
        session.conn.output = [0, 0, 0, 4, 8, 1, 16, 1] := by
      refine ⟨_, rfl, .cons rfl trivial (.cons rfl trivial (.cons rfl trivial (.cons rfl ?_
        (.cons rfl trivial (.cons rfl trivial (.cons rfl trivial trivial)))))), rfl, rfl⟩
      rintro request handler ⟨⟩ ⟨⟩
      rfl
    rw [← hreceived, ← houtput]
    exact .js hguarded hrun

/-- A C++ stub calls a JS server. -/
theorem nameless_stub_call :
    ∃ client response, run (Cpp.Client.step Cpp.Client.counterFormat) (Cpp.Client.init {})
        [.connect .connected, .call 0 "" "" [] (Cpp.Client.answering [16, 1] [8, 1, 16, 1])] =
          some client ∧
      (client.calls 0).phase = .returned (.ok response) ∧
      Cpp.ClientStub.call rawMessage.cpp rawMessage.cpp (fun _ => .ok response) [] = .ok [] := by
  obtain ⟨connected, hconnect, hcodec, hidle, hid, hlinks⟩ :
      ∃ connected, (Cpp.Client.init {}).step Cpp.Client.counterFormat (.connect .connected) =
          some connected ∧
        connected.codec = some 0 ∧ (connected.calls 0).phase = .idle ∧
        connected.nextRequestId = 1 ∧ connected.links = (Cpp.Client.init {}).links :=
    ⟨_, rfl, rfl, rfl, rfl, rfl⟩
  obtain ⟨client, hstep, hphase, hpayload, hstreams⟩ :=
    @step_responded Cpp.Client.counterFormat connected 0 0 "" "" [] [16, 1] [8, 1, 16, 1]
      namelessRequest (Cpp.Client.acknowledge 0 0 namelessRequest) hcodec hidle
      (by rw [hlinks]; exact Cpp.Client.rests_init _ 0) (by rw [hid]; rfl) rfl (by decide) rfl
      (by decide) rfl
  have hrun : run (Cpp.Client.step Cpp.Client.counterFormat) (Cpp.Client.init {})
      [.connect .connected, .call 0 "" "" [] (Cpp.Client.answering [16, 1] [8, 1, 16, 1])] =
        some client := by
    rw [run_cons, hconnect, Option.bind_some, run_cons, hstep]
    rfl
  have hquiet : (Peer.js echoServices).Hosts Cpp.Client.counterFormat [] [] :=
    ⟨⟨[], [], echoServices_runs.1, List.prefix_rfl, List.prefix_rfl⟩, fun request hrequest => by
      rw [EnvelopeFormat.envelopes_of_stuck rfl] at hrequest
      cases hrequest⟩
  have hserved : (Peer.js echoServices).Hosts Cpp.Client.counterFormat [0, 0, 0, 2, 16, 1]
      [0, 0, 0, 4, 8, 1, 16, 1] := by
    refine ⟨⟨_, _, echoServices_runs.2, List.prefix_rfl, List.prefix_rfl⟩, ?_⟩
    intro request hrequest
    have henvelopes : Cpp.Client.counterFormat.envelopes [0, 0, 0, 2, 16, 1] =
        [namelessRequest] := by
      have hscan : frameHeader.scan [0, 0, 0, 2, 16, 1] = .frame [16, 1] [] := rfl
      have hparse : Cpp.Client.counterFormat.parse [16, 1] = .ok namelessRequest := rfl
      rw [EnvelopeFormat.envelopes_of_frame hscan hparse, EnvelopeFormat.envelopes_of_stuck rfl]
    rw [henvelopes] at hrequest
    cases List.mem_singleton.mp hrequest
    exact ⟨[8, 1, 16, 1], rfl, by decide⟩
  have hhosts : ∀ c, (Peer.js echoServices).Hosts Cpp.Client.counterFormat
      (client.links c).conn.wire (client.links c).arrived := by
    intro c
    obtain ⟨hwire, harrived⟩ := hstreams c
    rw [hwire, harrived, hlinks]
    by_cases hc : c = 0
    · rw [if_pos hc, if_pos hc]
      exact hserved
    · rw [if_neg hc, if_neg hc]
      exact hquiet
  obtain ⟨-, hcalls⟩ := @stub_calls_same_as_local {} Cpp.Client.counterFormat
    Cpp.Client.counterFormat_inverse (fun _ => .js echoServices) (fun _ => Cpp.Client.counterFormat)
    (fun _ => ⟨Cpp.Client.counterFormat_inverse.understands,
      Cpp.Client.counterFormat_inverse.understands⟩)
    [.connect .connected, .call 0 "" "" [] (Cpp.Client.answering [16, 1] [8, 1, 16, 1])] (by decide)
    ⟨fun _ => hquiet, .cons hconnect (fun c => by rw [hlinks]; exact hquiet)
      (.cons hstep hhosts trivial)⟩ client hrun
  obtain ⟨c, request, hrequest, -, htyped⟩ := hcalls 0 _ hphase
  refine ⟨client, _, hrun, hphase, (@htyped _ _ rawMessage rawMessage some [] rawMessage_shared
    rawMessage_shared (congrArg some hpayload.symm)).1 ?_ (by decide) ?_⟩
  · rw [hpayload]
    decide
  · exact .js .ok rfl fun _ => rfl

/-! ### A JS client and a C++ server -/

/-- A C++ session that is sent one request and answers it. -/
theorem runs_answered {format : EnvelopeFormat} {table : ServiceTable Cpp.MethodHandler}
    {request : Envelope} {handler : Cpp.MethodHandler} {bytes payload : List UInt8}
    (hparse : format.parse bytes = .ok request) (hbytes : bytes.length ≤ MAX_FRAME_SIZE)
    (hlocate : Cpp.Dispatcher.locate table request = .ok handler)
    (hserialize : format.serialize (Cpp.Dispatcher.reply table request) = some payload)
    (hpayload : payload.length ≤ MAX_FRAME_SIZE) :
    (Peer.cpp table).Runs format (frameHeader.frame bytes) (frameHeader.frame payload) := by
  have hscan : frameHeader.scan (frameHeader.frame bytes) = .frame bytes [] := by
    have hfront := frameHeader.scan_frame_append hbytes []
    rwa [List.append_nil] at hfront
  obtain ⟨left, hrecv, -⟩ := @Cpp.EnvelopeCodec.recv_of_frame format
    { (Cpp.Session.fresh : Cpp.Session Cpp.MethodHandler).conn with
      reads := (Cpp.Client.answering payload bytes).reads } [] _ bytes [] _
    (Cpp.Client.delivers_answering payload bytes) hscan hparse
  have hreply : Cpp.Dispatcher.respond request (handler request.payload) =
      Cpp.Dispatcher.reply table request := by
    rw [Cpp.Dispatcher.reply, hlocate]
  obtain ⟨unsent, hsend, -⟩ := @Cpp.EnvelopeCodec.send_accepting format
    { (Cpp.Session.fresh : Cpp.Session Cpp.MethodHandler).conn with
      reads := left
      sends := (Cpp.Client.answering payload bytes).sends } _ payload hserialize hpayload
    (Cpp.Client.accepting_answering payload bytes)
    (by simp [Cpp.acceptances, Cpp.Client.answering, List.countP_replicate])
  obtain ⟨called, hcalled, hphase, hconn, harrived⟩ : ∃ called,
      (Cpp.Session.fresh : Cpp.Session Cpp.MethodHandler).step table format
        (.recv (Cpp.Client.answering payload bytes).reads) = some called ∧
      called.phase = .handling request ∧
      called.conn = { (Cpp.Session.fresh : Cpp.Session Cpp.MethodHandler).conn with
        reads := left } ∧ called.arrived = frameHeader.frame bytes := by
    have hfresh : (Cpp.Session.fresh : Cpp.Session Cpp.MethodHandler).phase = .receiving := rfl
    rw [Cpp.Session.step, if_pos hfresh]
    refine ⟨_, congrArg (Option.map _) hrecv, ?_⟩
    rw [Cpp.Session.received, Cpp.Session.dispatch, hlocate]
    exact ⟨rfl, rfl, List.append_nil _⟩
  obtain ⟨handled, hhandled, hphase', hconn', harrived'⟩ : ∃ handled,
      called.step table format (.handled (handler request.payload)) = some handled ∧
      handled.phase = .sending (Cpp.Dispatcher.reply table request) ∧
      handled.conn = called.conn ∧ handled.arrived = called.arrived := by
    refine ⟨_, by rw [Cpp.Session.step, hphase], ?_⟩
    rw [hreply]
    exact ⟨rfl, rfl, rfl⟩
  obtain ⟨sent, hsent, hwire, harrived''⟩ : ∃ sent,
      handled.step table format (.send (Cpp.Client.answering payload bytes).sends) = some sent ∧
      sent.conn.wire = frameHeader.frame payload ∧ sent.arrived = handled.arrived := by
    rw [Cpp.Session.step, hphase', hconn', hconn]
    exact ⟨_, congrArg (Option.map _) hsend, rfl, rfl⟩
  have hrun : run (Cpp.Session.step table format) Cpp.Session.fresh
      [.recv (Cpp.Client.answering payload bytes).reads, .handled (handler request.payload),
        .send (Cpp.Client.answering payload bytes).sends] = some sent := by
    rw [run_cons, hcalled, Option.bind_some, run_cons, hhandled, Option.bind_some, run_cons, hsent]
    rfl
  rw [← hwire, ← harrived, ← harrived', ← harrived'']
  refine .cpp ?_ ?_ hrun
  · simp only [List.mem_cons, List.not_mem_nil, or_false, forall_eq_or_imp, forall_eq]
    refine ⟨?_, trivial, Cpp.Client.accepting_answering payload bytes⟩
    intro read hread
    cases List.mem_singleton.mp hread
    refine .inr ⟨_, List.ne_nil_of_length_pos ?_, rfl⟩
    rw [LengthPrefix.Header.length_frame, frameHeader_width]
    omega
  · refine .cons hcalled trivial (.cons hhandled ?_ (.cons hsent trivial trivial))
    intro request' handler' hhandling hfound
    rw [hphase] at hhandling
    cases hhandling
    cases hlocate.symm.trans hfound
    rfl

/-- A C++ server whose methods give back their requests behind a zero. -/
def paddingTable : ServiceTable Cpp.MethodHandler :=
  fun _ => some fun _ => some fun payload =>
    (Cpp.ServiceBase.typed rawMessage.cpp rawMessage.cpp (fun req => .returned (0 :: req))
      payload).2

open Js in
/-- A JS client calls a C++ server. -/
theorem padded_js_call :
    ∃ last : Client (List UInt8),
      run (Client.step (.knowing paddedMessages) fun _ => .ok) (Client.init {})
        [.connect, .connected 0 false, .call 0 "" "" (.ok [7]) {}, .written 0 0 none, .resume 0,
          .written 0 1 none, .resume 0, .resume 0,
          .data 0 [0, 0, 0, 10, 8, 1, 16, 1, 42, 2, 0, 7, 48, 0], .read 0, .read 0, .resume 0] =
        some last ∧
      (last.calls 0).phase = .settled (.ok [0, 7]) ∧
      Settles id (some [0, 7]) (.ok [0, 7] : Except CallError (List UInt8)) := by
  have hcall := @Client.call_eq_some _ (.knowing paddedMessages) (fun _ => .ok)
    (Client.onConnection {}) 0 0 "" "" [7] _ {} paddedRequest rfl rfl rfl rfl paddedMessages_request
  obtain ⟨last, hrun, hjoins, houtput, hreceived, henvelope, hencoded, hphase⟩ :
      ∃ last : Client (List UInt8),
        run (Client.step (.knowing paddedMessages) fun _ => .ok) (Client.init {})
          [.connect, .connected 0 false, .call 0 "" "" (.ok [7]) {}, .written 0 0 none, .resume 0,
            .written 0 1 none, .resume 0, .resume 0,
            .data 0 [0, 0, 0, 10, 8, 1, 16, 1, 42, 2, 0, 7, 48, 0], .read 0, .read 0, .resume 0] =
          some last ∧
        Guarded (Client.step (.knowing paddedMessages) fun _ => .ok) Client.JoinsInOrder
          (Client.init {})
          [.connect, .connected 0 false, .call 0 "" "" (.ok [7]) {}, .written 0 0 none, .resume 0,
            .written 0 1 none, .resume 0, .resume 0,
            .data 0 [0, 0, 0, 10, 8, 1, 16, 1, 42, 2, 0, 7, 48, 0], .read 0, .read 0, .resume 0] ∧
        (last.conns 0).output =
          frameHeader.frame [8, 0, 16, 1, 26, 0, 34, 0, 42, 1, 7] ∧
        (last.conns 0).received = frameHeader.frame [8, 1, 16, 1, 42, 2, 0, 7, 48, 0] ∧
        (last.calls 0).envelope = some paddedRequest ∧ (last.calls 0).encoded = .ok [7] ∧
        (last.calls 0).phase = .settled (.ok [0, 7]) := by
    refine ⟨_, run_cons_eq_some.mpr ⟨_, rfl, run_cons_eq_some.mpr ⟨_, rfl, run_cons_eq_some.mpr
      ⟨_, hcall, rfl⟩⟩⟩, ?_, rfl, rfl, rfl, rfl, rfl⟩
    refine .cons rfl trivial (.cons rfl trivial (.cons hcall trivial (.cons rfl trivial
      (.cons rfl ?_ (.cons rfl trivial (.cons rfl ?_ (.cons rfl ?_ (.cons rfl trivial
      (.cons rfl trivial (.cons rfl trivial (.cons rfl ?_ trivial)))))))))))
    · rintro c id timeoutMs ⟨⟩
    · rintro c id timeoutMs ⟨⟩
    · rintro c id timeoutMs ⟨⟩
      exact ⟨fun recv hmem => (by cases hmem), .inl rfl⟩
    · rintro c id timeoutMs ⟨⟩
  have hinverse : (EnvelopeFormat.knowing paddedMessages).Inverse :=
    EnvelopeFormat.knowing_inverse (by decide)
  have hparse : (EnvelopeFormat.knowing paddedMessages).parse
      [8, 0, 16, 1, 26, 0, 34, 0, 42, 1, 7] = .ok paddedRequest :=
    EnvelopeFormat.knowing_parse (by decide) List.mem_cons_self
  have hserialize : (EnvelopeFormat.knowing paddedMessages).serialize
      (Cpp.Dispatcher.reply paddingTable paddedRequest) = some [8, 1, 16, 1, 42, 2, 0, 7, 48, 0] :=
    EnvelopeFormat.knowing_serialize (by decide) (List.mem_cons_of_mem _ List.mem_cons_self)
  have hhosts : (Peer.cpp paddingTable).Hosts (.knowing paddedMessages) (last.conns 0).output
      (last.conns 0).received := by
    rw [houtput, hreceived]
    refine ⟨⟨_, _, runs_answered hparse (by decide) rfl hserialize (by decide), List.prefix_rfl,
      List.prefix_rfl⟩, ?_⟩
    intro request hrequest
    have hscan : frameHeader.scan (frameHeader.frame [8, 0, 16, 1, 26, 0, 34, 0, 42, 1, 7]) =
        .frame [8, 0, 16, 1, 26, 0, 34, 0, 42, 1, 7] [] := rfl
    rw [EnvelopeFormat.envelopes_of_frame hscan hparse,
      EnvelopeFormat.envelopes_of_stuck rfl] at hrequest
    cases List.mem_singleton.mp hrequest
    exact ⟨_, hserialize, by decide⟩
  obtain ⟨-, htimeout | hnone | hlarge | htyped⟩ := @js_calls_same_as_local _ {} false
    (.knowing paddedMessages) (.knowing paddedMessages) hinverse hinverse.understands
    hinverse.understands
    (fun _ => .ok) (.cpp paddingTable) _ (by decide) hjoins last hrun hhosts 0 paddedRequest
    (.ok [0, 7]) henvelope hphase
  · obtain ⟨timeoutMs, htimeout⟩ := htimeout
    cases htimeout
  · obtain ⟨-, hnone⟩ := hnone
    cases hnone
  · obtain ⟨bytes, -, -, hlarge⟩ := hlarge
    cases hlarge
  · refine ⟨last, hrun, hphase, (@htyped _ _ rawMessage rawMessage (fun req => some (0 :: req)) [7]
      id rawMessage_shared rawMessage_shared hencoded.symm fun _ => rfl).1 (by decide) (by decide)
      ?_⟩
    exact .cpp (fun req => .returned (0 :: req)) rfl fun _ => rfl

end Ibridger.Protocol
