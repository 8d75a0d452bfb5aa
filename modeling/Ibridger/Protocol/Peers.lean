import Ibridger.Cpp.Answering
import Ibridger.Js.Answering

/-! # Servers of both SDKs as peers

A client sees of a server what the session of its connection makes of the bytes that it
has sent. Whichever SDK the server is of, that is a beginning of the responses to its
requests.
-/

namespace Ibridger.Protocol

open Rpc Transition Wire

/-- A server with the handlers of its methods. -/
inductive Peer where
  | cpp (table : ServiceTable Cpp.MethodHandler)
  | js (services : ServiceTable Js.MethodHandler)

namespace Peer

/-- The response of the server to a request. -/
def reply : Peer → Envelope → Envelope
  | cpp table => Cpp.Dispatcher.reply table
  | js services => Js.Dispatch.reply services

/-- The call that a request leads to can be made. -/
def Resolves : Peer → Envelope → Prop
  | cpp table, request => (table.resolve request).isSome
  | js services, request => (services.resolve request).isSome

/-- A session of the server has received some bytes and written others. -/
inductive Runs (format : EnvelopeFormat) : Peer → List UInt8 → List UInt8 → Prop where
  | cpp {table : ServiceTable Cpp.MethodHandler} {events : List Cpp.SessionEvent}
      {session : Cpp.Session Cpp.MethodHandler} (hopen : ∀ event ∈ events, event.Open)
      (hguarded : Guarded (Cpp.Session.step table format) (Cpp.Session.HandledBy table)
        Cpp.Session.fresh events)
      (hrun : run (Cpp.Session.step table format) Cpp.Session.fresh events = some session) :
      Runs format (.cpp table) session.arrived session.conn.wire
  | js {services : ServiceTable Js.MethodHandler} {events : List Js.SessionEvent}
      {session : Js.Session Js.MethodHandler}
      (hguarded : Guarded (Js.Session.step services format) (Js.Session.HandledBy services)
        Js.Session.fresh events)
      (hrun : run (Js.Session.step services format) Js.Session.fresh events = some session) :
      Runs format (.js services) session.conn.received session.conn.output

/-- What a client has written on a connection, and what has come to it, with the server at
the other end. The responses to what is written fit into frames. -/
structure Hosts (format : EnvelopeFormat) (peer : Peer) (wire arrived : List UInt8) : Prop where
  runs : ∃ received output, peer.Runs format received output ∧ received <+: wire ∧
    arrived <+: output
  sendable : ∀ request ∈ format.envelopes wire, Sendable format (peer.reply request)

variable {format : EnvelopeFormat} {peer : Peer}

theorem reply_requestId (peer : Peer) (request : Envelope) :
    (peer.reply request).requestId = request.requestId := by
  cases peer with
  | js services => exact Js.Dispatch.reply_requestId services request
  | cpp table =>
      change (Cpp.Dispatcher.reply table request).requestId = request.requestId
      rw [Cpp.Dispatcher.reply]
      cases hlocate : Cpp.Dispatcher.locate table request with
      | error response => exact (Cpp.Dispatcher.of_locate_error hlocate).2.requestId_eq
      | ok handler =>
          exact (Cpp.Dispatcher.respond_answers (Cpp.Dispatcher.resolve_of_locate_ok hlocate)
            (handler request.payload)).requestId_eq

/-- The server does not look at the metadata of a request. -/
theorem reply_metadata (peer : Peer) (request : Envelope) (metadata : List (String × String)) :
    peer.reply { request with metadata := metadata } = peer.reply request := by
  cases peer <;> rfl

/-- Responses have no metadata. -/
theorem reply_plain (peer : Peer) (request : Envelope) : (peer.reply request).metadata = [] := by
  cases peer with
  | cpp table =>
      change (Cpp.Dispatcher.reply table request).metadata = []
      unfold Cpp.Dispatcher.reply Cpp.Dispatcher.locate
      cases table request.serviceName with
      | none => rfl
      | some methods =>
          dsimp only
          cases methods request.methodName with
          | none => rfl
          | some handler =>
              dsimp only
              cases handler request.payload <;> rfl
  | js services =>
      change (Js.Dispatch.reply services request).metadata = []
      unfold Js.Dispatch.reply Js.Dispatch.locate
      cases services request.serviceName with
      | none => rfl
      | some service =>
          dsimp only
          cases service request.methodName with
          | none => rfl
          | some handler =>
              dsimp only
              cases handler request.payload <;> rfl

/-- Frames that can be sent may come behind others. -/
theorem wrote_extend {stream : List UInt8} {carried : List Envelope}
    (hwrote : format.Wrote stream carried) {more : List Envelope}
    (hsendable : ∀ envelope ∈ more, Sendable format envelope) :
    ∃ rest, format.Wrote (stream ++ rest) (carried ++ more) := by
  induction more generalizing stream carried with
  | nil => exact ⟨[], by rwa [List.append_nil, List.append_nil]⟩
  | cons envelope more ih =>
      obtain ⟨bytes, hserialize, hfits⟩ := hsendable envelope List.mem_cons_self
      obtain ⟨rest, hrest⟩ := ih (hwrote.append hfits hserialize)
        fun later hlater => hsendable later (List.mem_cons_of_mem _ hlater)
      refine ⟨frameHeader.frame bytes ++ rest, ?_⟩
      rwa [List.append_assoc, List.append_assoc] at hrest

/-- What a session has written is a beginning of the responses to all requests that are there
for it. -/
theorem wrote_of_log {Handler : Type} {log : Log Handler}
    {received output wire arrived : List UInt8} {respond : Envelope → Envelope}
    (hrequests : log.requests <+: format.envelopes received)
    (hwrote : ∃ rest, format.Wrote (output ++ rest) log.responses)
    (hreplied : log.Replied respond) (hinput : received <+: wire) (hcome : arrived <+: output)
    (hsendable : ∀ request ∈ format.envelopes wire, Sendable format (respond request)) :
    ∃ rest, format.Wrote (arrived ++ rest) ((format.envelopes wire).map respond) := by
  obtain ⟨written, hwrote⟩ := hwrote
  obtain ⟨behind, rfl⟩ := hcome
  have htaken : log.exchanges.map Exchange.request <+: format.envelopes wire := by
    refine .trans ?_ (hrequests.trans (EnvelopeFormat.envelopes_mono hinput))
    exact List.prefix_append _ _
  obtain ⟨later, hlater⟩ := htaken
  have hresponses : log.responses = (log.exchanges.map Exchange.request).map respond := by
    rw [Log.responses, List.map_map]
    exact List.map_congr_left hreplied
  obtain ⟨rest, hall⟩ := @wrote_extend format _ _ hwrote (later.map respond) <| by
    intro response hresponse
    obtain ⟨request, hrequest, rfl⟩ := List.mem_map.mp hresponse
    exact hsendable request (hlater ▸ List.mem_append_right _ hrequest)
  rw [hresponses, ← List.map_append, hlater, List.append_assoc, List.append_assoc] at hall
  exact ⟨_, hall⟩

theorem Hosts.wrote {wire arrived : List UInt8} (hhosts : peer.Hosts format wire arrived) :
    ∃ rest, format.Wrote (arrived ++ rest) ((format.envelopes wire).map peer.reply) := by
  obtain ⟨⟨received, output, hruns, hinput, hcome⟩, hsendable⟩ := hhosts
  have hreceived : ∀ request ∈ format.envelopes received, Sendable format (peer.reply request) :=
    fun request hrequest =>
      hsendable request ((EnvelopeFormat.envelopes_mono hinput).subset hrequest)
  cases hruns with
  | cpp hopen hguarded hrun =>
      obtain ⟨⟨frames, front, hkeeps⟩, hfits, hreplied⟩ :=
        Cpp.Session.answering_of_run hopen hguarded hrun hreceived
      exact wrote_of_log (hkeeps.envelopes_eq ▸ List.prefix_append _ _) (hkeeps.wrote hfits)
        hreplied hinput hcome hsendable
  | js hguarded hrun =>
      obtain ⟨⟨frames, front, hkeeps⟩, hfits, hreplied⟩ :=
        Js.Session.answering_of_run hguarded hrun hreceived
      exact wrote_of_log (hkeeps.envelopes_eq ▸ List.prefix_append _ _) (hkeeps.wrote hfits)
        hreplied hinput hcome hsendable

/-- A client and a server with classes of their own, each of which understands the other's.
What has come to the client is a beginning of the responses to its requests. -/
theorem Hosts.emitted {other : EnvelopeFormat} {wire arrived : List UInt8}
    {requests : List Envelope} (hinverse : format.Inverse) (hreads : format.Understands other)
    (hread : other.Understands format)
    (hwrites : format.Writes (frameHeader.parse wire).frames requests)
    (hhosts : peer.Hosts other wire arrived) :
    ∃ rest, format.Emitted (arrived ++ rest) ((format.envelopes wire).map peer.reply) := by
  obtain ⟨rest, hwrote⟩ := hhosts.wrote
  obtain ⟨-, hfits, -⟩ := frameHeader.parse_spec wire
  have hown := hinverse.understands.map_readable peer.reply_metadata hfits hwrites
  have hother := hread.map_readable peer.reply_metadata hfits hwrites
  refine ⟨rest, ?_⟩
  have hemitted := hreads.emitted hwrote fun response hresponse => by
    obtain ⟨request, -, rfl⟩ := List.mem_map.mp hresponse
    exact peer.reply_plain request
  rwa [EnvelopeFormat.envelopes, hown, ← hother]

end Peer

end Ibridger.Protocol
