import Ibridger.Js.ResultSize
import Ibridger.Rpc.Replies

/-! # JS sessions with handlers that are functions

What a session sends to its peer depends on the frames alone, not on how they
come in or on when the handlers and the writes are done.
-/

namespace Ibridger.Js

open LengthPrefix Rpc Transition UnixSocketConnection Wire

/-- A handler whose promise always settles in the same way for the same payload. -/
abbrev MethodHandler : Type :=
  List UInt8 → HandlerOutcome

/-- The response to a request. -/
def Dispatch.reply (services : ServiceTable MethodHandler) (request : Envelope) : Envelope :=
  match locate services request with
  | .error response => response
  | .ok handler => respond request (handler request.payload)

theorem Dispatch.reply_requestId (services : ServiceTable MethodHandler) (request : Envelope) :
    (Dispatch.reply services request).requestId = request.requestId := by
  rw [reply]
  cases hlocate : locate services request with
  | error response => exact (of_locate_error hlocate).2.requestId_eq
  | ok handler =>
      exact (respond_answers (resolve_of_locate_ok hlocate)
        (handler request.payload)).requestId_eq

namespace Session

variable (services : ServiceTable MethodHandler) (format : EnvelopeFormat)

/-- A handler that is called does what it does as a function. -/
def HandledBy (session : Session MethodHandler) : SessionEvent → Prop
  | .handled outcome => ∀ request handler, session.phase = .handling request →
      Dispatch.locate services request = .ok handler → outcome = handler request.payload
  | .data _ | .written _ | .resume => True

/-- A session that has come to rest, with all of the stream or before its end. -/
def Completes (stream : List UInt8) (session : Session MethodHandler) : Prop :=
  (∃ events, Guarded (Session.step services format) (HandledBy services) fresh events ∧
    run (Session.step services format) fresh events = some session) ∧
  session.AtRest services format ∧
  ∃ rest, session.conn.received ++ rest = stream ∧ (rest = [] ∨ session.phase = .ended)

/-- The session has ended with a response that it could not send. -/
structure Halted (session : Session MethodHandler) : Prop where
  phase_eq : session.phase = .ended
  socket_ne : session.conn.socket ≠ .live
  short : StopsShort format (Dispatch.reply services) session.conn.received session.conn.output

variable {services format} {session next : Session MethodHandler} {frames : List (List UInt8)}
  {front : List UInt8}

theorem finish_conn (session : Session MethodHandler) :
    session.finish.conn.socket ≠ .live ∧
      session.finish.conn.received = session.conn.received ∧
      session.finish.conn.output = session.conn.output := by
  unfold finish close
  dsimp only
  split
  · exact ⟨fun h => (by cases h), rfl, rfl⟩
  next hdead => exact ⟨hdead, rfl, rfl⟩

theorem respond_halted {exchange : Exchange} {more : List Envelope}
    (hlarge : ¬ Sendable format exchange.response)
    (hresponse : exchange.response = Dispatch.reply services exchange.request)
    (hreplied : session.log.Replied (Dispatch.reply services)) (hfits : session.log.Fits format)
    (houtput : format.Emitted session.conn.output session.log.responses)
    (hreceived : format.envelopes session.conn.received =
      session.log.exchanges.map Exchange.request ++ exchange.request :: more) :
    (session.respond format exchange).Halted services format := by
  rw [session.respond_of_refused hlarge]
  obtain ⟨hsocket, hsame, hsent⟩ :=
    finish_conn { session with log := session.log.answer exchange }
  refine ⟨rfl, hsocket, ?_⟩
  rw [hsame, hsent]
  refine ⟨_, exchange.request, more, hreceived, hreplied.sendable hfits, ?_, ?_⟩
  · rwa [← hresponse]
  · rwa [← hreplied.responses_eq]

theorem Halted.step {event : SessionEvent} (hhalted : session.Halted services format)
    (hstep : session.step services format event = some next) : next.Halted services format := by
  obtain ⟨hphase, hsocket, hshort⟩ := hhalted
  cases event with
  | data chunk =>
      simp only [Session.step, if_neg hsocket] at hstep
      cases hstep
  | written send =>
      simp only [Session.step] at hstep
      split at hstep
      · cases hstep
        exact ⟨hphase, hsocket, hshort⟩
      · cases hstep
  | handled outcome =>
      simp only [Session.step, hphase] at hstep
      cases hstep
  | resume =>
      simp only [Session.step, hphase] at hstep
      cases hstep

/-- The handler of the request in hand. -/
theorem Keeps.handling (hkeeps : session.Keeps services format frames front) {request : Envelope}
    (hphase : session.phase = .handling request) :
    session.log.current = some request ∧
      format.Wrote session.conn.output session.log.responses ∧
      ∃ handler, Dispatch.locate services request = .ok handler := by
  obtain ⟨-, hcurrent, -, -, houtput⟩ := hkeeps.stands.of_handling hphase
  refine ⟨hcurrent, houtput, ?_⟩
  cases hlocate : Dispatch.locate services request with
  | ok handler => exact ⟨handler, rfl⟩
  | error response =>
      have hsome := hkeeps.sound.resolves request hcurrent
      rw [(Dispatch.of_locate_error hlocate).1] at hsome
      cases hsome

/-- The response when the handler has ended is the one to the request. -/
theorem Keeps.respond_eq (hkeeps : session.Keeps services format frames front)
    {outcome : HandlerOutcome} (hhandled : session.HandledBy services (.handled outcome))
    {request : Envelope} (hphase : session.phase = .handling request) :
    Dispatch.respond request outcome = Dispatch.reply services request := by
  obtain ⟨-, -, handler, hlocate⟩ := hkeeps.handling hphase
  rw [Dispatch.reply, hlocate, hhandled request handler hphase hlocate]

theorem Keeps.envelopes_eq (hkeeps : session.Keeps services format frames front) :
    format.envelopes session.conn.received = session.log.requests ++ format.envelopes front := by
  rw [hkeeps.received_eq]
  exact EnvelopeFormat.envelopes_stream_append hkeeps.fits hkeeps.carries front

/-- The request that a session reads stands behind those that it has answered. -/
theorem Keeps.takes (hkeeps : session.Keeps services format frames front) {read : FrameRead}
    {frame : List UInt8} {conn : UnixSocketConnection} {request : Envelope}
    (hphase : session.phase = .receiving read)
    (hresume : read.resume session.conn = some (.settled (.ok frame), conn))
    (hparse : format.parse frame = .ok request) :
    session.log.current = none ∧ format.Wrote conn.output session.log.responses ∧
      conn.received = session.conn.received ∧ ∃ more, format.envelopes session.conn.received =
        session.log.exchanges.map Exchange.request ++ request :: more := by
  have henvelopes := hkeeps.envelopes_eq
  obtain ⟨-, hidle, hreading, houtput⟩ := hkeeps.stands.of_receiving hphase
  obtain ⟨hresumed, hframe⟩ := hreading.resume hresume
  cases hresumed with
  | frame _ hwaiters hscan =>
      rw [Log.requests_of_idle hidle,
        EnvelopeFormat.envelopes_of_frame hscan hparse] at henvelopes
      refine ⟨hidle, ?_, ?_, _, henvelopes⟩
      · rw [hframe]
        exact houtput
      · rw [hframe]

/-- Every response is the one to its request. -/
theorem replied_step {event : SessionEvent} (hkeeps : session.Keeps services format frames front)
    (hreplied : session.log.Replied (Dispatch.reply services))
    (hhandled : session.HandledBy services event)
    (hstep : session.step services format event = some next) :
    next.log.Replied (Dispatch.reply services) := by
  cases event with
  | data chunk =>
      simp only [Session.step] at hstep
      split at hstep
      · cases hstep
        exact hreplied
      · cases hstep
  | written send =>
      simp only [Session.step] at hstep
      split at hstep
      · cases hstep
        exact hreplied
      · cases hstep
  | handled outcome =>
      simp only [Session.step] at hstep
      split at hstep
      next request hphase =>
        cases hstep
        rw [respond_log]
        exact hreplied.answer (hkeeps.respond_eq hhandled hphase)
      · cases hstep
  | resume =>
      simp only [Session.step] at hstep
      split at hstep
      next read hphase =>
        obtain ⟨⟨read', conn⟩, hresume, rfl⟩ := Option.map_eq_some_iff.mp hstep
        cases read' with
        | header => exact hreplied
        | body => exact hreplied
        | settled result =>
            cases result with
            | error => exact hreplied
            | ok frame =>
                simp only [Session.received]
                split
                · exact hreplied
                next request hparse =>
                  unfold dispatch
                  split
                  next response hlocate =>
                    rw [respond_log]
                    apply hreplied.answer
                    rw [Dispatch.reply, hlocate]
                  · exact hreplied
      next send hphase =>
        obtain ⟨result, -, rfl⟩ := Option.map_eq_some_iff.mp hstep
        rw [sent_log]
        exact hreplied
      · cases hstep

/-- A step that makes a response that cannot be sent ends the session. -/
theorem Keeps.halts {event : SessionEvent} (hinverse : format.Inverse)
    (hkeeps : session.Keeps services format frames front) (hfits : session.log.Fits format)
    (hreplied : session.log.Replied (Dispatch.reply services))
    (hhandled : session.HandledBy services event)
    (hlarge : ¬ session.RespondsSendable services format event)
    (hstep : session.step services format event = some next) : next.Halted services format := by
  have henvelopes := hkeeps.envelopes_eq
  cases event with
  | data | written => exact absurd trivial hlarge
  | handled outcome =>
      simp only [RespondsSendable, not_forall] at hlarge
      obtain ⟨request, hphase, hlarge⟩ := hlarge
      simp only [Session.step, hphase] at hstep
      cases hstep
      obtain ⟨hcurrent, houtput, -⟩ := hkeeps.handling hphase
      rw [Log.requests, hcurrent, Option.toList_some, List.append_assoc] at henvelopes
      exact respond_halted hlarge (hkeeps.respond_eq hhandled hphase) hreplied hfits
        (houtput.emitted hinverse) henvelopes
  | resume =>
      simp only [RespondsSendable, not_forall] at hlarge
      obtain ⟨read, frame, conn, request, response, hphase, hresume, hparse, hlocate, hlarge⟩ :=
        hlarge
      have hnext : ({ session with conn := conn }.respond format ⟨request, none, response⟩) =
          next := by
        simp only [Session.step, hphase, hresume, Option.map_some, Session.received, hparse] at hstep
        rw [dispatch, hlocate] at hstep
        exact Option.some_inj.mp hstep
      rw [← hnext]
      have hresponse : response = Dispatch.reply services request := by
        rw [Dispatch.reply, hlocate]
      obtain ⟨-, houtput, hsame, more, hreceived⟩ := hkeeps.takes hphase hresume hparse
      rw [← hsame] at hreceived
      exact respond_halted hlarge hresponse hreplied hfits (houtput.emitted hinverse) hreceived

/-- As long as the responses to what has come can be sent, so can those that are made. -/
theorem Keeps.respondsSendable {event : SessionEvent}
    (hkeeps : session.Keeps services format frames front)
    (hhandled : session.HandledBy services event)
    (hsendable : ∀ request ∈ format.envelopes session.conn.received,
      Sendable format (Dispatch.reply services request)) :
    session.RespondsSendable services format event := by
  cases event with
  | data | written => trivial
  | handled outcome =>
      intro request hphase
      obtain ⟨hcurrent, -⟩ := hkeeps.handling hphase
      rw [hkeeps.respond_eq hhandled hphase]
      apply hsendable
      rw [hkeeps.envelopes_eq, Log.requests, hcurrent, Option.toList_some, List.append_assoc]
      exact List.mem_append_right _ List.mem_cons_self
  | resume =>
      intro read frame conn request response hphase hresume hparse hlocate
      have hresponse : response = Dispatch.reply services request := by
        rw [Dispatch.reply, hlocate]
      obtain ⟨-, -, -, more, hreceived⟩ := hkeeps.takes hphase hresume hparse
      rw [hresponse]
      apply hsendable
      rw [hreceived]
      exact List.mem_append_right _ List.mem_cons_self

/-- A session sends the responses to the requests that its frames carry, up to the
first that cannot be sent. -/
theorem Completes.emitted {stream : List UInt8} (hinverse : format.Inverse)
    (hcompletes : session.Completes services format stream) :
    format.Emitted session.conn.output
      (repliesTo format (Dispatch.reply services) (format.envelopes stream)) := by
  obtain ⟨⟨events, hguarded, hrun⟩, hrest, rest, rfl, hall⟩ := hcompletes
  have hinv : (∃ frames front, session.Keeps services format frames front) ∧
        session.log.Fits format ∧ session.log.Replied (Dispatch.reply services) ∨
      session.Halted services format := by
    refine run_invariant_of_guarded (fun session : Session MethodHandler =>
      (∃ frames front, session.Keeps services format frames front) ∧
        session.log.Fits format ∧ session.log.Replied (Dispatch.reply services) ∨
      session.Halted services format) ?_
      (.inl ⟨⟨[], [], fresh_keeps⟩, fun _ hmem => absurd hmem List.not_mem_nil, Log.replied_empty⟩)
      hguarded hrun
    rintro session event next (⟨⟨frames, front, hkeeps⟩, hfits, hreplied⟩ | hhalted) hhandled hstep
    · by_cases hsendable : session.RespondsSendable services format event
      · have hnext := fits_step hfits hsendable hstep
        exact .inl ⟨hkeeps.step hnext hstep, hnext,
          replied_step hkeeps hreplied hhandled hstep⟩
      · exact .inr (hkeeps.halts hinverse hfits hreplied hhandled hsendable hstep)
    · exact .inr (hhalted.step hstep)
  rcases hinv with ⟨⟨frames, front, hkeeps⟩, hfits, hreplied⟩ | hhalted
  · obtain ⟨-, hserved, hbreaks⟩ := hkeeps.serves hinverse hfits
    have hemitted := (hserved hrest).emitted hreplied hfits
    rcases hall with rfl | hended
    · rwa [List.append_nil]
    · rwa [(hbreaks hended).envelopes_append]
  · exact hhalted.short.emitted rest

end Session

end Ibridger.Js
