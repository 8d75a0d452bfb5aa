import Ibridger.Js.ClientStep
import Ibridger.Js.Replies

/-! # Sessions that can send their responses

A session whose peer sends nothing but requests with responses that fit goes on
until it has answered them all, and takes a bounded number of turns for each.
-/

namespace Ibridger.Js

open LengthPrefix Rpc Transition UnixSocketConnection Wire

/-- How many turns the loop may still take before it reads on. -/
def SessionPhase.turns : SessionPhase → Nat
  | .receiving read => read.turns
  | .sending send => send.turns + 3
  | .handling _ => 7
  | .ended => 0

namespace Session

variable (services : ServiceTable MethodHandler) (format : EnvelopeFormat)

/-- The responses of the session are those to its requests, and can be sent. -/
structure Answering (session : Session MethodHandler) : Prop where
  keeps : ∃ frames front, session.Keeps services format frames front
  fits : session.log.Fits format
  replied : session.log.Replied (Dispatch.reply services)

variable {services format} {session next : Session MethodHandler}

theorem fresh_answering : Answering services format fresh :=
  ⟨⟨[], [], fresh_keeps⟩, fun _ hmem => absurd hmem List.not_mem_nil, Log.replied_empty⟩

theorem Answering.step {event : SessionEvent}
    (hanswering : session.Answering services format) (hhandled : session.HandledBy services event)
    (hsendable : ∀ request ∈ format.envelopes session.conn.received,
      Sendable format (Dispatch.reply services request))
    (hstep : session.step services format event = some next) : next.Answering services format := by
  obtain ⟨⟨frames, front, hkeeps⟩, hfits, hreplied⟩ := hanswering
  have hnext := fits_step hfits (hkeeps.respondsSendable hhandled hsendable) hstep
  exact ⟨hkeeps.step hnext hstep, hnext, replied_step hkeeps hreplied hhandled hstep⟩

/-- What can be read does not end the session. -/
theorem Answering.not_ended {rest : List UInt8} {requests : List Envelope}
    (hinverse : format.Inverse) (hanswering : session.Answering services format)
    (hemitted : format.Emitted (session.conn.received ++ rest) requests) :
    session.phase ≠ .ended := by
  obtain ⟨⟨frames, front, hkeeps⟩, hfits, -⟩ := hanswering
  intro hended
  obtain ⟨-, -, hbreaks⟩ := hkeeps.serves hinverse hfits
  exact hemitted.not_breaks (hbreaks hended)

theorem Answering.live (hanswering : session.Answering services format)
    (hgoes : session.phase ≠ .ended) :
    session.conn.connected = true ∧ session.conn.socket = .live := by
  obtain ⟨⟨frames, front, hkeeps⟩, -, -⟩ := hanswering
  have hconnected : session.conn.connected = true := by
    cases hkeeps.stands with
    | receiving read hphase hconnected => exact hconnected
    | handling request hphase hconnected => exact hconnected
    | sending send response bytes before earlier hphase hconnected => exact hconnected
    | ended hphase => exact absurd hphase hgoes
  exact ⟨hconnected, hkeeps.live_iff.mpr hconnected⟩

/-! ## What has been written and what has come -/

/-- More may have been written, and nothing more has come. -/
def Extends (conn conn' : UnixSocketConnection) : Prop :=
  conn.output <+: conn'.output ∧ conn'.received = conn.received

theorem Extends.trans {conn middle conn' : UnixSocketConnection} (hfirst : Extends conn middle)
    (hsecond : Extends middle conn') : Extends conn conn' :=
  ⟨hfirst.1.trans hsecond.1, hsecond.2.trans hfirst.2⟩

theorem finish_extends (session : Session MethodHandler) :
    Extends session.conn session.finish.conn := by
  obtain ⟨-, hreceived, houtput⟩ := finish_conn session
  exact ⟨houtput ▸ List.prefix_rfl, hreceived⟩

theorem loop_extends (session : Session MethodHandler) :
    Extends session.conn session.loop.conn := by
  unfold loop
  split
  · dsimp only
    rw [recvFrame_eq]
    exact ⟨List.prefix_rfl, rfl⟩
  · exact session.finish_extends

theorem sent_extends (session : Session MethodHandler)
    (result : FrameSend × UnixSocketConnection) :
    Extends result.2 (session.sent result).conn := by
  obtain ⟨send, conn⟩ := result
  cases send with
  | header => exact ⟨List.prefix_rfl, rfl⟩
  | body => exact ⟨List.prefix_rfl, rfl⟩
  | settled result =>
      cases result with
      | error => exact finish_extends { session with conn := conn }
      | ok => exact loop_extends { session with conn := conn }

theorem respond_extends (session : Session MethodHandler) (exchange : Exchange) :
    Extends session.conn (session.respond format exchange).conn := by
  unfold respond
  split
  · exact finish_extends { session with log := session.log.answer exchange }
  next bytes hserialize =>
    refine .trans ⟨sendFrame_output_grows session.conn bytes, ?_⟩ (sent_extends _ _)
    rw [sendFrame_eq]

theorem received_extends (session : Session MethodHandler)
    (result : FrameRead × UnixSocketConnection) :
    Extends result.2 (session.received services format result).conn := by
  obtain ⟨read, conn⟩ := result
  cases read with
  | header => exact ⟨List.prefix_rfl, rfl⟩
  | body => exact ⟨List.prefix_rfl, rfl⟩
  | settled result =>
      cases result with
      | error => exact finish_extends { session with conn := conn }
      | ok frame =>
          simp only [Session.received]
          split
          · exact finish_extends { session with conn := conn }
          · unfold dispatch
            split
            · exact respond_extends { session with conn := conn } _
            · exact ⟨List.prefix_rfl, rfl⟩

theorem step_stream {event : SessionEvent}
    (hstep : session.step services format event = some next) :
    session.conn.output <+: next.conn.output ∧
      ((∃ chunk, event = .data chunk ∧
          next.conn.received = session.conn.received ++ chunk) ∨
        next.conn.received = session.conn.received) := by
  have hextends : Extends session.conn next.conn → session.conn.output <+: next.conn.output ∧
      ((∃ chunk, event = .data chunk ∧ next.conn.received = session.conn.received ++ chunk) ∨
        next.conn.received = session.conn.received) :=
    fun hextends => ⟨hextends.1, .inr hextends.2⟩
  cases event with
  | data chunk =>
      simp only [Session.step] at hstep
      split at hstep
      · cases hstep
        dsimp only
        rw [onData_eq]
        exact ⟨List.prefix_rfl, .inl ⟨chunk, rfl, rfl⟩⟩
      · cases hstep
  | written send =>
      simp only [Session.step] at hstep
      split at hstep
      · cases hstep
        exact ⟨List.prefix_rfl, .inr rfl⟩
      · cases hstep
  | handled outcome =>
      simp only [Session.step] at hstep
      split at hstep
      · cases hstep
        exact hextends (session.respond_extends _)
      · cases hstep
  | resume =>
      simp only [Session.step] at hstep
      split at hstep
      · obtain ⟨result, hresume, rfl⟩ := Option.map_eq_some_iff.mp hstep
        refine hextends (.trans ?_ (session.received_extends result))
        rw [Extends, FrameRead.resume_eq hresume]
        exact ⟨List.prefix_rfl, rfl⟩
      · obtain ⟨result, hresume, rfl⟩ := Option.map_eq_some_iff.mp hstep
        refine hextends (.trans ⟨resume_output_grows hresume, ?_⟩ (session.sent_extends result))
        rw [FrameSend.resume_eq hresume]
      · cases hstep

/-! ## Turns -/

theorem loop_turns_le (session : Session MethodHandler) : session.loop.phase.turns ≤ 2 := by
  unfold loop
  split
  · exact Nat.le_refl 2
  · exact Nat.zero_le 2

theorem sent_turns_le (session : Session MethodHandler)
    (result : FrameSend × UnixSocketConnection) :
    (session.sent result).phase.turns ≤ result.1.turns + 3 := by
  obtain ⟨send, conn⟩ := result
  cases send with
  | header => exact Nat.le_refl _
  | body => exact Nat.le_refl _
  | settled result =>
      cases result with
      | error => exact Nat.zero_le _
      | ok => exact Nat.le_succ_of_le (loop_turns_le _)

theorem respond_turns_lt (session : Session MethodHandler) (exchange : Exchange) :
    (session.respond format exchange).phase.turns < 7 := by
  unfold respond
  split
  · exact Nat.zero_lt_succ _
  next bytes hserialize =>
    have hsent := sent_turns_le { session with log := session.log.answer exchange }
      (sendFrame session.conn bytes)
    have hsend := sendFrame_turns_le session.conn bytes
    omega

/-- With a turn the loop takes up another request, or it gets on with the one in hand. -/
theorem Keeps.turns {frames : List (List UInt8)} {front : List UInt8} {event : SessionEvent}
    (hkeeps : session.Keeps services format frames front)
    (hturn : event = .resume ∨ ∃ outcome, event = .handled outcome)
    (hstep : session.step services format event = some next) :
    session.log.requests.length < next.log.requests.length ∨
      next.log.requests.length = session.log.requests.length ∧
        next.phase.turns < session.phase.turns := by
  rcases hturn with rfl | ⟨outcome, rfl⟩
  · simp only [Session.step] at hstep
    split at hstep
    next read hphase =>
      obtain ⟨⟨read', conn⟩, hresume, rfl⟩ := Option.map_eq_some_iff.mp hstep
      have hturns := FrameRead.turns_of_resume hresume
      rw [hphase]
      cases read' with
      | header => exact .inr ⟨rfl, hturns⟩
      | body => exact .inr ⟨rfl, hturns⟩
      | settled result =>
          cases result with
          | error => exact .inr ⟨rfl, hturns⟩
          | ok frame =>
              simp only [Session.received]
              split
              · exact .inr ⟨rfl, hturns⟩
              next request hparse =>
                obtain ⟨hidle, -⟩ := hkeeps.takes hphase hresume hparse
                apply Or.inl
                unfold dispatch
                split
                · rw [respond_log, Log.requests_answer, Log.requests_of_idle hidle,
                    List.length_append]
                  exact Nat.lt_succ_self _
                · dsimp only
                  rw [Log.requests_call hidle, List.length_append]
                  exact Nat.lt_succ_self _
    next send hphase =>
      obtain ⟨result, hresume, rfl⟩ := Option.map_eq_some_iff.mp hstep
      rw [sent_log, hphase]
      refine .inr ⟨rfl, Nat.lt_of_le_of_lt (sent_turns_le session result) ?_⟩
      exact Nat.add_lt_add_right (FrameSend.turns_lt_of_resume hresume) 3
    · cases hstep
  · simp only [Session.step] at hstep
    split at hstep
    next request hphase =>
      cases hstep
      obtain ⟨hcurrent, -⟩ := hkeeps.handling hphase
      rw [hphase]
      refine .inr ⟨?_, respond_turns_lt session _⟩
      rw [respond_log, Log.requests_answer, Log.requests, hcurrent, Option.toList_some]
    · cases hstep

/-- A step of the session takes up another request, brings the one in hand on, or
takes from the writes or from the bytes that are to come. -/
theorem Keeps.step_turns {frames : List (List UInt8)} {front : List UInt8} {event : SessionEvent}
    (hkeeps : session.Keeps services format frames front)
    (hstep : session.step services format event = some next) :
    session.log.requests.length < next.log.requests.length ∨
      next.log.requests.length = session.log.requests.length ∧
        (next.phase.turns < session.phase.turns ∨
          next.phase.turns = session.phase.turns ∧ next.conn.output = session.conn.output ∧
            (pendings next.conn < pendings session.conn ∧
                next.conn.received = session.conn.received ∨
              pendings next.conn = pendings session.conn ∧ ∃ chunk, event = .data chunk ∧
                next.conn.received = session.conn.received ++ chunk)) := by
  cases event with
  | resume => exact (hkeeps.turns (.inl rfl) hstep).imp_right fun h => ⟨h.1, .inl h.2⟩
  | handled outcome =>
      exact (hkeeps.turns (.inr ⟨outcome, rfl⟩) hstep).imp_right fun h => ⟨h.1, .inl h.2⟩
  | data chunk =>
      simp only [Session.step] at hstep
      split at hstep
      · cases hstep
        dsimp only
        rw [onData_eq]
        exact .inr ⟨rfl, .inr ⟨rfl, rfl, .inr ⟨rfl, chunk, rfl, rfl⟩⟩⟩
      · cases hstep
  | written send =>
      simp only [Session.step] at hstep
      split at hstep
      next hpending =>
        cases hstep
        exact .inr ⟨rfl, .inr ⟨rfl, rfl, .inl ⟨pendings_onWritten hpending, rfl⟩⟩⟩
      · cases hstep

theorem answering_of_run {events : List SessionEvent}
    (hguarded : Guarded (Session.step services format) (HandledBy services) fresh events)
    (hrun : run (Session.step services format) fresh events = some session)
    (hsendable : ∀ request ∈ format.envelopes session.conn.received,
      Sendable format (Dispatch.reply services request)) : session.Answering services format := by
  refine run_invariant_of_guarded (fun session : Session MethodHandler =>
    (∀ request ∈ format.envelopes session.conn.received,
      Sendable format (Dispatch.reply services request)) → session.Answering services format) ?_
    (fun _ => fresh_answering) hguarded hrun hsendable
  intro session event next hbefore hhandled hstep hsendable
  have hcame : session.conn.received <+: next.conn.received := by
    rcases (step_stream hstep).2 with ⟨chunk, -, hreceived⟩ | hsame
    · rw [hreceived]
      exact List.prefix_append _ _
    · exact hsame ▸ List.prefix_rfl
  have hearlier : ∀ request ∈ format.envelopes session.conn.received,
      Sendable format (Dispatch.reply services request) := fun request hrequest =>
    hsendable request ((EnvelopeFormat.envelopes_mono hcame).subset hrequest)
  exact (hbefore hearlier).step hhandled hearlier hstep

end Session

end Ibridger.Js
