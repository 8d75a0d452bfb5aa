import Ibridger.Cpp.ResultSize
import Ibridger.Rpc.Replies

/-! # C++ sessions with handlers that are functions

What the thread of a session writes depends on the frames alone, not on how the
bytes come in or on how the kernel takes them.
-/

namespace Ibridger.Cpp

open LengthPrefix Rpc Transition Wire

/-- A handler that always ends in the same way on the same payload. -/
abbrev MethodHandler : Type :=
  List UInt8 → HandlerOutcome

/-- The response to a request. -/
def Dispatcher.reply (table : ServiceTable MethodHandler) (request : Envelope) : Envelope :=
  match locate table request with
  | .error response => response
  | .ok handler => respond request (handler request.payload)

namespace Session

variable (table : ServiceTable MethodHandler) (format : EnvelopeFormat)

/-- A handler that is called does what it does as a function. -/
def HandledBy (session : Session MethodHandler) : SessionEvent → Prop
  | .handled outcome => ∀ request handler, session.phase = .handling request →
      Dispatcher.locate table request = .ok handler → outcome = handler request.payload
  | .recv _ | .send _ => True

/-- A session that has come to rest, with all of the stream or before its end. -/
def Completes (stream : List UInt8) (session : Session MethodHandler) : Prop :=
  (∃ events, (∀ event ∈ events, event.Open) ∧
    Guarded (Session.step table format) (HandledBy table) fresh events ∧
    run (Session.step table format) fresh events = some session) ∧
  session.AtRest format ∧
  ∃ rest, session.arrived ++ rest = stream ∧ (rest = [] ∨ session.phase = .ended)

/-- The session has ended with a response that it could not send. -/
structure Halted (session : Session MethodHandler) : Prop where
  phase_eq : session.phase = .ended
  short : StopsShort format (Dispatcher.reply table) session.arrived session.conn.wire

variable {table format} {session next : Session MethodHandler} {frames : List (List UInt8)}
  {front : List UInt8}

theorem Halted.step {event : SessionEvent} (hhalted : session.Halted table format)
    (hstep : session.step table format event = some next) : next.Halted table format := by
  have hphase := hhalted.phase_eq
  cases event with
  | recv reads =>
      simp only [Session.step, hphase, reduceCtorEq, if_false] at hstep
  | handled outcome =>
      simp only [Session.step, hphase] at hstep
      cases hstep
  | send sends =>
      simp only [Session.step, hphase] at hstep
      cases hstep

/-- The response when the handler has ended is the one to the request. -/
theorem Keeps.respond_eq (hkeeps : session.Keeps table format frames front)
    {outcome : HandlerOutcome} (hhandled : session.HandledBy table (.handled outcome))
    {request : Envelope} (hphase : session.phase = .handling request) :
    Dispatcher.respond request outcome = Dispatcher.reply table request := by
  have hcurrent := (hkeeps.stands.of_handling hphase).1
  rw [Dispatcher.reply]
  cases hlocate : Dispatcher.locate table request with
  | ok handler => rw [hhandled request handler hphase hlocate]
  | error response =>
      have hsome := hkeeps.sound.resolves request hcurrent
      rw [(Dispatcher.of_locate_error hlocate).1] at hsome
      cases hsome

theorem Keeps.envelopes_eq (hkeeps : session.Keeps table format frames front) :
    format.envelopes session.arrived = session.log.requests ++ format.envelopes front := by
  rw [hkeeps.arrived_eq]
  exact EnvelopeFormat.envelopes_stream_append hkeeps.fits hkeeps.carries front

/-- Every response is the one to its request. -/
theorem replied_step {event : SessionEvent} (hkeeps : session.Keeps table format frames front)
    (hreplied : session.log.Replied (Dispatcher.reply table))
    (hhandled : session.HandledBy table event)
    (hstep : session.step table format event = some next) :
    next.log.Replied (Dispatcher.reply table) := by
  cases event with
  | recv reads =>
      simp only [Session.step] at hstep
      split at hstep
      · obtain ⟨⟨result, conn⟩, -, rfl⟩ := Option.map_eq_some_iff.mp hstep
        cases result with
        | error err => exact hreplied
        | ok request =>
            simp only [Session.received, Session.dispatch]
            split
            next response hlocate =>
              apply hreplied.answer
              rw [Dispatcher.reply, hlocate]
            · exact hreplied
      · cases hstep
  | handled outcome =>
      simp only [Session.step] at hstep
      split at hstep
      next request hphase =>
        cases hstep
        exact hreplied.answer (hkeeps.respond_eq hhandled hphase)
      · cases hstep
  | send sends =>
      simp only [Session.step] at hstep
      split at hstep
      · obtain ⟨⟨error, conn⟩, -, rfl⟩ := Option.map_eq_some_iff.mp hstep
        cases error <;> exact hreplied
      · cases hstep

/-- A step that is to send a response that cannot be sent ends the session. -/
theorem Keeps.halts {event : SessionEvent} (hinverse : format.Inverse)
    (hkeeps : session.Keeps table format frames front) (hfit : session.SentFit format)
    (hreplied : session.log.Replied (Dispatcher.reply table))
    (hlarge : ¬ session.SendsSendable format event)
    (hstep : session.step table format event = some next) : next.Halted table format := by
  cases event with
  | recv | handled => exact absurd trivial hlarge
  | send sends =>
      simp only [SendsSendable, not_forall] at hlarge
      obtain ⟨response, hphase, hlarge⟩ := hlarge
      obtain ⟨same, hsame, hended, hwire, -⟩ :=
        @step_send_of_refused _ table _ _ _ hphase hlarge sends
      cases hsame.symm.trans hstep
      have harrived : next.arrived = session.arrived := by
        simp only [Session.step, hphase] at hstep
        obtain ⟨⟨error, conn⟩, -, rfl⟩ := Option.map_eq_some_iff.mp hstep
        cases error <;> rfl
      refine ⟨hended, ?_⟩
      rw [hwire, harrived]
      obtain ⟨earlier, hidle, hresponses, houtput⟩ := hkeeps.stands.of_sending hphase
      -- the last exchange is the one whose response is refused
      obtain ⟨exchanges, last, hexchanges, rfl, hlast⟩ := List.map_eq_append_iff.mp hresponses
      obtain ⟨exchange, rfl, rfl⟩ := List.map_eq_singleton_iff.mp hlast
      have hearlier : ∀ other ∈ exchanges,
          other.response = Dispatcher.reply table other.request := by
        intro other hother
        apply hreplied
        rw [hexchanges]
        exact List.mem_append_left _ hother
      have hresponse : exchange.response = Dispatcher.reply table exchange.request := by
        apply hreplied
        rw [hexchanges]
        exact List.mem_append_right _ List.mem_cons_self
      have hreplies : (exchanges.map Exchange.request).map (Dispatcher.reply table) =
          exchanges.map Exchange.response := by
        rw [List.map_map]
        exact (List.map_congr_left hearlier).symm
      have henvelopes := hkeeps.envelopes_eq
      rw [Log.requests_of_idle hidle, hexchanges, List.map_append, List.append_assoc]
        at henvelopes
      refine ⟨_, exchange.request, _, henvelopes, ?_, ?_, ?_⟩
      · unfold SentFit at hfit
        rw [hphase, hresponses, List.dropLast_concat] at hfit
        intro request hrequest
        apply hfit
        rw [← hreplies]
        exact List.mem_map_of_mem hrequest
      · rwa [← hresponse]
      · rw [hreplies]
        exact houtput.emitted hinverse

/-- A session sends the responses to the requests that its frames carry, up to the
first that cannot be sent. -/
theorem Completes.emitted {stream : List UInt8} (hinverse : format.Inverse)
    (hcompletes : session.Completes table format stream) :
    format.Emitted session.conn.wire
      (repliesTo format (Dispatcher.reply table) (format.envelopes stream)) := by
  obtain ⟨⟨events, hopen, hguarded, hrun⟩, hrest, rest, rfl, hall⟩ := hcompletes
  have hinv : (∃ frames front, session.Keeps table format frames front) ∧
        session.SentFit format ∧ session.log.Replied (Dispatcher.reply table) ∨
      session.Halted table format := by
    refine run_invariant_of_along (fun session : Session MethodHandler =>
      (∃ frames front, session.Keeps table format frames front) ∧
        session.SentFit format ∧ session.log.Replied (Dispatcher.reply table) ∨
      session.Halted table format) ?_
      (.inl ⟨⟨[], [], fresh_keeps table format⟩, fun _ hmem => absurd hmem List.not_mem_nil,
        Log.replied_empty⟩)
      ((guarded_of_forall_mem hopen).and hguarded) hrun
    rintro session event next (⟨⟨frames, front, hkeeps⟩, hfit, hreplied⟩ | hhalted)
      ⟨hopen, hhandled⟩ hstep
    · by_cases hsendable : session.SendsSendable format event
      · refine .inl ⟨hkeeps.step hopen ?_ hstep, sentFit_step hkeeps hfit hsendable hstep,
          replied_step hkeeps hreplied hhandled hstep⟩
        intro response hphase
        cases event with
        | send sends => exact hsendable response hphase
        | recv reads => simp [Session.step, hphase] at hstep
        | handled outcome => simp [Session.step, hphase] at hstep
      · exact .inr (hkeeps.halts hinverse hfit hreplied hsendable hstep)
    · exact .inr (hhalted.step hstep)
  rcases hinv with ⟨⟨frames, front, hkeeps⟩, hfit, hreplied⟩ | hhalted
  · have hfits : session.log.Fits format := by
      apply hfit.of_not_sending
      rcases hrest with hended | ⟨hreceiving, -⟩
      · simp [hended]
      · simp [hreceiving]
    obtain ⟨-, hserved, hbreaks⟩ := hkeeps.serves hinverse hfits
    have hemitted := (hserved hrest).emitted hreplied hfits
    rcases hall with rfl | hended
    · rwa [List.append_nil]
    · rwa [(hbreaks hended).envelopes_append]
  · exact hhalted.short.emitted rest

end Session

end Ibridger.Cpp
