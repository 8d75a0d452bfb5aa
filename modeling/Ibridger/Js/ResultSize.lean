import Ibridger.Js.Session
import Ibridger.Rpc.ResultSize

/-! # Large results in the JS server

`sendFrame` rejects a frame that is too large, and the dispatch loop takes every
rejection of `send` for the end of the connection.
-/

namespace Ibridger.Js.Session

open LengthPrefix Rpc Transition UnixSocketConnection Wire

variable {Handler : Type} {services : ServiceTable Handler} {format : EnvelopeFormat}

variable (services format) in
/-- The response that the step makes can be sent. -/
def RespondsSendable (session : Session Handler) : SessionEvent → Prop
  | .handled outcome => ∀ request, session.phase = .handling request →
      Sendable format (Dispatch.respond request outcome)
  | .resume => ∀ read frame conn request response, session.phase = .receiving read →
      read.resume session.conn = some (.settled (.ok frame), conn) →
      format.parse frame = .ok request → Dispatch.locate services request = .error response →
      Sendable format response
  | _ => True

variable (services format) in
def AnswersAll (session : Session Handler) : Prop :=
  Rpc.AnswersAll format session.conn.received session.conn.output session.log
    (session.phase = .ended) (session.AtRest services format)

theorem Keeps.answersAll {session : Session Handler} {frames : List (List UInt8)}
    {front : List UInt8} (hinverse : format.Inverse)
    (hkeeps : session.Keeps services format frames front) (hfits : session.log.Fits format) :
    session.AnswersAll services format := by
  obtain ⟨hserves, hserved, hbreaks⟩ := hkeeps.serves hinverse hfits
  refine ⟨?_, ?_, ?_⟩
  · obtain ⟨rest, houtput⟩ := hserves.output_prefix
    exact ⟨_, rest, List.prefix_rfl, hkeeps.sound.answered hfits houtput⟩
  · intro hended
    refine ⟨?_, hbreaks hended⟩
    cases hkeeps.stands with
    | receiving read hother => rw [hended] at hother; cases hother
    | handling request hother => rw [hended] at hother; cases hother
    | sending send response bytes before earlier hother => rw [hended] at hother; cases hother
    | ended hphase hclosed hidle hunreadable houtput =>
        exact hkeeps.sound.answered hfits (houtput.emitted hinverse)
  · intro hrest
    obtain ⟨hrequests, houtput⟩ := hserved hrest
    exact ⟨hkeeps.sound.answered hfits houtput, hrequests⟩

theorem fits_answer {log : Log Handler} {exchange : Exchange} (hfits : log.Fits format)
    (hsendable : Sendable format exchange.response) : (log.answer exchange).Fits format := by
  intro response hresponse
  rw [Log.responses_answer] at hresponse
  rcases List.mem_append.mp hresponse with hold | hnew
  · exact hfits response hold
  · rw [List.mem_singleton.mp hnew]
    exact hsendable

/-- Sendable responses keep all responses sendable. -/
theorem fits_step {session next : Session Handler} {event : SessionEvent}
    (hfits : session.log.Fits format) (hresponds : session.RespondsSendable services format event)
    (hstep : session.step services format event = some next) : next.log.Fits format := by
  cases event with
  | data chunk =>
      simp only [Session.step] at hstep
      split at hstep
      · cases hstep
        exact hfits
      · cases hstep
  | written send =>
      simp only [Session.step] at hstep
      split at hstep
      · cases hstep
        exact hfits
      · cases hstep
  | handled outcome =>
      simp only [Session.step] at hstep
      split at hstep
      next request hphase =>
        cases hstep
        rw [respond_log]
        exact fits_answer hfits (hresponds request hphase)
      · cases hstep
  | resume =>
      simp only [Session.step] at hstep
      split at hstep
      next read hphase =>
        obtain ⟨⟨read', conn⟩, hresume, rfl⟩ := Option.map_eq_some_iff.mp hstep
        cases read' with
        | header => exact hfits
        | body => exact hfits
        | settled result =>
            cases result with
            | error => exact hfits
            | ok frame =>
                simp only [Session.received]
                split
                · exact hfits
                next request hparse =>
                  unfold dispatch
                  split
                  next response hlocate =>
                    rw [respond_log]
                    exact fits_answer hfits
                      (hresponds read frame conn request response hphase hresume hparse hlocate)
                  · exact hfits
      next send hphase =>
        obtain ⟨result, -, rfl⟩ := Option.map_eq_some_iff.mp hstep
        rw [sent_log]
        exact hfits
      · cases hstep

theorem respond_of_refused (session : Session Handler) {exchange : Exchange}
    (hrefused : ¬ Sendable format exchange.response) :
    session.respond format exchange =
      { session with log := session.log.answer exchange }.finish := by
  rcases cases_of_not_sendable hrefused with hserialize | ⟨bytes, hserialize, hlarge⟩
  · rw [respond, hserialize]
  · rw [respond, hserialize]
    dsimp only
    rw [sendFrame, if_pos hlarge]
    rfl

/-- A response that cannot be sent ends the session, unanswered. -/
theorem not_answersAll_respond {session : Session Handler} {exchange : Exchange}
    (hrefused : ¬ Sendable format exchange.response)
    (houtput : format.Emitted session.conn.output session.log.responses) :
    ¬ (session.respond format exchange).AnswersAll services format := by
  rw [session.respond_of_refused hrefused]
  intro hanswers
  obtain ⟨hanswered, -⟩ := hanswers.goes_on rfl
  refine not_answered houtput ?_ hanswered
  change session.log.responses.length < (session.log.exchanges ++ [exchange]).length
  rw [Log.responses, List.length_map, List.length_append]
  exact Nat.lt_succ_self _

theorem not_answersAll {session next : Session Handler} {frames : List (List UInt8)}
    {front : List UInt8} {event : SessionEvent} (hinverse : format.Inverse)
    (hkeeps : session.Keeps services format frames front)
    (hrefused : ¬ session.RespondsSendable services format event)
    (hstep : session.step services format event = some next) :
    ¬ next.AnswersAll services format := by
  cases event with
  | handled outcome =>
      simp only [RespondsSendable, not_forall] at hrefused
      obtain ⟨request, hphase, hlarge⟩ := hrefused
      simp only [Session.step, hphase] at hstep
      cases hstep
      apply not_answersAll_respond hlarge
      exact (hkeeps.stands.of_handling hphase).2.2.2.2.emitted hinverse
  | resume =>
      simp only [RespondsSendable, not_forall] at hrefused
      obtain ⟨read, frame, conn, request, response, hphase, hresume, hparse, hlocate, hlarge⟩ :=
        hrefused
      have hnext : ({ session with conn := conn }.respond format ⟨request, none, response⟩) =
          next := by
        simp only [Session.step, hphase, hresume, Option.map_some, Session.received, hparse] at hstep
        rw [dispatch, hlocate] at hstep
        exact Option.some_inj.mp hstep
      rw [← hnext]
      apply not_answersAll_respond hlarge
      obtain ⟨-, -, hreading, houtput⟩ := hkeeps.stands.of_receiving hphase
      obtain ⟨-, hframe⟩ := hreading.resume hresume
      dsimp only
      rw [hframe]
      exact houtput.emitted hinverse
  | data | written => exact absurd trivial hrefused

/-- A session answers everything in exactly the runs in which every response can
be sent. -/
theorem answersAll_iff (hinverse : format.Inverse) (events : List SessionEvent) :
    Throughout (Session.step services format) (AnswersAll services format) fresh events ↔
      Guarded (Session.step services format) (RespondsSendable services format) fresh events := by
  apply throughout_iff_guarded fun session : Session Handler =>
    session.log.Fits format ∧ ∃ frames front, session.Keeps services format frames front
  · rintro session ⟨hfits, frames, front, hkeeps⟩
    exact hkeeps.answersAll hinverse hfits
  · rintro session event next ⟨hfits, frames, front, hkeeps⟩ hresponds hstep
    have hnext := fits_step hfits hresponds hstep
    exact ⟨hnext, hkeeps.step hnext hstep⟩
  · rintro session event next ⟨-, frames, front, hkeeps⟩ hrefused hstep
    exact not_answersAll hinverse hkeeps hrefused hstep
  · exact ⟨fun _ hmem => (by cases hmem), [], [], fresh_keeps⟩

end Ibridger.Js.Session
