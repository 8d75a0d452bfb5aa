import Ibridger.Cpp.Session
import Ibridger.Rpc.ResultSize

/-! # Large results in the C++ server

`send_frame` refuses a payload that is too large before it writes anything, and
`handle_connection` takes every failed `send` for the end of the connection.
-/

namespace Ibridger.Cpp.Session

open LengthPrefix Rpc Transition Wire

variable {Handler : Type} {table : ServiceTable Handler} {format : EnvelopeFormat}

variable (format) in
/-- The response that the step is to send can be sent. -/
def SendsSendable (session : Session Handler) : SessionEvent → Prop
  | .send _ => ∀ response, session.phase = .sending response → Sendable format response
  | _ => True

variable (format) in
def AnswersAll (session : Session Handler) : Prop :=
  Rpc.AnswersAll format session.arrived session.conn.wire session.log (session.phase = .ended)
    (session.AtRest format)

variable (format) in
/-- All responses can be sent but the one that is still to be sent. -/
def SentFit (session : Session Handler) : Prop :=
  match session.phase with
  | .sending _ => ∀ response ∈ session.log.responses.dropLast, Sendable format response
  | .receiving | .handling _ | .ended => session.log.Fits format

theorem SentFit.of_not_sending {session : Session Handler} (hfit : session.SentFit format)
    (hphase : ∀ response, session.phase ≠ .sending response) : session.log.Fits format := by
  unfold SentFit at hfit
  split at hfit
  next response hsending => exact absurd hsending (hphase response)
  · exact hfit
  · exact hfit
  · exact hfit

theorem Keeps.answersAll {session : Session Handler} {frames : List (List UInt8)}
    {front : List UInt8} (hinverse : format.Inverse)
    (hkeeps : session.Keeps table format frames front) (hfit : session.SentFit format) :
    session.AnswersAll format := by
  have hanswered : (∀ response, session.phase ≠ .sending response) →
      format.Emitted session.conn.wire session.log.responses →
      Answered format session.conn.wire session.log.exchanges :=
    fun hphase houtput => hkeeps.sound.answered (hfit.of_not_sending hphase) houtput
  have hserves : (∀ response, session.phase ≠ .sending response) →
      (session.AtRest format → Served format session.arrived session.conn.wire session.log) ∧
        (session.phase = .ended → format.Breaks session.arrived) :=
    fun hphase => (hkeeps.serves hinverse (hfit.of_not_sending hphase)).2
  refine ⟨?_, ?_, ?_⟩
  · cases hkeeps.stands with
    | receiving hphase hidle houtput =>
        refine ⟨_, [], List.prefix_rfl, ?_⟩
        rw [List.append_nil]
        exact hanswered (by simp [hphase]) (houtput.emitted hinverse)
    | handling request hphase hcurrent houtput =>
        refine ⟨_, [], List.prefix_rfl, ?_⟩
        rw [List.append_nil]
        exact hanswered (by simp [hphase]) (houtput.emitted hinverse)
    | ended hphase hidle hunreadable houtput =>
        refine ⟨_, [], List.prefix_rfl, ?_⟩
        rw [List.append_nil]
        exact hanswered (by simp [hphase]) (houtput.emitted hinverse)
    | sending response earlier hphase hidle hresponses houtput =>
        -- what is written so far answers all exchanges but the last
        refine ⟨session.log.exchanges.dropLast, [], List.dropLast_prefix _, ?_⟩
        have hearlier : session.log.exchanges.dropLast.map Exchange.response = earlier := by
          rw [List.map_dropLast]
          change session.log.responses.dropLast = earlier
          rw [hresponses, List.dropLast_concat]
        rw [List.append_nil]
        refine answered_of_emitted (fun exchange hmem => hkeeps.sound.answers exchange ?_) ?_ ?_
        · exact List.dropLast_subset _ hmem
        · intro exchange hmem
          unfold SentFit at hfit
          rw [hphase] at hfit
          apply hfit
          rw [Log.responses, ← List.map_dropLast]
          exact List.mem_map_of_mem hmem
        · rw [hearlier]
          exact houtput.emitted hinverse
  · intro hended
    refine ⟨?_, (hserves (by simp [hended])).2 hended⟩
    cases hkeeps.stands with
    | receiving hother => rw [hended] at hother; cases hother
    | handling request hother => rw [hended] at hother; cases hother
    | sending response earlier hother => rw [hended] at hother; cases hother
    | ended hphase hidle hunreadable houtput =>
        exact hanswered (by simp [hphase]) (houtput.emitted hinverse)
  · intro hrest
    have hphase : ∀ response, session.phase ≠ .sending response := by
      rcases hrest with hended | ⟨hreceiving, -⟩
      · simp [hended]
      · simp [hreceiving]
    obtain ⟨hrequests, houtput⟩ := (hserves hphase).1 hrest
    exact ⟨hanswered hphase houtput, hrequests⟩

/-- A response that is still to be sent comes behind responses that were sent. -/
theorem sentFit_respond {session : Session Handler} {exchange : Exchange}
    (hfits : session.log.Fits format) : (session.respond exchange).SentFit format := by
  change ∀ response ∈ (session.log.answer exchange).responses.dropLast, Sendable format response
  rw [Log.responses_answer, List.dropLast_concat]
  exact hfits

theorem sentFit_step {session next : Session Handler} {frames : List (List UInt8)}
    {front : List UInt8} {event : SessionEvent}
    (hkeeps : session.Keeps table format frames front) (hfit : session.SentFit format)
    (hsends : session.SendsSendable format event)
    (hstep : session.step table format event = some next) : next.SentFit format := by
  cases event with
  | recv reads =>
      simp only [Session.step] at hstep
      split at hstep
      next hphase =>
        obtain ⟨⟨result, conn⟩, -, rfl⟩ := Option.map_eq_some_iff.mp hstep
        have hfits := hfit.of_not_sending (by simp [hphase])
        cases result with
        | error err => exact hfits
        | ok request =>
            simp only [Session.received, Session.dispatch]
            split
            · exact sentFit_respond hfits
            · exact hfits
      · cases hstep
  | handled outcome =>
      simp only [Session.step] at hstep
      split at hstep
      next request hphase =>
        cases hstep
        exact sentFit_respond (hfit.of_not_sending (by simp [hphase]))
      · cases hstep
  | send sends =>
      simp only [Session.step] at hstep
      split at hstep
      next response hphase =>
        obtain ⟨⟨error, conn⟩, -, rfl⟩ := Option.map_eq_some_iff.mp hstep
        have hfits : session.log.Fits format := by
          obtain ⟨earlier, -, hresponses, -⟩ := hkeeps.stands.of_sending hphase
          unfold SentFit at hfit
          rw [hphase, hresponses, List.dropLast_concat] at hfit
          intro other hother
          rw [hresponses] at hother
          rcases List.mem_append.mp hother with hold | hnew
          · exact hfit other hold
          · rw [List.mem_singleton.mp hnew]
            exact hsends response hphase
        cases error with
        | none => exact hfits
        | some err => exact hfits
      · cases hstep

theorem step_send_of_refused {session : Session Handler} {response : Envelope}
    (hphase : session.phase = .sending response) (hrefused : ¬ Sendable format response)
    (sends : List SendOutcome) :
    ∃ next, session.step table format (.send sends) = some next ∧ next.phase = .ended ∧
      next.conn.wire = session.conn.wire ∧ next.log = session.log := by
  rcases cases_of_not_sendable hrefused with hserialize | ⟨bytes, hserialize, hlarge⟩
  · simp only [Session.step, hphase, EnvelopeCodec.send, hserialize, Option.map_some]
    exact ⟨_, rfl, rfl, rfl, rfl⟩
  · simp only [Session.step, hphase, EnvelopeCodec.send, hserialize]
    rw [FramedConnection.sendFrame, if_pos hlarge, Option.map_some]
    exact ⟨_, rfl, rfl, rfl, rfl⟩

/-- A response that cannot be sent ends the session, unanswered. -/
theorem not_answersAll {session next : Session Handler} {frames : List (List UInt8)}
    {front : List UInt8} {event : SessionEvent} (hinverse : format.Inverse)
    (hkeeps : session.Keeps table format frames front)
    (hrefused : ¬ session.SendsSendable format event)
    (hstep : session.step table format event = some next) : ¬ next.AnswersAll format := by
  cases event with
  | send sends =>
      simp only [SendsSendable, not_forall] at hrefused
      obtain ⟨response, hphase, hlarge⟩ := hrefused
      obtain ⟨next', hnext, hended, hwire, hlog⟩ :=
        @step_send_of_refused _ table _ _ _ hphase hlarge sends
      cases hnext.symm.trans hstep
      intro hanswers
      obtain ⟨hanswered, -⟩ := hanswers.goes_on hended
      obtain ⟨earlier, -, hresponses, houtput⟩ := hkeeps.stands.of_sending hphase
      refine not_answered (hwire ▸ houtput.emitted hinverse) ?_ hanswered
      have hlength := congrArg List.length hresponses
      rw [Log.responses, List.length_map, List.length_append] at hlength
      rw [hlog, hlength]
      exact Nat.lt_succ_self _
  | recv | handled => exact absurd trivial hrefused

/-- A session with a peer that reads and writes on answers everything in exactly
the runs in which every response that comes to be sent can be sent. -/
theorem answersAll_iff (hinverse : format.Inverse) {events : List SessionEvent}
    (hopen : ∀ event ∈ events, event.Open) :
    Throughout (Session.step table format) (AnswersAll format) fresh events ↔
      Guarded (Session.step table format) (SendsSendable format) fresh events := by
  refine throughout_iff_guarded_of
    (fun session : Session Handler =>
      session.SentFit format ∧ ∃ frames front, session.Keeps table format frames front)
    ?_ ?_ ?_ ?_ (guarded_of_forall_mem hopen)
  · rintro session ⟨hfit, frames, front, hkeeps⟩
    exact hkeeps.answersAll hinverse hfit
  · rintro session event next ⟨hfit, frames, front, hkeeps⟩ hevent hsends hstep
    refine ⟨sentFit_step hkeeps hfit hsends hstep, hkeeps.step hevent ?_ hstep⟩
    intro response hphase
    cases event with
    | send sends => exact hsends response hphase
    | recv reads => simp [Session.step, hphase] at hstep
    | handled outcome => simp [Session.step, hphase] at hstep
  · rintro session event next ⟨-, frames, front, hkeeps⟩ - hrefused hstep
    exact not_answersAll hinverse hkeeps hrefused hstep
  · exact ⟨fun _ hmem => (by cases hmem), [], [], fresh_keeps table format⟩

end Ibridger.Cpp.Session
