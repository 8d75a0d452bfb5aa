import Ibridger.Cpp.Replies

/-! # C++ sessions that answer as functions

What holds of a session whose handlers are functions, at any point and not only at rest,
as long as the responses to the requests that have come can be sent.
-/

namespace Ibridger.Cpp.Session

open LengthPrefix Rpc Transition Wire

variable (table : ServiceTable MethodHandler) (format : EnvelopeFormat)

/-- Every response so far is the one to its request and can be sent. -/
structure Answering (session : Session MethodHandler) : Prop where
  keeps : ∃ frames front, session.Keeps table format frames front
  fits : session.log.Fits format
  replied : session.log.Replied (Dispatcher.reply table)

variable {table format} {session next : Session MethodHandler}

theorem fresh_answering : Answering table format fresh :=
  ⟨⟨[], [], fresh_keeps table format⟩, fun _ hmem => absurd hmem List.not_mem_nil,
    Log.replied_empty⟩

theorem dispatch_arrived (session : Session MethodHandler) (request : Envelope) :
    (session.dispatch table request).arrived = session.arrived := by
  unfold dispatch
  split <;> rfl

/-- A step takes nothing back of what has come. -/
theorem step_arrived {event : SessionEvent} (hstep : session.step table format event = some next) :
    session.arrived <+: next.arrived := by
  cases event with
  | recv reads =>
      simp only [Session.step] at hstep
      split at hstep
      · obtain ⟨⟨result, conn⟩, -, rfl⟩ := Option.map_eq_some_iff.mp hstep
        cases result with
        | error err => exact List.prefix_append _ _
        | ok request =>
            simp only [Session.received, dispatch_arrived]
            exact List.prefix_append _ _
      · cases hstep
  | handled outcome =>
      simp only [Session.step] at hstep
      split at hstep
      · cases hstep
        exact List.prefix_rfl
      · cases hstep
  | send sends =>
      simp only [Session.step] at hstep
      split at hstep
      · obtain ⟨⟨error, conn⟩, -, rfl⟩ := Option.map_eq_some_iff.mp hstep
        cases error <;> exact List.prefix_rfl
      · cases hstep

/-- The responses are those to requests that have come. -/
theorem Keeps.fits_of_replied {frames : List (List UInt8)} {front : List UInt8}
    (hkeeps : session.Keeps table format frames front)
    (hreplied : session.log.Replied (Dispatcher.reply table))
    (hsendable : ∀ request ∈ format.envelopes session.arrived,
      Sendable format (Dispatcher.reply table request)) : session.log.Fits format := by
  intro response hresponse
  obtain ⟨exchange, hexchange, rfl⟩ := List.mem_map.mp hresponse
  rw [hreplied exchange hexchange]
  apply hsendable
  rw [hkeeps.envelopes_eq, Log.requests, List.append_assoc]
  exact List.mem_append_left _ (List.mem_map_of_mem hexchange)

theorem Answering.step {event : SessionEvent}
    (hanswering : session.Answering table format) (hopen : event.Open)
    (hhandled : session.HandledBy table event)
    (hsendable : ∀ request ∈ format.envelopes next.arrived,
      Sendable format (Dispatcher.reply table request))
    (hstep : session.step table format event = some next) : next.Answering table format := by
  obtain ⟨⟨frames, front, hkeeps⟩, hfits, hreplied⟩ := hanswering
  obtain ⟨frames', front', hkeeps'⟩ := hkeeps.step hopen
    (fun response hphase => hfits response (hkeeps.mem_responses hphase)) hstep
  have hreplied' := replied_step hkeeps hreplied hhandled hstep
  exact ⟨⟨frames', front', hkeeps'⟩, hkeeps'.fits_of_replied hreplied' hsendable, hreplied'⟩

theorem answering_of_run {events : List SessionEvent}
    (hopen : ∀ event ∈ events, event.Open)
    (hguarded : Guarded (Session.step table format) (HandledBy table) fresh events)
    (hrun : run (Session.step table format) fresh events = some session)
    (hsendable : ∀ request ∈ format.envelopes session.arrived,
      Sendable format (Dispatcher.reply table request)) : session.Answering table format := by
  refine run_invariant_of_along (fun session : Session MethodHandler =>
    (∀ request ∈ format.envelopes session.arrived,
      Sendable format (Dispatcher.reply table request)) → session.Answering table format) ?_
    (fun _ => fresh_answering) ((guarded_of_forall_mem hopen).and hguarded) hrun hsendable
  rintro session event next hbefore ⟨hopen, hhandled⟩ hstep hsendable
  have hanswering := hbefore fun request hrequest => hsendable request
    ((EnvelopeFormat.envelopes_mono (step_arrived hstep)).subset hrequest)
  exact hanswering.step hopen hhandled hsendable hstep

end Ibridger.Cpp.Session
