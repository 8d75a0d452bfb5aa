import Ibridger.Cpp.ResultSize
import Ibridger.Js.ResultSize
import Ibridger.Protocol.Session

/-! # Large results

Whether a response fits into a frame is found out when it is sent, and neither
server then sends anything else.
-/

namespace Ibridger.Protocol

open Rpc Transition Wire

/-- In both servers a session answers all its requests, whatever the handlers
return, in exactly the runs in which every response can be sent. -/
theorem answers_any_size_iff {Handler : Type} (table : ServiceTable Handler)
    (format : EnvelopeFormat) (hinverse : format.Inverse) :
    (∀ events : List Js.SessionEvent,
      Throughout (Js.Session.step table format) (Js.Session.AnswersAll table format)
          Js.Session.fresh events ↔
        Guarded (Js.Session.step table format) (Js.Session.RespondsSendable table format)
          Js.Session.fresh events) ∧
    ∀ events : List Cpp.SessionEvent, (∀ event ∈ events, event.Open) →
      (Throughout (Cpp.Session.step table format) (Cpp.Session.AnswersAll format)
          Cpp.Session.fresh events ↔
        Guarded (Cpp.Session.step table format) (Cpp.Session.SendsSendable format)
          Cpp.Session.fresh events) :=
  ⟨Js.Session.answersAll_iff hinverse, fun _ hopen => Cpp.Session.answersAll_iff hinverse hopen⟩

/-- Without services, the answer to the nameless request is an error that fits. -/
theorem nameless_request_answered :
    Throughout (Js.Session.step (fun _ => none : ServiceTable Unit) namelessFormat)
        (Js.Session.AnswersAll (fun _ => none) namelessFormat) Js.Session.fresh
        [.data [0, 0, 0, 2, 16, 1], .resume, .resume] ∧
      Throughout (Cpp.Session.step (fun _ => none : ServiceTable Unit) namelessFormat)
        (Cpp.Session.AnswersAll namelessFormat) Cpp.Session.fresh
        [.recv [.got [0, 0, 0, 2, 16, 1]]] := by
  have hinverse : namelessFormat.Inverse :=
    EnvelopeFormat.knowing_inverse (by decide)
  have hsendable : Sendable namelessFormat namelessResponse := ⟨_, rfl, by decide⟩
  have hparse : namelessFormat.parse [16, 1] = .ok namelessRequest :=
    EnvelopeFormat.knowing_parse (by decide) List.mem_cons_self
  obtain ⟨hjs, hcpp⟩ :=
    @answers_any_size_iff Unit (fun _ => none) namelessFormat hinverse
  constructor
  · apply (hjs _).mpr
    refine .cons rfl trivial (.cons rfl ?_ (.cons rfl ?_ trivial))
    · intro read frame conn request response hphase hresume
      cases hphase
      cases hresume
    · intro read frame conn request response hphase hresume hrequest hlocate
      cases hphase
      cases hresume
      cases hparse.symm.trans hrequest
      cases hlocate
      exact hsendable
  · refine (hcpp _ ?_).mpr ?_
    · intro event hevent
      rw [List.mem_singleton.mp hevent]
      intro read hread
      exact .inr ⟨_, List.cons_ne_nil _ _, List.mem_singleton.mp hread⟩
    · intro next hnext
      exact ⟨trivial, trivial⟩

/-- A payload that would fill a frame by itself. -/
def largePayload : List UInt8 := List.replicate MAX_FRAME_SIZE 0

def largeResponse : Envelope :=
  { Envelope.empty with type := .response, requestId := 1, payload := largePayload }

/-- The request and the response as protobuf writes them. -/
def largeMessages : List (Envelope × List UInt8) :=
  [(namelessRequest, [16, 1]),
    (largeResponse, [8, 1, 16, 1, 42, 128, 128, 128, 8] ++ largePayload)]

theorem largeMessages_inverse : (EnvelopeFormat.knowing largeMessages).Inverse := by
  apply EnvelopeFormat.knowing_inverse
  simp [largeMessages]

theorem largeMessages_serialize : (EnvelopeFormat.knowing largeMessages).serialize largeResponse =
    some ([8, 1, 16, 1, 42, 128, 128, 128, 8] ++ largePayload) := by
  apply EnvelopeFormat.knowing_serialize
  · simp [largeMessages, namelessRequest, largeResponse, Envelope.empty]
  · simp [largeMessages]

theorem largeMessages_parse :
    (EnvelopeFormat.knowing largeMessages).parse [16, 1] = .ok namelessRequest := by
  apply EnvelopeFormat.knowing_parse
  · simp [largeMessages]
  · simp [largeMessages]

theorem large_not_sendable : ¬ Sendable (.knowing largeMessages) largeResponse := by
  intro hsendable
  have hlength := hsendable.length_le largeMessages_serialize
  rw [List.length_append, largePayload, List.length_replicate] at hlength
  simp at hlength

def largeExchange : Exchange where
  request := namelessRequest
  outcome := some (.returned largePayload)
  response := largeResponse

/-- One service with one method, both of any name. -/
def oneMethod : ServiceTable Unit := fun _ => some fun _ => some ()

/-- The handler of the first request returns a payload of the size of a frame: both
servers end the session without an answer. -/
theorem large_result_ends_session :
    (EnvelopeFormat.knowing largeMessages).Inverse ∧ (∃ session : Js.Session Unit,
      run (Js.Session.step oneMethod (.knowing largeMessages)) Js.Session.fresh
          [.data [0, 0, 0, 2, 16, 1], .resume, .resume, .handled (.returned largePayload)] =
        some session ∧
      session.phase = .ended ∧ session.conn.output = [] ∧
      ¬ session.AnswersAll oneMethod (.knowing largeMessages)) ∧
    ∃ session : Cpp.Session Unit,
      run (Cpp.Session.step oneMethod (.knowing largeMessages)) Cpp.Session.fresh
          [.recv [.got [0, 0, 0, 2, 16, 1]], .handled (.returned largePayload),
            .send [.accepted 100]] = some session ∧
      session.phase = .ended ∧ session.conn.wire = [] ∧
      ¬ session.AnswersAll (.knowing largeMessages) := by
  refine ⟨largeMessages_inverse, ?_, ?_⟩
  · obtain ⟨session, read, conn, hrun, hphase, hresume, hunsent, hlog⟩ :
        ∃ (session : Js.Session Unit) (read : Js.FrameRead) (conn : Js.UnixSocketConnection),
          run (Js.Session.step oneMethod (.knowing largeMessages)) Js.Session.fresh
              [.data [0, 0, 0, 2, 16, 1], .resume] = some session ∧
            session.phase = .receiving read ∧
            read.resume session.conn = some (.settled (.ok [16, 1]), conn) ∧
            conn.output = [] ∧ session.log = .empty :=
      ⟨_, _, _, rfl, rfl, rfl, rfl, rfl⟩
    obtain ⟨handling, htaken, hhandling, hconn, hresponses⟩ :
        ∃ handling : Js.Session Unit,
          session.step oneMethod (.knowing largeMessages) .resume = some handling ∧
            handling.phase = .handling namelessRequest ∧ handling.conn.output = [] ∧
            handling.log.responses = [] := by
      simp only [Js.Session.step, hphase, hresume, Option.map_some, Js.Session.received,
        largeMessages_parse]
      exact ⟨_, rfl, rfl, hunsent, by rw [← @Log.responses_empty Unit, ← hlog]; rfl⟩
    have hanswered : handling.step oneMethod (.knowing largeMessages)
        (.handled (.returned largePayload)) =
          some (handling.respond (.knowing largeMessages) largeExchange) := by
      simp only [Js.Session.step, hhandling]
      rfl
    have hended := @Js.Session.respond_of_refused _ (.knowing largeMessages) handling largeExchange
      large_not_sendable
    refine ⟨handling.respond _ largeExchange, ?_, ?_, ?_,
      @Js.Session.not_answersAll_respond _ _ _ _ largeExchange large_not_sendable ?_⟩
    · exact (run_append_of_run hrun).trans
        (run_cons_eq_some.mpr ⟨_, htaken, run_cons_eq_some.mpr ⟨_, hanswered, rfl⟩⟩)
    · rw [hended]
      rfl
    · rw [hended]
      exact hconn
    · rw [hconn, hresponses]
      exact .nil
  · have hflowing : Cpp.Flowing [.got [0, 0, 0, 2, 16, 1]] := by
      intro read hread
      exact .inr ⟨_, List.cons_ne_nil _ _, List.mem_singleton.mp hread⟩
    obtain ⟨left, hframe, -⟩ := Cpp.FramedConnection.recvFrame_of_frame
      { Cpp.UnixSocketConnection.ofFd 3 0 with reads := [.got [0, 0, 0, 2, 16, 1]] }
      hflowing.delivers
      (@LengthPrefix.Header.scan_frame_append _ frameHeader [16, 1] (by decide) [])
    obtain ⟨handling, htaken, hhandling, hunsent, hexchanges⟩ :
        ∃ handling : Cpp.Session Unit,
          Cpp.Session.fresh.step oneMethod (.knowing largeMessages)
              (.recv [.got [0, 0, 0, 2, 16, 1]]) = some handling ∧
            handling.phase = .handling namelessRequest ∧ handling.conn.wire = [] ∧
            handling.log.exchanges = [] := by
      have hrecv : Cpp.EnvelopeCodec.recv (.knowing largeMessages)
          { Cpp.UnixSocketConnection.ofFd 3 0 with reads := [.got [0, 0, 0, 2, 16, 1]] } =
            some (.ok namelessRequest,
              { Cpp.UnixSocketConnection.ofFd 3 0 with reads := left }) := by
        rw [Cpp.EnvelopeCodec.recv, hframe]
        dsimp only
        rw [largeMessages_parse]
      exact ⟨_, congrArg (Option.map _) hrecv, rfl, rfl, rfl⟩
    have hanswered : handling.step oneMethod (.knowing largeMessages)
        (.handled (.returned largePayload)) = some (handling.respond largeExchange) := by
      simp only [Cpp.Session.step, hhandling]
      rfl
    obtain ⟨last, hlast, hended, hwire, hlog⟩ :=
      @Cpp.Session.step_send_of_refused _ oneMethod _ (handling.respond largeExchange)
        largeResponse rfl large_not_sendable [.accepted 100]
    refine ⟨last, ?_, hended, hwire.trans hunsent, ?_⟩
    · exact run_cons_eq_some.mpr ⟨_, htaken, run_cons_eq_some.mpr
        ⟨_, hanswered, run_cons_eq_some.mpr ⟨_, hlast, rfl⟩⟩⟩
    · intro hanswers
      obtain ⟨hall, -⟩ := hanswers.goes_on hended
      have hlogged : last.log.exchanges = handling.log.exchanges ++ [largeExchange] := by
        rw [hlog]
        rfl
      rw [hwire.trans hunsent, hlogged, hexchanges] at hall
      exact @not_answered _ [largeExchange] [] [] .nil Nat.zero_lt_one hall

end Ibridger.Protocol
