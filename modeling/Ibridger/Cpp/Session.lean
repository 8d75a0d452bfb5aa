import Ibridger.Cpp.Dispatcher
import Ibridger.Cpp.FrameStream
import Ibridger.Foundation.Runs

/-! # A C++ server session

`Server::handle_connection` of `server.cpp`: one thread that receives a request,
dispatches it and sends the response, until either call fails. A step is one
blocking call with everything it waits for; the handler of a request may take
any time and end in any way.
-/

namespace Ibridger.Cpp

open LengthPrefix Rpc Transition Wire

/-- Where the thread of a session is. -/
inductive SessionPhase where
  | receiving
  | handling (request : Envelope)
  | sending (response : Envelope)
  | ended
deriving DecidableEq

structure Session (Handler : Type) where
  conn : UnixSocketConnection
  phase : SessionPhase
  log : Log Handler
  /-- The bytes that have come from the peer. -/
  arrived : List UInt8

/-- What a session waits for: the answers to the reads of a `recv`, the end of a
handler, or the answers to the writes of a `send`. -/
inductive SessionEvent where
  | recv (reads : List ReadOutcome)
  | handled (outcome : HandlerOutcome)
  | send (sends : List SendOutcome)
deriving DecidableEq

/-- The peer keeps the connection open and takes what is sent to it. -/
def SessionEvent.Open : SessionEvent → Prop
  | .recv reads => Flowing reads
  | .handled _ => True
  | .send sends => Accepting sends

namespace Session

variable {Handler : Type} (table : ServiceTable Handler) (format : EnvelopeFormat)

def fresh : Session Handler where
  conn := .ofFd 3 0
  phase := .receiving
  log := .empty
  arrived := []

def respond (session : Session Handler) (exchange : Exchange) : Session Handler :=
  { session with log := session.log.answer exchange, phase := .sending exchange.response }

def dispatch (session : Session Handler) (request : Envelope) : Session Handler :=
  match Dispatcher.locate table request with
  | .error response => session.respond ⟨request, none, response⟩
  | .ok handler =>
      { session with log := session.log.call handler request, phase := .handling request }

def received (session : Session Handler) :
    Except ErrorCode Envelope × UnixSocketConnection → Session Handler
  | (.error _, conn) => { session with conn := conn, phase := .ended }
  | (.ok request, conn) => { session with conn := conn }.dispatch table request

def sent (session : Session Handler) :
    Option ErrorCode × UnixSocketConnection → Session Handler
  | (some _, conn) => { session with conn := conn, phase := .ended }
  | (none, conn) => { session with conn := conn, phase := .receiving }

def step (session : Session Handler) : SessionEvent → Option (Session Handler)
  | .recv reads =>
      if session.phase = .receiving then
        (EnvelopeCodec.recv format
          { session.conn with reads := session.conn.reads ++ reads }).map
          ({ session with arrived := session.arrived ++ bytesOf reads }.received table)
      else none
  | .handled outcome =>
      match session.phase with
      | .handling request =>
          some (session.respond ⟨request, some outcome.outcome, Dispatcher.respond request outcome⟩)
      | _ => none
  | .send sends =>
      match session.phase with
      | .sending response =>
          (EnvelopeCodec.send format
            { session.conn with sends := session.conn.sends ++ sends } response).map session.sent
      | _ => none

/-- How the session stands between the bytes that are in front of it and the
responses. -/
inductive Stands (session : Session Handler) (front : List UInt8) : Prop where
  | receiving (hphase : session.phase = .receiving) (hidle : session.log.current = none)
      (houtput : format.Wrote session.conn.wire session.log.responses)
  | handling (request : Envelope) (hphase : session.phase = .handling request)
      (hcurrent : session.log.current = some request)
      (houtput : format.Wrote session.conn.wire session.log.responses)
  | sending (response : Envelope) (earlier : List Envelope)
      (hphase : session.phase = .sending response) (hidle : session.log.current = none)
      (hresponses : session.log.responses = earlier ++ [response])
      (houtput : format.Wrote session.conn.wire earlier)
  | ended (hphase : session.phase = .ended) (hidle : session.log.current = none)
      (hunreadable : format.Unreadable front)
      (houtput : format.Wrote session.conn.wire session.log.responses)

variable {format} in
theorem Stands.of_handling {session : Session Handler} {front : List UInt8}
    (hstands : session.Stands format front) {request : Envelope}
    (hphase : session.phase = .handling request) :
    session.log.current = some request ∧
      format.Wrote session.conn.wire session.log.responses := by
  cases hstands with
  | receiving hother | sending _ _ hother | ended hother =>
      rw [hphase] at hother
      cases hother
  | handling same hsame hcurrent houtput =>
      rw [hphase] at hsame
      cases hsame
      exact ⟨hcurrent, houtput⟩

variable {format} in
/-- The response that is being sent is the last. -/
theorem Stands.of_sending {session : Session Handler} {front : List UInt8}
    (hstands : session.Stands format front) {response : Envelope}
    (hphase : session.phase = .sending response) :
    ∃ earlier, session.log.current = none ∧ session.log.responses = earlier ++ [response] ∧
      format.Wrote session.conn.wire earlier := by
  cases hstands with
  | receiving hother | handling _ hother | ended hother =>
      rw [hphase] at hother
      cases hother
  | sending same earlier hsame hidle hresponses houtput =>
      rw [hphase] at hsame
      cases hsame
      exact ⟨earlier, hidle, hresponses, houtput⟩

/-- The bytes that have come are the frames of the requests taken up and what is
in front. -/
structure Keeps (session : Session Handler) (frames : List (List UInt8)) (front : List UInt8) :
    Prop where
  sound : session.log.Sound table
  arrived_eq : session.arrived = frameHeader.stream frames ++ front
  fits : frameHeader.Fits frames
  carries : format.Carries frames session.log.requests
  delivers : session.phase ≠ .ended → Delivers [] session.conn.reads front
  accepting : Accepting session.conn.sends
  stands : session.Stands format front

theorem fresh_keeps : (fresh : Session Handler).Keeps table format [] [] where
  sound := Log.sound_empty
  arrived_eq := rfl
  fits := frameHeader.fits_nil
  carries := .nil
  delivers _ := .nil
  accepting _ hmem := by cases hmem
  stands := .receiving rfl rfl .nil

variable {table format}

theorem Stands.of_receiving {session : Session Handler} {front : List UInt8}
    (hstands : session.Stands format front) (hphase : session.phase = .receiving) :
    session.log.current = none ∧
      format.Wrote session.conn.wire session.log.responses := by
  cases hstands with
  | receiving _ hidle houtput => exact ⟨hidle, houtput⟩
  | handling request hother => rw [hphase] at hother; cases hother
  | sending response earlier hother => rw [hphase] at hother; cases hother
  | ended hother => rw [hphase] at hother; cases hother

/-- Taking up the request of the frame in front. -/
theorem Keeps.dispatch {session : Session Handler} {frames : List (List UInt8)}
    {payload rest : List UInt8} {request : Envelope} {conn : UnixSocketConnection}
    (hkeeps : session.Keeps table format frames (frameHeader.frame payload ++ rest))
    (hphase : session.phase = .receiving) (hpayload : payload.length ≤ MAX_FRAME_SIZE)
    (hparse : format.parse payload = .ok request) (hdelivers : Delivers [] conn.reads rest)
    (hwire : conn.wire = session.conn.wire) (hsends : conn.sends = session.conn.sends) :
    ({ session with conn := conn }.dispatch table request).Keeps table format
      (frames ++ [payload]) rest := by
  obtain ⟨hsound, harrived, hfits, hcarries, -, haccepting, hstands⟩ := hkeeps
  have harrived' : session.arrived = frameHeader.stream (frames ++ [payload]) ++ rest := by
    rw [harrived, Header.stream_append, Header.stream_cons, Header.stream_nil, List.append_nil,
      List.append_assoc]
  have hfits' : frameHeader.Fits (frames ++ [payload]) :=
    frameHeader.fits_append.mpr ⟨hfits, frameHeader.fits_cons.mpr ⟨hpayload, frameHeader.fits_nil⟩⟩
  have hcarries' := hcarries.append (.singleton hparse)
  have haccepting' : Accepting conn.sends := by rwa [hsends]
  obtain ⟨hidle, houtput⟩ := hstands.of_receiving hphase
  rw [← hwire] at houtput
  unfold Session.dispatch
  cases hlocate : Dispatcher.locate table request with
  | error response =>
      obtain ⟨hresolve, hanswers⟩ := Dispatcher.of_locate_error hlocate
      obtain ⟨hsound', hrequests⟩ := hsound.answer_refused hidle hresolve hanswers
      refine ⟨hsound', harrived', hfits', ?_, fun _ => hdelivers, haccepting',
        .sending response _ rfl rfl (Log.responses_answer _ _) houtput⟩
      rw [← hrequests] at hcarries'
      exact hcarries'
  | ok handler =>
      have hresolve := Dispatcher.resolve_of_locate_ok hlocate
      refine ⟨hsound.call hidle hresolve, harrived', hfits', ?_, fun _ => hdelivers,
        haccepting', .handling request rfl rfl houtput⟩
      rw [← Log.requests_call hidle handler request] at hcarries'
      exact hcarries'

theorem Keeps.recv {session next : Session Handler} {frames : List (List UInt8)}
    {front : List UInt8} {reads : List ReadOutcome} (hflowing : Flowing reads)
    (hkeeps : session.Keeps table format frames front)
    (hstep : session.step table format (.recv reads) = some next) :
    ∃ frames' front', next.Keeps table format frames' front' := by
  simp only [Session.step] at hstep
  split at hstep
  next hphase =>
    obtain ⟨result, hrecv, rfl⟩ := Option.map_eq_some_iff.mp hstep
    have hdelivers : Delivers []
        { session.conn with reads := session.conn.reads ++ reads }.reads (front ++ bytesOf reads) :=
      (hkeeps.delivers (by rw [hphase]; intro h; cases h)).append hflowing.delivers
    -- the same session once the bytes have come
    have hcome : { session with arrived := session.arrived ++ bytesOf reads }.arrived =
        frameHeader.stream frames ++ (front ++ bytesOf reads) := by
      rw [← List.append_assoc, ← hkeeps.arrived_eq]
    obtain ⟨hidle, houtput⟩ := hkeeps.stands.of_receiving hphase
    unfold EnvelopeCodec.recv at hrecv
    cases hscan : frameHeader.scan (front ++ bytesOf reads) with
    | stuck ending =>
        cases ending with
        | truncated =>
            rw [FramedConnection.recvFrame_blocks _ hdelivers hscan] at hrecv
            cases hrecv
        | oversized =>
            obtain ⟨left, hframe, -⟩ := FramedConnection.recvFrame_of_oversized _ hdelivers hscan
            rw [hframe] at hrecv
            cases hrecv
            exact ⟨frames, front ++ bytesOf reads, hkeeps.sound, hcome, hkeeps.fits,
              hkeeps.carries, fun hended => absurd rfl hended, hkeeps.accepting,
              .ended rfl hidle (.oversized hscan) houtput⟩
    | frame payload rest =>
        obtain ⟨left, hframe, hleft⟩ := FramedConnection.recvFrame_of_frame _ hdelivers hscan
        rw [hframe] at hrecv
        dsimp only at hrecv
        cases hparse : format.parse payload with
        | error message =>
            rw [hparse] at hrecv
            cases hrecv
            exact ⟨frames, front ++ bytesOf reads, hkeeps.sound, hcome, hkeeps.fits,
              hkeeps.carries, fun hended => absurd rfl hended, hkeeps.accepting,
              .ended rfl hidle (.malformed payload rest message hscan hparse) houtput⟩
        | ok request =>
            rw [hparse] at hrecv
            cases hrecv
            obtain ⟨hfront, hpayload⟩ := frameHeader.eq_of_scan_frame hscan
            rw [hfront] at hcome hdelivers
            refine ⟨frames ++ [payload], rest, ?_⟩
            have hcame : Keeps table format
                { session with arrived := session.arrived ++ bytesOf reads
                               conn := { session.conn with reads := session.conn.reads ++ reads } }
                frames (frameHeader.frame payload ++ rest) :=
              ⟨hkeeps.sound, hcome, hkeeps.fits, hkeeps.carries, fun _ => hdelivers,
                hkeeps.accepting, .receiving hphase hidle houtput⟩
            exact hcame.dispatch hphase hpayload hparse hleft rfl rfl
  · cases hstep

theorem Keeps.handled {session next : Session Handler} {frames : List (List UInt8)}
    {front : List UInt8} {outcome : HandlerOutcome}
    (hkeeps : session.Keeps table format frames front)
    (hstep : session.step table format (.handled outcome) = some next) :
    next.Keeps table format frames front := by
  obtain ⟨hsound, harrived, hfits, hcarries, hdelivers, haccepting, hstands⟩ := hkeeps
  simp only [Session.step] at hstep
  split at hstep
  next request hphase =>
    cases hstep
    obtain ⟨hcurrent, houtput⟩ := hstands.of_handling hphase
    obtain ⟨handler, hresolve⟩ :=
      Option.isSome_iff_exists.mp (hsound.resolves request hcurrent)
    have hanswers := Dispatcher.respond_answers hresolve outcome
    obtain ⟨hsound', hrequests⟩ := hsound.answer_called hcurrent hanswers
    refine ⟨hsound', harrived, hfits, ?_, fun _ => hdelivers (by rw [hphase]; intro h; cases h),
      haccepting, .sending _ _ rfl rfl (Log.responses_answer _ _) houtput⟩
    rw [← hrequests] at hcarries
    exact hcarries
  · cases hstep

theorem Keeps.send {session next : Session Handler} {frames : List (List UInt8)}
    {front : List UInt8} {sends : List SendOutcome}
    (hkeeps : session.Keeps table format frames front)
    (hsize : ∀ response, session.phase = .sending response → Sendable format response)
    (haccept : Accepting sends)
    (hstep : session.step table format (.send sends) = some next) :
    next.Keeps table format frames front := by
  obtain ⟨hsound, harrived, hfits, hcarries, hdelivers, haccepting, hstands⟩ := hkeeps
  simp only [Session.step] at hstep
  split at hstep
  next response hphase =>
    obtain ⟨⟨error, conn⟩, hsend, rfl⟩ := Option.map_eq_some_iff.mp hstep
    obtain ⟨earlier, hidle, hresponses, houtput⟩ := hstands.of_sending hphase
    obtain ⟨bytes, hserialize, hsize⟩ := hsize response hphase
    have haccept' : Accepting (session.conn.sends ++ sends) := by
      intro outcome houtcome
      rcases List.mem_append.mp houtcome with hold | hnew
      · exact haccepting outcome hold
      · exact haccept outcome hnew
    unfold EnvelopeCodec.send at hsend
    rw [hserialize] at hsend
    obtain ⟨rest, rfl, hrest, rfl⟩ :=
      FramedConnection.sendFrame_of_accepting hsize haccept' hsend
    refine ⟨hsound, harrived, hfits, hcarries,
      fun _ => hdelivers (by rw [hphase]; intro h; cases h), hrest,
      .receiving rfl hidle ?_⟩
    change format.Wrote _ session.log.responses
    rw [hresponses]
    exact houtput.append hsize hserialize
  · cases hstep

theorem fits_of_step {session next : Session Handler} {event : SessionEvent}
    (hfits : next.log.Fits format) (hstep : session.step table format event = some next) :
    session.log.Fits format := by
  have hresponses : session.log.responses <+: next.log.responses := by
    cases event with
    | recv reads =>
        simp only [Session.step] at hstep
        split at hstep
        · obtain ⟨⟨result, conn⟩, -, rfl⟩ := Option.map_eq_some_iff.mp hstep
          cases result with
          | error err => exact List.prefix_rfl
          | ok request =>
              simp only [Session.received, Session.dispatch]
              split
              · exact ⟨_, (Log.responses_answer _ _).symm⟩
              · exact List.prefix_rfl
        · cases hstep
    | handled outcome =>
        simp only [Session.step] at hstep
        split at hstep
        · cases hstep
          exact ⟨_, (Log.responses_answer _ _).symm⟩
        · cases hstep
    | send sends =>
        simp only [Session.step] at hstep
        split at hstep
        · obtain ⟨⟨error, conn⟩, -, rfl⟩ := Option.map_eq_some_iff.mp hstep
          cases error <;> exact List.prefix_rfl
        · cases hstep
  intro response hresponse
  exact hfits response (hresponses.subset hresponse)

theorem Keeps.step {session next : Session Handler} {frames : List (List UInt8)}
    {front : List UInt8} {event : SessionEvent}
    (hkeeps : session.Keeps table format frames front) (hopen : event.Open)
    (hsize : ∀ response, session.phase = .sending response → Sendable format response)
    (hstep : session.step table format event = some next) :
    ∃ frames' front', next.Keeps table format frames' front' := by
  cases event with
  | recv reads => exact hkeeps.recv hopen hstep
  | handled outcome => exact ⟨frames, front, hkeeps.handled hstep⟩
  | send sends => exact ⟨frames, front, hkeeps.send hsize hopen hstep⟩

theorem Keeps.mem_responses {session : Session Handler} {frames : List (List UInt8)}
    {front : List UInt8} (hkeeps : session.Keeps table format frames front) {response : Envelope}
    (hphase : session.phase = .sending response) : response ∈ session.log.responses := by
  obtain ⟨earlier, -, hresponses, -⟩ := hkeeps.stands.of_sending hphase
  rw [hresponses]
  exact List.mem_append_right _ List.mem_cons_self

theorem keeps_of_run {events : List SessionEvent} {last : Session Handler}
    (hopen : ∀ event ∈ events, event.Open)
    (hrun : run (Session.step table format) fresh events = some last)
    (hsizes : last.log.Fits format) :
    ∃ frames front, last.Keeps table format frames front := by
  refine run_invariant_of_guarded
    (fun session : Session Handler => session.log.Fits format →
      ∃ frames front, session.Keeps table format frames front)
    ?_ (fun _ => ⟨[], [], fresh_keeps table format⟩) (guarded_of_forall_mem hopen) hrun hsizes
  intro session event next hkeeps hopen hstep hnext
  have hfits := fits_of_step hnext hstep
  obtain ⟨frames, front, hkeeps⟩ := hkeeps hfits
  exact hkeeps.step hopen
    (fun response hphase => hfits response (hkeeps.mem_responses hphase)) hstep

/-- The thread has ended, or it waits for a request that has not come. -/
def AtRest (session : Session Handler) (format : EnvelopeFormat) : Prop :=
  session.phase = .ended ∨
    session.phase = .receiving ∧ EnvelopeCodec.recv format session.conn = none

/-- The output is the beginning of what the session writes for its responses. -/
theorem Keeps.wrote {session : Session Handler} {frames : List (List UInt8)} {front : List UInt8}
    (hkeeps : session.Keeps table format frames front) (hsizes : session.log.Fits format) :
    ∃ rest, format.Wrote (session.conn.wire ++ rest) session.log.responses := by
  cases hkeeps.stands with
  | receiving hphase hidle houtput => exact ⟨[], by rwa [List.append_nil]⟩
  | handling request hphase hcurrent houtput => exact ⟨[], by rwa [List.append_nil]⟩
  | ended hphase hidle hunreadable houtput => exact ⟨[], by rwa [List.append_nil]⟩
  | sending response earlier hphase hidle hresponses houtput =>
      obtain ⟨bytes, hserialize, hsize⟩ := hsizes response (hkeeps.mem_responses hphase)
      refine ⟨frameHeader.frame bytes, ?_⟩
      rw [hresponses]
      exact houtput.append hsize hserialize

theorem Keeps.serves {last : Session Handler} {frames : List (List UInt8)} {front : List UInt8}
    (hinverse : format.Inverse) (hkeeps : last.Keeps table format frames front)
    (hsizes : last.log.Fits format) :
    Serves table format last.arrived last.conn.wire last.log ∧
      (last.AtRest format → Served format last.arrived last.conn.wire last.log) ∧
      (last.phase = .ended → format.Breaks last.arrived) := by
  have henvelopes : format.envelopes last.arrived = last.log.requests ++ format.envelopes front := by
    rw [hkeeps.arrived_eq]
    exact EnvelopeFormat.envelopes_stream_append hkeeps.fits hkeeps.carries front
  have hended : last.phase = .ended → last.log.current = none ∧ format.Unreadable front ∧
      format.Wrote last.conn.wire last.log.responses := by
    intro hended
    cases hkeeps.stands with
    | receiving hother => rw [hended] at hother; cases hother
    | handling request hother => rw [hended] at hother; cases hother
    | sending response earlier hother => rw [hended] at hother; cases hother
    | ended hphase hidle hunreadable houtput => exact ⟨hidle, hunreadable, houtput⟩
  refine ⟨⟨hkeeps.sound, ?_, ?_⟩, ?_, ?_⟩
  · rw [henvelopes]
    exact List.prefix_append _ _
  · obtain ⟨rest, hwrote⟩ := hkeeps.wrote hsizes
    exact ⟨rest, hwrote.emitted hinverse⟩
  · intro hrest
    rcases hrest with hphase | ⟨hphase, hblocked⟩
    · obtain ⟨hidle, hunreadable, houtput⟩ := hended hphase
      refine ⟨?_, houtput.emitted hinverse⟩
      rw [henvelopes, hunreadable.envelopes_eq, List.append_nil, Log.requests_of_idle hidle]
    · obtain ⟨hidle, houtput⟩ := hkeeps.stands.of_receiving hphase
      have hdelivers := hkeeps.delivers (by rw [hphase]; intro h; cases h)
      have hwaiting : format.envelopes front = [] := by
        unfold EnvelopeCodec.recv at hblocked
        cases hscan : frameHeader.scan front with
        | stuck ending => exact EnvelopeFormat.envelopes_of_stuck hscan
        | frame payload rest =>
            obtain ⟨left, hframe, -⟩ :=
              FramedConnection.recvFrame_of_frame _ hdelivers hscan
            rw [hframe] at hblocked
            dsimp only at hblocked
            split at hblocked <;> cases hblocked
      refine ⟨?_, houtput.emitted hinverse⟩
      rw [henvelopes, hwaiting, List.append_nil, Log.requests_of_idle hidle]
  · intro hphase
    obtain ⟨hidle, hunreadable, -⟩ := hended hphase
    refine ⟨frames, front, hkeeps.arrived_eq, hkeeps.fits, ?_, hunreadable⟩
    rw [henvelopes, hunreadable.envelopes_eq, List.append_nil]
    exact hkeeps.carries

theorem serves_of_run {events : List SessionEvent} {last : Session Handler}
    (hinverse : format.Inverse) (hopen : ∀ event ∈ events, event.Open)
    (hrun : run (Session.step table format) fresh events = some last)
    (hsizes : last.log.Fits format) :
    Serves table format last.arrived last.conn.wire last.log ∧
      (last.AtRest format → Served format last.arrived last.conn.wire last.log) ∧
      (last.phase = .ended → format.Breaks last.arrived) := by
  obtain ⟨frames, front, hkeeps⟩ := keeps_of_run hopen hrun hsizes
  exact hkeeps.serves hinverse hsizes

end Session

end Ibridger.Cpp
