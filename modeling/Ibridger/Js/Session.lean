import Ibridger.Foundation.Runs
import Ibridger.Js.Dispatch
import Ibridger.Js.FrameReader
import Ibridger.Js.FrameWriter

/-! # A JS server session

`IBridgerServer.dispatchLoop` of `server.ts` with the codec it uses: an
asynchronous loop that awaits a frame, dispatches the request in it and awaits
the sending of the response. The `'data'` events of the socket and the
completions of its writes come at any time in between.
-/

namespace Ibridger.Js

open LengthPrefix Rpc Transition UnixSocketConnection Wire

/-- What the loop awaits. -/
inductive SessionPhase where
  | receiving (read : FrameRead)
  | handling (request : Envelope)
  | sending (send : FrameSend)
  | ended

structure Session (Handler : Type) where
  conn : UnixSocketConnection
  phase : SessionPhase
  log : Log Handler

inductive SessionEvent where
  | data (chunk : List UInt8)
  | written (send : Nat)
  | handled (outcome : HandlerOutcome)
  | resume
deriving DecidableEq

namespace Session

variable {Handler : Type} (services : ServiceTable Handler) (format : EnvelopeFormat)

/-- The loop has ended: `handleConnection` closes the connection. -/
def finish (session : Session Handler) : Session Handler :=
  { session with conn := session.conn.close, phase := .ended }

/-- The head of the loop, up to its first `await`. -/
def loop (session : Session Handler) : Session Handler :=
  if session.conn.connected then
    { session with
      conn := (recvFrame session.conn).2, phase := .receiving (recvFrame session.conn).1 }
  else session.finish

def sent (session : Session Handler) : FrameSend × UnixSocketConnection → Session Handler
  | (.settled (.ok ()), conn) => { session with conn := conn }.loop
  | (.settled (.error _), conn) => { session with conn := conn }.finish
  | (send, conn) => { session with conn := conn, phase := .sending send }

def respond (session : Session Handler) (exchange : Exchange) : Session Handler :=
  match format.serialize exchange.response with
  | none => { session with log := session.log.answer exchange }.finish
  | some bytes =>
      { session with log := session.log.answer exchange }.sent (sendFrame session.conn bytes)

def dispatch (session : Session Handler) (request : Envelope) : Session Handler :=
  match Dispatch.locate services request with
  | .error response => session.respond format ⟨request, none, response⟩
  | .ok handler =>
      { session with log := session.log.call handler request, phase := .handling request }

def received (session : Session Handler) : FrameRead × UnixSocketConnection → Session Handler
  | (.settled (.ok frame), conn) =>
      match format.parse frame with
      | .error _ => { session with conn := conn }.finish
      | .ok request => { session with conn := conn }.dispatch services format request
  | (.settled (.error _), conn) => { session with conn := conn }.finish
  | (read, conn) => { session with conn := conn, phase := .receiving read }

/-- A session right after its connection was accepted. -/
def fresh : Session Handler :=
  { conn := .fromSocket, phase := .ended, log := .empty : Session Handler }.loop

def step (session : Session Handler) : SessionEvent → Option (Session Handler)
  | .data chunk =>
      if session.conn.socket = .live then
        some { session with conn := session.conn.onData chunk }
      else none
  | .written send =>
      if session.conn.sends[send]? = some .pending then
        some { session with conn := session.conn.onWritten send none }
      else none
  | .handled outcome =>
      match session.phase with
      | .handling request =>
          some (session.respond format
            ⟨request, some outcome.outcome, Dispatch.respond request outcome⟩)
      | _ => none
  | .resume =>
      match session.phase with
      | .receiving read => (read.resume session.conn).map (session.received services format)
      | .sending send => (send.resume session.conn).map session.sent
      | _ => none

/-- How the session stands between the bytes that are in front of it and the
responses. -/
inductive Stands (session : Session Handler) (front : List UInt8) : Prop where
  | receiving (read : FrameRead) (hphase : session.phase = .receiving read)
      (hconnected : session.conn.connected = true) (hidle : session.log.current = none) (hreading : Reading session.conn front read)
      (houtput : format.Wrote session.conn.output session.log.responses)
  | handling (request : Envelope) (hphase : session.phase = .handling request)
      (hconnected : session.conn.connected = true) (hcurrent : session.log.current = some request) (hwaiters : session.conn.waiters = [])
      (hfront : front = session.conn.buffer)
      (houtput : format.Wrote session.conn.output session.log.responses)
  | sending (send : FrameSend) (response : Envelope) (bytes before : List UInt8)
      (earlier : List Envelope) (hphase : session.phase = .sending send)
      (hconnected : session.conn.connected = true) (hidle : session.log.current = none)
      (hwaiters : session.conn.waiters = []) (hfront : front = session.conn.buffer)
      (hresponses : session.log.responses = earlier ++ [response])
      (hserialize : format.serialize response = some bytes)
      (houtput : format.Wrote before earlier)
      (hwriting : Writing session.conn before bytes send)
  | ended (hphase : session.phase = .ended) (hclosed : session.conn.connected = false)
      (hidle : session.log.current = none) (hunreadable : format.Unreadable front)
      (houtput : format.Wrote session.conn.output session.log.responses)

variable {format} in
theorem Stands.of_receiving {session : Session Handler} {front : List UInt8}
    (hstands : session.Stands format front) {read : FrameRead}
    (hphase : session.phase = .receiving read) :
    session.conn.connected = true ∧ session.log.current = none ∧
      Reading session.conn front read ∧
      format.Wrote session.conn.output session.log.responses := by
  cases hstands with
  | handling _ hother | sending _ _ _ _ _ hother | ended hother =>
      rw [hphase] at hother
      cases hother
  | receiving same hsame hconnected hidle hreading houtput =>
      rw [hphase] at hsame
      cases hsame
      exact ⟨hconnected, hidle, hreading, houtput⟩

variable {format} in
theorem Stands.of_handling {session : Session Handler} {front : List UInt8}
    (hstands : session.Stands format front) {request : Envelope}
    (hphase : session.phase = .handling request) :
    session.conn.connected = true ∧ session.log.current = some request ∧
      session.conn.waiters = [] ∧ front = session.conn.buffer ∧
      format.Wrote session.conn.output session.log.responses := by
  cases hstands with
  | receiving _ hother | sending _ _ _ _ _ hother | ended hother =>
      rw [hphase] at hother
      cases hother
  | handling same hsame hconnected hcurrent hwaiters hfront houtput =>
      rw [hphase] at hsame
      cases hsame
      exact ⟨hconnected, hcurrent, hwaiters, hfront, houtput⟩

/-- The bytes that have come are the frames of the requests taken up and what is
in front. -/
structure Keeps (session : Session Handler) (frames : List (List UInt8)) (front : List UInt8) :
    Prop where
  sound : session.log.Sound services
  received_eq : session.conn.received = frameHeader.stream frames ++ front
  fits : frameHeader.Fits frames
  carries : format.Carries frames session.log.requests
  accepted : Accepted session.conn
  live_iff : session.conn.socket = .live ↔ session.conn.connected = true
  stands : session.Stands format front

variable {services format}

theorem fresh_keeps : (fresh : Session Handler).Keeps services format [] [] where
  sound := Log.sound_empty
  received_eq := rfl
  fits := frameHeader.fits_nil
  carries := .nil
  accepted _ hmem := by cases hmem
  live_iff := ⟨fun _ => rfl, fun _ => rfl⟩
  stands := .receiving _ rfl rfl rfl (recvFrame_reading rfl) .nil

theorem loop_log (session : Session Handler) : session.loop.log = session.log := by
  unfold loop
  split <;> rfl

theorem sent_log (session : Session Handler) (result : FrameSend × UnixSocketConnection) :
    (session.sent result).log = session.log := by
  obtain ⟨send, conn⟩ := result
  cases send with
  | header => rfl
  | body => rfl
  | settled result =>
      cases result with
      | error => rfl
      | ok => exact loop_log _

theorem respond_log (session : Session Handler) (exchange : Exchange) :
    (session.respond format exchange).log = session.log.answer exchange := by
  unfold respond
  split
  · rfl
  · exact sent_log _ _

variable (services) in
/-- A session that is about to receive or to send. -/
structure Ready (session : Session Handler) (frames : List (List UInt8)) : Prop where
  sound : session.log.Sound services
  received_eq : session.conn.received = frameHeader.stream frames ++ session.conn.buffer
  fits : frameHeader.Fits frames
  accepted : Accepted session.conn
  live : session.conn.socket = .live
  connected : session.conn.connected = true
  waiters_nil : session.conn.waiters = []

namespace Ready

variable {session : Session Handler} {frames : List (List UInt8)}

theorem loop (hready : session.Ready services frames)
    (hcarries : format.Carries frames session.log.requests) (hidle : session.log.current = none)
    (houtput : format.Wrote session.conn.output session.log.responses) :
    session.loop.Keeps services format frames session.conn.buffer := by
  have hreading := recvFrame_reading hready.waiters_nil
  have hconn := recvFrame_eq session.conn
  rw [Session.loop, if_pos hready.connected]
  refine ⟨hready.sound, ?_, hready.fits, hcarries, ?_, ?_,
    .receiving _ rfl ?_ hidle hreading ?_⟩
  · rw [hconn]
    exact hready.received_eq
  · rw [hconn]
    exact hready.accepted
  · rw [hconn]
    exact ⟨fun _ => hready.connected, fun _ => hready.live⟩
  · rw [hconn]
    exact hready.connected
  · rw [hconn]
    exact houtput

theorem respond (hready : session.Ready services frames)
    {exchange : Exchange} (hsizes : (session.log.answer exchange).Fits format)
    (hsound : (session.log.answer exchange).Sound services)
    (hcarries : format.Carries frames (session.log.answer exchange).requests)
    (houtput : format.Wrote session.conn.output session.log.responses) :
    (session.respond format exchange).Keeps services format frames session.conn.buffer := by
  have hresponses := Log.responses_answer session.log exchange
  obtain ⟨bytes, hserialize, hsize⟩ : Sendable format exchange.response := by
    refine hsizes exchange.response ?_
    rw [hresponses]
    exact List.mem_append_right _ List.mem_cons_self
  obtain ⟨hwriting, hconn⟩ := sendFrame_writing hready.connected hsize
  rw [send_connected hready.connected] at hconn
  have haccepted := hready.accepted.send hready.connected (writeUInt32BE bytes.length)
  rw [send_connected hready.connected] at haccepted
  rw [Session.respond, hserialize]
  dsimp only
  generalize sendFrame session.conn bytes = result at hwriting hconn
  obtain ⟨send, conn⟩ := result
  dsimp only at hwriting hconn ⊢
  have hkept : Keeps services format
      { session with
        conn := conn, phase := .sending send, log := session.log.answer exchange } frames
      session.conn.buffer := by
    subst hconn
    exact ⟨hsound, hready.received_eq, hready.fits, hcarries, haccepted,
      ⟨fun _ => hready.connected, fun _ => hready.live⟩,
      .sending send exchange.response bytes session.conn.output _ rfl hready.connected rfl
        hready.waiters_nil rfl hresponses hserialize houtput hwriting⟩
  cases hwriting with
  | header => exact hkept
  | body => exact hkept

/-- Taking up the request of a frame that has just been read. -/
theorem dispatch {payload : List UInt8} {request : Envelope}
    (hready : session.Ready services (frames ++ [payload]))
    (hcarries : format.Carries frames session.log.requests)
    (hparse : format.parse payload = .ok request) (hidle : session.log.current = none)
    (houtput : format.Wrote session.conn.output session.log.responses)
    (hsizes : (session.dispatch services format request).log.Fits format) :
    (session.dispatch services format request).Keeps services format (frames ++ [payload])
      session.conn.buffer := by
  have hcarries' := hcarries.append (.singleton hparse)
  unfold Session.dispatch at hsizes ⊢
  cases hlocate : Dispatch.locate services request with
  | error response =>
      obtain ⟨hresolve, hanswers⟩ := Dispatch.of_locate_error hlocate
      obtain ⟨hsound, hrequests⟩ := hready.sound.answer_refused hidle hresolve hanswers
      rw [hlocate] at hsizes
      rw [← hrequests] at hcarries'
      exact hready.respond (by rwa [respond_log] at hsizes) hsound hcarries' houtput
  | ok handler =>
      have hresolve := Dispatch.resolve_of_locate_ok hlocate
      rw [← Log.requests_call hidle handler request] at hcarries'
      exact ⟨hready.sound.call hidle hresolve, hready.received_eq, hready.fits, hcarries',
        hready.accepted, ⟨fun _ => hready.connected, fun _ => hready.live⟩,
        .handling request rfl hready.connected rfl hready.waiters_nil rfl houtput⟩

end Ready

theorem Keeps.data {session : Session Handler} {frames : List (List UInt8)} {front : List UInt8}
    (hkeeps : session.Keeps services format frames front) (hlive : session.conn.socket = .live)
    (chunk : List UInt8) :
    { session with conn := session.conn.onData chunk }.Keeps services format frames
      (front ++ chunk) := by
  obtain ⟨hsound, hreceived, hfits, hcarries, haccepted, hlive_iff, hstands⟩ := hkeeps
  refine ⟨hsound, ?_, hfits, hcarries, ?_, ?_, ?_⟩
  · rw [← List.append_assoc, ← hreceived, onData_eq]
  · rw [onData_eq]
    exact haccepted
  · rw [onData_eq]
    exact hlive_iff
  · cases hstands with
    | receiving read hphase hconnected hidle hreading houtput =>
        have hreading' := hreading.onData hconnected chunk
        refine .receiving read hphase ?_ hidle hreading' ?_
        · rw [onData_eq]
          exact hconnected
        · rw [onData_eq]
          exact houtput
    | handling request hphase hconnected hcurrent hwaiters hfront houtput =>
        rw [onData_of_no_waiters hwaiters]
        exact .handling request hphase hconnected hcurrent hwaiters (by rw [hfront]) houtput
    | sending send response bytes before earlier hphase hconnected hidle hwaiters hfront
        hresponses hserialize houtput hwriting =>
        rw [onData_of_no_waiters hwaiters]
        exact .sending send response bytes before earlier hphase hconnected hidle hwaiters
          (by rw [hfront]) hresponses hserialize houtput (hwriting.congr rfl rfl)
    | ended hphase hclosed =>
        rw [hlive_iff.mp hlive] at hclosed
        cases hclosed

theorem Keeps.written {session : Session Handler} {frames : List (List UInt8)}
    {front : List UInt8} {send : Nat} (hkeeps : session.Keeps services format frames front)
    (hpending : session.conn.sends[send]? = some .pending) :
    { session with conn := session.conn.onWritten send none }.Keeps services format frames
      front := by
  obtain ⟨hsound, hreceived, hfits, hcarries, haccepted, hlive_iff, hstands⟩ := hkeeps
  refine ⟨hsound, hreceived, hfits, hcarries, haccepted.onWritten hpending, hlive_iff, ?_⟩
  cases hstands with
  | receiving read hphase hconnected hidle hreading houtput =>
      exact .receiving read hphase hconnected hidle (hreading.congr rfl rfl rfl rfl) houtput
  | handling request hphase hconnected hcurrent hwaiters hfront houtput =>
      exact .handling request hphase hconnected hcurrent hwaiters hfront houtput
  | sending send response bytes before earlier hphase hconnected hidle hwaiters hfront
      hresponses hserialize houtput hwriting =>
      refine .sending send response bytes before earlier hphase hconnected hidle hwaiters
        hfront hresponses hserialize houtput (hwriting.congr ?_ rfl)
      rw [onWritten, List.length_modify]
  | ended hphase hclosed hidle hunreadable houtput =>
      exact .ended hphase hclosed hidle hunreadable houtput

theorem Keeps.handled {session next : Session Handler} {frames : List (List UInt8)}
    {front : List UInt8} {outcome : HandlerOutcome}
    (hkeeps : session.Keeps services format frames front) (hsizes : next.log.Fits format)
    (hstep : session.step services format (.handled outcome) = some next) :
    next.Keeps services format frames front := by
  obtain ⟨hsound, hreceived, hfits, hcarries, haccepted, hlive_iff, hstands⟩ := hkeeps
  simp only [Session.step] at hstep
  split at hstep
  next request hphase =>
    cases hstep
    obtain ⟨hconnected, hcurrent, hwaiters, hfront, houtput⟩ := hstands.of_handling hphase
    subst hfront
    obtain ⟨handler, hresolve⟩ :=
      Option.isSome_iff_exists.mp (hsound.resolves request hcurrent)
    have hanswers := Dispatch.respond_answers hresolve outcome
    obtain ⟨hsound', hrequests⟩ := hsound.answer_called hcurrent hanswers
    rw [← hrequests] at hcarries
    rw [respond_log] at hsizes
    exact Ready.respond ⟨hsound, hreceived, hfits, haccepted, hlive_iff.mpr hconnected,
      hconnected, hwaiters⟩ hsizes hsound' hcarries houtput
  · cases hstep

/-- The loop goes on with the `recvFrame` it awaits. -/
theorem Keeps.resumeRead {session next : Session Handler} {frames : List (List UInt8)}
    {front : List UInt8} {read : FrameRead}
    (hkeeps : session.Keeps services format frames front) (hsizes : next.log.Fits format)
    (hphase : session.phase = .receiving read)
    (hstep : session.step services format .resume = some next) :
    ∃ frames' front', next.Keeps services format frames' front' := by
  obtain ⟨hsound, hreceived, hfits, hcarries, haccepted, hlive_iff, hstands⟩ := hkeeps
  simp only [Session.step, hphase] at hstep
  obtain ⟨⟨read', conn⟩, hresume, rfl⟩ := Option.map_eq_some_iff.mp hstep
  obtain ⟨hconnected, hidle, hreading, houtput⟩ := hstands.of_receiving hphase
  obtain ⟨hresumed, hframe⟩ := hreading.resume hresume
  have hreceived' : conn.received = frameHeader.stream frames ++ front := by
    rw [hframe]
    exact hreceived
  have haccepted' : Accepted conn := by
    rw [hframe]
    exact haccepted
  have hconnected' : conn.connected = true := by
    rw [hframe]
    exact hconnected
  have hlive' : conn.socket = .live := by
    rw [hframe]
    exact hlive_iff.mpr hconnected
  have houtput' : format.Wrote conn.output session.log.responses := by
    rw [hframe]
    exact houtput
  -- what closing the connection leaves as it is
  have hfinish : format.Unreadable front →
      ({ session with conn := conn }.finish).Keeps services format frames front := by
    intro hunreadable
    refine ⟨hsound, hreceived', hfits, hcarries, haccepted', ?_,
      .ended rfl rfl hidle hunreadable houtput'⟩
    simp only [finish, close, hlive', ↓reduceIte]
    exact ⟨fun h => (by cases h), fun h => (by cases h)⟩
  cases hresumed with
  | reading recv hreading' =>
      exact ⟨frames, front, hsound, hreceived', hfits, hcarries, haccepted',
        ⟨fun _ => hconnected', fun _ => hlive'⟩,
        .receiving _ rfl hconnected' hidle hreading' houtput'⟩
  | frame payload hwaiters hscan =>
      obtain ⟨hfront, hpayload⟩ := frameHeader.eq_of_scan_frame hscan
      simp only [Session.received] at hsizes ⊢
      cases hparse : format.parse payload with
      | error message =>
          exact ⟨frames, front, hfinish (.malformed _ _ message hscan hparse)⟩
      | ok request =>
          rw [hparse] at hsizes
          refine ⟨frames ++ [payload], conn.buffer, ?_⟩
          refine Ready.dispatch ⟨hsound, ?_, ?_, haccepted', hlive', hconnected', hwaiters⟩
            hcarries hparse hidle houtput' hsizes
          · rw [hreceived', hfront, Header.stream_append, Header.stream_cons,
              Header.stream_nil, List.append_nil, List.append_assoc]
          · exact frameHeader.fits_append.mpr
              ⟨hfits, frameHeader.fits_cons.mpr ⟨hpayload, frameHeader.fits_nil⟩⟩
  | refused error hwaiters hrefused =>
      cases hrefused with
      | oversized hscan => exact ⟨frames, front, hfinish (.oversized hscan)⟩
      | closed hscan hclosed =>
          rw [hconnected'] at hclosed
          cases hclosed

/-- The loop goes on with the `sendFrame` it awaits. -/
theorem Keeps.resumeSend {session next : Session Handler} {frames : List (List UInt8)}
    {front : List UInt8} {send : FrameSend}
    (hkeeps : session.Keeps services format frames front) (hsizes : session.log.Fits format)
    (hphase : session.phase = .sending send)
    (hstep : session.step services format .resume = some next) :
    next.Keeps services format frames front := by
  obtain ⟨hsound, hreceived, hfits, hcarries, haccepted, hlive_iff, hstands⟩ := hkeeps
  simp only [Session.step, hphase] at hstep
  obtain ⟨⟨send', conn⟩, hresume, rfl⟩ := Option.map_eq_some_iff.mp hstep
  cases hstands with
  | receiving read hother => rw [hphase] at hother; cases hother
  | handling request hother => rw [hphase] at hother; cases hother
  | ended hother => rw [hphase] at hother; cases hother
  | sending send response bytes before earlier hsending hconnected hidle hwaiters hfront
      hresponses hserialize houtput hwriting =>
      rw [hphase] at hsending
      cases hsending
      subst hfront
      rcases hwriting.resume haccepted hconnected hresume with
        ⟨hwriting', hconn⟩ | ⟨hsettled, hconn, hwritten⟩
      · have haccepted' := haccepted.send hconnected bytes
        rw [← hconn] at haccepted'
        rw [send_connected hconnected] at hconn
        have hkept : Keeps services format
            { session with conn := conn, phase := .sending send' } frames
            session.conn.buffer := by
          refine ⟨hsound, ?_, hfits, hcarries, haccepted', ?_,
            .sending send' response bytes before earlier rfl ?_ hidle ?_ ?_ hresponses hserialize
              houtput hwriting'⟩
          · rw [hconn]
            exact hreceived
          · rw [hconn]
            exact hlive_iff
          · rw [hconn]
            exact hconnected
          · rw [hconn]
            exact hwaiters
          · rw [hconn]
        cases hwriting' with
        | header => exact hkept
        | body => exact hkept
      · subst hsettled hconn
        have hmem : response ∈ session.log.responses := by
          rw [hresponses]
          exact List.mem_append_right _ List.mem_cons_self
        have hsize := (hsizes response hmem).length_le hserialize
        refine Ready.loop ⟨hsound, hreceived, hfits, haccepted, hlive_iff.mpr hconnected,
          hconnected, hwaiters⟩ hcarries hidle ?_
        rw [hwritten]
        change format.Wrote _ session.log.responses
        rw [hresponses]
        exact houtput.append hsize hserialize

theorem dispatch_responses (session : Session Handler) (request : Envelope) :
    session.log.responses <+: (session.dispatch services format request).log.responses := by
  unfold dispatch
  split
  · rw [respond_log, Log.responses_answer]
    exact List.prefix_append _ _
  · exact List.prefix_rfl

theorem fits_of_step {session next : Session Handler} {event : SessionEvent}
    (hfits : next.log.Fits format) (hstep : session.step services format event = some next) :
    session.log.Fits format := by
  have hresponses : session.log.responses <+: next.log.responses := by
    cases event with
    | data chunk =>
        simp only [Session.step] at hstep
        split at hstep
        · cases hstep
          exact List.prefix_rfl
        · cases hstep
    | written send =>
        simp only [Session.step] at hstep
        split at hstep
        · cases hstep
          exact List.prefix_rfl
        · cases hstep
    | handled outcome =>
        simp only [Session.step] at hstep
        split at hstep
        · cases hstep
          rw [respond_log, Log.responses_answer]
          exact List.prefix_append _ _
        · cases hstep
    | resume =>
        simp only [Session.step] at hstep
        split at hstep
        next read hphase =>
          obtain ⟨⟨read', conn⟩, -, rfl⟩ := Option.map_eq_some_iff.mp hstep
          cases read' with
          | header => exact List.prefix_rfl
          | body => exact List.prefix_rfl
          | settled result =>
              cases result with
              | error => exact List.prefix_rfl
              | ok frame =>
                  simp only [Session.received]
                  split
                  · exact List.prefix_rfl
                  · exact dispatch_responses { session with conn := conn } _
        next send hphase =>
          obtain ⟨result, -, rfl⟩ := Option.map_eq_some_iff.mp hstep
          simp only [sent_log, List.prefix_rfl]
        · cases hstep
  intro response hresponse
  exact hfits response (hresponses.subset hresponse)

theorem Keeps.step {session next : Session Handler} {frames : List (List UInt8)}
    {front : List UInt8} {event : SessionEvent}
    (hkeeps : session.Keeps services format frames front) (hsizes : next.log.Fits format)
    (hstep : session.step services format event = some next) :
    ∃ frames' front', next.Keeps services format frames' front' := by
  cases event with
  | data chunk =>
      simp only [Session.step] at hstep
      split at hstep
      next hlive =>
        cases hstep
        exact ⟨frames, front ++ chunk, hkeeps.data hlive chunk⟩
      · cases hstep
  | written send =>
      simp only [Session.step] at hstep
      split at hstep
      next hpending =>
        cases hstep
        exact ⟨frames, front, hkeeps.written hpending⟩
      · cases hstep
  | handled outcome => exact ⟨frames, front, hkeeps.handled hsizes hstep⟩
  | resume =>
      cases hphase : session.phase with
      | receiving read => exact hkeeps.resumeRead hsizes hphase hstep
      | sending send =>
          exact ⟨frames, front, hkeeps.resumeSend (fits_of_step hsizes hstep) hphase hstep⟩
      | handling request =>
          simp only [Session.step, hphase] at hstep
          cases hstep
      | ended =>
          simp only [Session.step, hphase] at hstep
          cases hstep

theorem keeps_of_run {events : List SessionEvent} {last : Session Handler}
    (hrun : run (Session.step services format) fresh events = some last)
    (hsizes : last.log.Fits format) :
    ∃ frames front, last.Keeps services format frames front := by
  refine run_invariant
    (fun session : Session Handler => session.log.Fits format →
      ∃ frames front, session.Keeps services format frames front)
    ?_ (fun _ => ⟨[], [], fresh_keeps⟩) hrun hsizes
  intro session event next hkeeps hstep hnext
  obtain ⟨frames, front, hkeeps⟩ := hkeeps (fits_of_step hnext hstep)
  exact hkeeps.step hnext hstep

/-- The loop has no turn to take: no handler is running, no write is under way,
and what it awaits has not come. -/
structure AtRest (session : Session Handler) (services : ServiceTable Handler)
    (format : EnvelopeFormat) : Prop where
  resume_none : session.step services format .resume = none
  handled : ∀ request, session.phase ≠ .handling request
  written : ∀ send : Nat, session.conn.sends[send]? ≠ some .pending

/-- The output is the beginning of what the session writes for its responses. -/
theorem Keeps.wrote {session : Session Handler} {frames : List (List UInt8)} {front : List UInt8}
    (hkeeps : session.Keeps services format frames front) (hsizes : session.log.Fits format) :
    ∃ rest, format.Wrote (session.conn.output ++ rest) session.log.responses := by
  cases hkeeps.stands with
  | receiving read hphase hconnected hidle hreading houtput =>
      exact ⟨[], by rwa [List.append_nil]⟩
  | handling request hphase hconnected hcurrent hwaiters hfront houtput =>
      exact ⟨[], by rwa [List.append_nil]⟩
  | ended hphase hclosed hidle hunreadable houtput => exact ⟨[], by rwa [List.append_nil]⟩
  | sending send response bytes before earlier hphase hconnected hidle hwaiters hfront
      hresponses hserialize houtput hwriting =>
      have hmem : response ∈ session.log.responses := by
        rw [hresponses]
        exact List.mem_append_right _ List.mem_cons_self
      have hframe := houtput.append ((hsizes response hmem).length_le hserialize) hserialize
      rw [hresponses]
      cases hwriting with
      | header ticket hsend hout =>
          refine ⟨bytes, ?_⟩
          rw [hout, List.append_assoc, ← frameHeader_frame]
          exact hframe
      | body ticket hsend hout =>
          refine ⟨[], ?_⟩
          rw [List.append_nil, hout]
          exact hframe

theorem Keeps.serves {last : Session Handler} {frames : List (List UInt8)} {front : List UInt8}
    (hinverse : format.Inverse) (hkeeps : last.Keeps services format frames front)
    (hsizes : last.log.Fits format) :
    Serves services format last.conn.received last.conn.output last.log ∧
      (last.AtRest services format →
        Rpc.Served format last.conn.received last.conn.output last.log) ∧
      (last.phase = .ended → format.Breaks last.conn.received) := by
  have henvelopes : format.envelopes last.conn.received =
      last.log.requests ++ format.envelopes front := by
    rw [hkeeps.received_eq]
    exact EnvelopeFormat.envelopes_stream_append hkeeps.fits hkeeps.carries front
  have hserved : last.log.current = none → format.envelopes front = [] →
      format.Wrote last.conn.output last.log.responses →
      Rpc.Served format last.conn.received last.conn.output last.log := by
    intro hidle hnone houtput
    refine ⟨?_, houtput.emitted hinverse⟩
    rw [henvelopes, hnone, List.append_nil, Log.requests_of_idle hidle]
  refine ⟨⟨hkeeps.sound, ?_, ?_⟩, ?_, ?_⟩
  · rw [henvelopes]
    exact List.prefix_append _ _
  · obtain ⟨rest, hwrote⟩ := hkeeps.wrote hsizes
    exact ⟨rest, hwrote.emitted hinverse⟩
  · rintro ⟨hresume, hhandled, hwritten⟩
    cases hkeeps.stands with
    | receiving read hphase hconnected hidle hreading houtput =>
        simp only [Session.step, hphase, Option.map_eq_none_iff] at hresume
        obtain ⟨-, hscan⟩ := hreading.of_resume_eq_none hresume
        exact hserved hidle (EnvelopeFormat.envelopes_of_stuck hscan) houtput
    | handling request hphase => exact absurd hphase (hhandled request)
    | sending send response bytes before earlier hphase hconnected hidle hwaiters hfront
        hresponses hserialize houtput hwriting =>
        simp only [Session.step, hphase, Option.map_eq_none_iff] at hresume
        obtain ⟨ticket, hpending⟩ := hwriting.of_resume_eq_none hkeeps.accepted hresume
        exact absurd hpending (hwritten ticket)
    | ended hphase hclosed hidle hunreadable houtput =>
        exact hserved hidle hunreadable.envelopes_eq houtput
  · intro hended
    cases hkeeps.stands with
    | receiving read hother => rw [hended] at hother; cases hother
    | handling request hother => rw [hended] at hother; cases hother
    | sending send response bytes before earlier hother => rw [hended] at hother; cases hother
    | ended hphase hclosed hidle hunreadable houtput =>
        refine ⟨frames, front, hkeeps.received_eq, hkeeps.fits, ?_, hunreadable⟩
        rw [henvelopes, hunreadable.envelopes_eq, List.append_nil]
        exact hkeeps.carries

theorem serves_of_run {events : List SessionEvent} {last : Session Handler}
    (hinverse : format.Inverse)
    (hrun : run (Session.step services format) fresh events = some last)
    (hsizes : last.log.Fits format) :
    Serves services format last.conn.received last.conn.output last.log ∧
      (last.AtRest services format →
        Rpc.Served format last.conn.received last.conn.output last.log) ∧
      (last.phase = .ended → format.Breaks last.conn.received) := by
  obtain ⟨frames, front, hkeeps⟩ := keeps_of_run hrun hsizes
  exact hkeeps.serves hinverse hsizes

end Session

end Ibridger.Js
