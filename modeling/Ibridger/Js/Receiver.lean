import Ibridger.Foundation.Runs
import Ibridger.Js.FrameReader

/-! # Receiving frames one after another in JS

A run interleaves the `'data'` events and the `'close'` event of a socket with
the turns of code that awaits `recvFrame` again and again. The bytes received
are at every moment the frames returned and what lies in front of the reader.
-/

namespace Ibridger.Js

open LengthPrefix Transition UnixSocketConnection Wire

/-- Code that awaits `recvFrame` again and again, up to its first error. -/
structure Receiver where
  conn : UnixSocketConnection
  current : Option FrameRead
  payloads : List (List UInt8)
  error : Option TransportError
  /-- How often `recvFrame` was called. -/
  calls : Nat

/-- What the peer and the event loop do, and the turns of the receiver. -/
inductive ReceiverEvent where
  | data (chunk : List UInt8)
  | close
  | recvFrame
  | resume
deriving DecidableEq, Repr

/-- The bytes that come with an event. -/
def ReceiverEvent.bytes : ReceiverEvent → List UInt8
  | .data chunk => chunk
  | .close | .recvFrame | .resume => []

def ReceiverEvent.own : ReceiverEvent → Bool
  | .recvFrame => true
  | .resume => true
  | _ => false

namespace Receiver

def fresh : Receiver where
  conn := fromSocket
  current := none
  payloads := []
  error := none
  calls := 0

def resume (receiver : Receiver) (read : FrameRead) : Option Receiver :=
  match read.resume receiver.conn with
  | none => none
  | some (.settled (.ok payload), conn) =>
      some { receiver with
        conn := conn, current := none, payloads := receiver.payloads ++ [payload] }
  | some (.settled (.error error), conn) =>
      some { receiver with conn := conn, current := none, error := some error }
  | some (read, conn) => some { receiver with conn := conn, current := some read }

def step (receiver : Receiver) : ReceiverEvent → Option Receiver
  | .data chunk =>
      if receiver.conn.socket = .live then
        some { receiver with conn := receiver.conn.onData chunk }
      else none
  | .close =>
      if receiver.conn.socket = .live then
        some { receiver with conn := receiver.conn.onClose }
      else none
  | .recvFrame =>
      if receiver.current = none ∧ receiver.error = none then
        some { receiver with
          conn := (Js.recvFrame receiver.conn).2
          current := some (Js.recvFrame receiver.conn).1
          calls := receiver.calls + 1 }
      else none
  | .resume => receiver.current.bind receiver.resume

/-- Where the receiver stands behind the frames it has returned. -/
inductive Phase (receiver : Receiver) (front : List UInt8) : Prop where
  | idle (hcurrent : receiver.current = none) (herror : receiver.error = none)
      (hcalls : receiver.calls = receiver.payloads.length)
      (hwaiters : receiver.conn.waiters = []) (hfront : front = receiver.conn.buffer)
  | reading (read : FrameRead) (hcurrent : receiver.current = some read)
      (herror : receiver.error = none) (hcalls : receiver.calls = receiver.payloads.length + 1)
      (hreading : Reading receiver.conn front read)
  | failed (error : TransportError) (hcurrent : receiver.current = none)
      (herror : receiver.error = some error)
      (hcalls : receiver.calls = receiver.payloads.length + 1)
      (hwaiters : receiver.conn.waiters = []) (hrefused : Refused receiver.conn front error)

/-- The bytes received are the frames returned and what is in front. -/
structure Splits (receiver : Receiver) (front : List UInt8) : Prop where
  received_eq : receiver.conn.received = frameHeader.stream receiver.payloads ++ front
  fits : frameHeader.Fits receiver.payloads
  live_iff : receiver.conn.socket = .live ↔ receiver.conn.connected = true
  phase : Phase receiver front

theorem Phase.onData {receiver : Receiver} {front : List UInt8} (hphase : receiver.Phase front)
    (hconnected : receiver.conn.connected = true) (chunk : List UInt8) :
    Phase { receiver with conn := receiver.conn.onData chunk } (front ++ chunk) := by
  cases hphase with
  | idle hcurrent herror hcalls hwaiters hfront =>
      rw [onData_of_no_waiters hwaiters]
      exact .idle hcurrent herror hcalls hwaiters (by rw [hfront])
  | reading read hcurrent herror hcalls hreading =>
      exact .reading read hcurrent herror hcalls (hreading.onData hconnected chunk)
  | failed error hcurrent herror hcalls hwaiters hrefused =>
      rw [onData_of_no_waiters hwaiters]
      refine .failed error hcurrent herror hcalls hwaiters ?_
      cases hrefused with
      | oversized hscan hbuffer =>
          obtain ⟨hwidth, -⟩ := frameHeader.of_scan_oversized hscan
          rw [frameHeader_width] at hwidth
          have hannounced : frameHeader.announced front = frameHeader.announced (front ++ chunk) := by
            rw [frameHeader_announced, frameHeader_announced, List.take_append_of_le_length hwidth]
          rw [hannounced]
          refine .oversized (frameHeader.scan_append_of_oversized hscan chunk) ?_
          rw [List.drop_append_of_le_length hwidth]
          exact congrArg (· ++ chunk) hbuffer
      | closed hscan hclosed =>
          rw [hconnected] at hclosed
          cases hclosed

theorem Phase.onClose {receiver : Receiver} {front : List UInt8} (hphase : receiver.Phase front) :
    Phase { receiver with conn := receiver.conn.onClose } front := by
  cases hphase with
  | idle hcurrent herror hcalls hwaiters hfront =>
      rw [onClose_of_no_waiters hwaiters]
      exact .idle hcurrent herror hcalls hwaiters hfront
  | reading read hcurrent herror hcalls hreading =>
      exact .reading read hcurrent herror hcalls hreading.onClose
  | failed error hcurrent herror hcalls hwaiters hrefused =>
      rw [onClose_of_no_waiters hwaiters]
      refine .failed error hcurrent herror hcalls hwaiters ?_
      cases hrefused with
      | oversized hscan hbuffer => exact .oversized hscan hbuffer
      | closed hscan hclosed => exact .closed hscan rfl

/-- A turn of the receiver in the middle of a `recvFrame`. -/
theorem Splits.resume {receiver next : Receiver} {front : List UInt8} {read : FrameRead}
    (hsplits : receiver.Splits front) (hcurrent : receiver.current = some read)
    (hresume : receiver.resume read = some next) : ∃ behind, next.Splits behind := by
  obtain ⟨hreceived, hfits, hlive, hphase⟩ := hsplits
  cases hphase with
  | idle hidle => rw [hcurrent] at hidle; cases hidle
  | failed error hidle => rw [hcurrent] at hidle; cases hidle
  | reading read' hread herror hcalls hreading =>
      rw [hcurrent] at hread
      cases hread
      unfold Receiver.resume at hresume
      cases hstep : read.resume receiver.conn with
      | none =>
          rw [hstep] at hresume
          cases hresume
      | some result =>
          obtain ⟨read', conn⟩ := result
          obtain ⟨hresumed, hframe⟩ := hreading.resume hstep
          have hreceived' : conn.received = receiver.conn.received := by rw [hframe]
          have hlive' : conn.socket = .live ↔ conn.connected = true := by
            rw [hframe]
            exact hlive
          rw [hstep] at hresume
          cases hresumed with
          | reading recv hreading' =>
              cases hresume
              exact ⟨front, by rw [← hreceived]; exact hreceived', hfits, hlive',
                .reading _ rfl herror hcalls hreading'⟩
          | frame payload hwaiters hscan =>
              cases hresume
              obtain ⟨hfront, hpayload⟩ := frameHeader.eq_of_scan_frame hscan
              refine ⟨conn.buffer, ?_, ?_, hlive', .idle rfl herror ?_ hwaiters rfl⟩
              · rw [Header.stream_append, Header.stream_cons, Header.stream_nil, List.append_nil,
                  List.append_assoc, ← hfront, ← hreceived]
                exact hreceived'
              · exact frameHeader.fits_append.mpr
                  ⟨hfits, frameHeader.fits_cons.mpr ⟨hpayload, frameHeader.fits_nil⟩⟩
              · rw [hcalls, List.length_append, List.length_singleton]
          | refused error hwaiters hrefused =>
              cases hresume
              exact ⟨front, by rw [← hreceived]; exact hreceived', hfits, hlive',
                .failed error rfl rfl hcalls hwaiters hrefused⟩

theorem Splits.step {receiver next : Receiver} {event : ReceiverEvent} {front : List UInt8}
    (hsplits : receiver.Splits front) (hstep : receiver.step event = some next) :
    ∃ behind, next.Splits behind := by
  obtain ⟨hreceived, hfits, hlive, hphase⟩ := hsplits
  cases event with
  | data chunk =>
      simp only [Receiver.step] at hstep
      split at hstep
      next hopen =>
        cases hstep
        refine ⟨front ++ chunk, ?_, hfits, ?_, hphase.onData (hlive.mp hopen) chunk⟩
        · rw [← List.append_assoc, ← hreceived, onData_eq]
        · rw [onData_eq]
          exact hlive
      · cases hstep
  | close =>
      simp only [Receiver.step] at hstep
      split at hstep
      · cases hstep
        refine ⟨front, ?_, hfits, ?_, hphase.onClose⟩
        · rw [← hreceived, onClose_eq]
        · rw [onClose_eq]
          exact ⟨fun hopen => (by cases hopen), fun hopen => (by cases hopen)⟩
      · cases hstep
  | recvFrame =>
      simp only [Receiver.step] at hstep
      split at hstep
      next hidle =>
        cases hstep
        cases hphase with
        | reading read hcurrent => rw [hidle.1] at hcurrent; cases hcurrent
        | failed error hcurrent herror => rw [hidle.2] at herror; cases herror
        | idle hcurrent herror hcalls hwaiters hfront =>
            subst hfront
            refine ⟨receiver.conn.buffer, ?_, hfits, ?_,
              .reading _ rfl herror (by rw [hcalls]) (recvFrame_reading hwaiters)⟩
            · rw [← hreceived, recvFrame_eq]
            · rw [recvFrame_eq]
              exact hlive
      · cases hstep
  | resume =>
      obtain ⟨read, hcurrent, hresume⟩ := Option.bind_eq_some_iff.mp hstep
      exact Splits.resume ⟨hreceived, hfits, hlive, hphase⟩ hcurrent hresume

theorem fresh_splits : fresh.Splits [] :=
  ⟨rfl, frameHeader.fits_nil, by decide, .idle rfl rfl rfl rfl rfl⟩

theorem splits_of_run {events : List ReceiverEvent} {last : Receiver}
    (hrun : run step fresh events = some last) : ∃ front, last.Splits front := by
  refine run_invariant (fun receiver : Receiver => ∃ front, receiver.Splits front) ?_ ⟨[], fresh_splits⟩ hrun
  rintro receiver event next ⟨front, hsplits⟩ hstep
  exact hsplits.step hstep

theorem received_of_step {receiver next : Receiver} {event : ReceiverEvent}
    (hstep : receiver.step event = some next) :
    next.conn.received = receiver.conn.received ++ event.bytes := by
  cases event with
  | data chunk =>
      simp only [Receiver.step] at hstep
      split at hstep
      · cases hstep
        rw [onData_eq]
        rfl
      · cases hstep
  | close =>
      simp only [Receiver.step] at hstep
      split at hstep
      · cases hstep
        rw [onClose_eq]
        exact (List.append_nil _).symm
      · cases hstep
  | recvFrame =>
      simp only [Receiver.step] at hstep
      split at hstep
      · cases hstep
        rw [recvFrame_eq]
        exact (List.append_nil _).symm
      · cases hstep
  | resume =>
      obtain ⟨read, -, hresume⟩ := Option.bind_eq_some_iff.mp hstep
      rw [ReceiverEvent.bytes, List.append_nil]
      unfold Receiver.resume at hresume
      split at hresume
      · cases hresume
      all_goals
        next hturn =>
        have hsame := congrArg UnixSocketConnection.received (FrameRead.resume_eq hturn)
        cases hresume
        exact hsame

/-- The bytes received are those of the events. -/
theorem received_of_run {events : List ReceiverEvent} {receiver last : Receiver}
    (hrun : run step receiver events = some last) :
    last.conn.received = receiver.conn.received ++ events.flatMap ReceiverEvent.bytes := by
  induction events generalizing receiver with
  | nil =>
      cases hrun
      exact (List.append_nil _).symm
  | cons event rest ih =>
      obtain ⟨next, hstep, hrest⟩ := run_cons_eq_some.mp hrun
      rw [ih hrest, received_of_step hstep, List.flatMap_cons, List.append_assoc]

theorem Splits.calls_le {receiver : Receiver} {front : List UInt8}
    (hsplits : receiver.Splits front) :
    receiver.calls ≤ (frameHeader.parse receiver.conn.received).frames.length + 1 := by
  have hinitial := frameHeader.prefix_parse hsplits.received_eq hsplits.fits
  have hlength := hinitial.length_le
  cases hsplits.phase with
  | idle hcurrent herror hcalls => omega
  | reading read hcurrent herror hcalls => omega
  | failed error hcurrent herror hcalls => omega

/-- The turns of the receiver so far are paid for by its calls. -/
theorem own_le_calls {events : List ReceiverEvent} {last : Receiver}
    (hrun : run step fresh events = some last) :
    events.countP ReceiverEvent.own ≤ 3 * last.calls := by
  have hcost := run_countP_le
    (fun receiver : Receiver => 3 * receiver.calls + 2 - receiver.current.elim 0 FrameRead.turns)
    ReceiverEvent.own ?_ hrun
  · change 2 + _ ≤ _ at hcost
    omega
  · intro receiver event next hstep
    have hturns : receiver.current.elim 0 FrameRead.turns ≤ 2 := by
      cases receiver.current with
      | none => decide
      | some read => cases read <;> simp [FrameRead.turns]
    cases event with
    | data chunk =>
        simp only [Receiver.step] at hstep
        split at hstep
        · cases hstep
          exact Nat.le_refl _
        · cases hstep
    | close =>
        simp only [Receiver.step] at hstep
        split at hstep
        · cases hstep
          exact Nat.le_refl _
        · cases hstep
    | recvFrame =>
        simp only [Receiver.step] at hstep
        split at hstep
        next hidle =>
          cases hstep
          simp only [hidle.1, Option.elim, Js.recvFrame, FrameRead.turns, ReceiverEvent.own]
          rw [if_pos trivial]
          omega
        · cases hstep
    | resume =>
        obtain ⟨read, hcurrent, hresume⟩ := Option.bind_eq_some_iff.mp hstep
        rw [hcurrent] at hturns
        unfold Receiver.resume at hresume
        split at hresume
        · cases hresume
        all_goals
          next hturn =>
          cases hresume
          have hless := FrameRead.turns_of_resume hturn
          simp only [hcurrent, Option.elim, ReceiverEvent.own] at hturns hless ⊢
          rw [if_pos trivial]
          omega

/-- When the stream has arrived and `recvFrame` was called once for each
payload, the receiver comes to rest with exactly the payloads. -/
theorem payloads_of_run {events : List ReceiverEvent} {last : Receiver}
    {payloads : List (List UInt8)} (hrun : run step fresh events = some last)
    (hfits : frameHeader.Fits payloads)
    (harrived : last.conn.received = frameHeader.stream payloads)
    (hcalls : last.calls = payloads.length) (hrest : last.step .resume = none) :
    last.payloads = payloads ∧ last.current = none ∧ last.error = none ∧ last.conn.buffer = [] := by
  obtain ⟨front, hreceived, hlast, hlive, hphase⟩ := splits_of_run hrun
  have hparse : frameHeader.parse last.conn.received =
      { frameHeader.parse [] with frames := payloads ++ (frameHeader.parse []).frames } := by
    rw [harrived, ← List.append_nil (frameHeader.stream payloads),
      frameHeader.parse_stream_append hfits]
  have hempty : frameHeader.parse [] = { frames := [], rest := [], ending := .truncated } :=
    frameHeader.parse_of_stuck rfl
  have hframes : (frameHeader.parse last.conn.received).frames = payloads := by
    rw [hparse, hempty, List.append_nil]
  -- a receiver that is stuck has returned every frame, which is one call too many
  have hstuck : ∀ ending, frameHeader.scan front = .stuck ending →
      last.calls ≠ last.payloads.length + 1 := by
    intro ending hscan hmore
    have hsame : (frameHeader.parse last.conn.received).frames = last.payloads := by
      rw [hreceived, frameHeader.parse_stream_append hlast, frameHeader.parse_of_stuck hscan,
        List.append_nil]
    rw [hframes] at hsame
    rw [hsame] at hcalls
    omega
  cases hphase with
  | idle hcurrent herror hcount hwaiters hfront =>
      have hinitial := frameHeader.prefix_parse hreceived hlast
      rw [hframes] at hinitial
      have hsame := hinitial.eq_of_length (by rw [← hcount, hcalls])
      refine ⟨hsame, hcurrent, herror, ?_⟩
      rw [harrived, hsame] at hreceived
      rw [← hfront]
      exact List.append_right_eq_self.mp hreceived.symm
  | reading read hcurrent herror hcount hreading =>
      have hnone : read.resume last.conn = none := by
        rw [Receiver.step, hcurrent, Option.bind_some, Receiver.resume] at hrest
        split at hrest
        · assumption
        all_goals cases hrest
      obtain ⟨-, hscan⟩ := hreading.of_resume_eq_none hnone
      exact absurd hcount (hstuck _ hscan)
  | failed error hcurrent herror hcount hwaiters hrefused =>
      cases hrefused with
      | oversized hscan => exact absurd hcount (hstuck _ hscan)
      | closed hscan => exact absurd hcount (hstuck _ hscan)

/-- The code of the error with which a `recvFrame` refuses a stream. -/
def codeOf : Ending → String
  | .oversized => "EMSGSIZE"
  | .truncated => "ECONNRESET"

/-- When the stream has ended, the receiver comes to rest with the longest
parse of what has arrived, and with the error that its ending demands. -/
theorem parse_of_run {events : List ReceiverEvent} {last : Receiver}
    (hrun : run step fresh events = some last) (hclosed : last.conn.socket = .closed)
    (hcall : last.step .recvFrame = none) (hrest : last.step .resume = none) :
    last.payloads = (frameHeader.parse last.conn.received).frames ∧
      last.error.map TransportError.code =
        some (codeOf (frameHeader.parse last.conn.received).ending) ∧
      ((frameHeader.parse last.conn.received).ending = .oversized →
        last.conn.buffer = (frameHeader.parse last.conn.received).rest.drop 4) := by
  obtain ⟨front, hreceived, hlast, hlive, hphase⟩ := splits_of_run hrun
  have hoffline : last.conn.connected = false := by
    rw [hclosed] at hlive
    by_contra hconnected
    cases hlive.mpr (Bool.eq_true_of_not_eq_false hconnected)
  cases hphase with
  | idle hcurrent herror =>
      rw [Receiver.step, if_pos ⟨hcurrent, herror⟩] at hcall
      cases hcall
  | reading read hcurrent herror hcount hreading =>
      have hnone : read.resume last.conn = none := by
        rw [Receiver.step, hcurrent, Option.bind_some, Receiver.resume] at hrest
        split at hrest
        · assumption
        all_goals cases hrest
      obtain ⟨hconnected, -⟩ := hreading.of_resume_eq_none hnone
      rw [hoffline] at hconnected
      cases hconnected
  | failed error hcurrent herror hcount hwaiters hrefused =>
      rw [hreceived, frameHeader.parse_stream_append hlast, herror]
      cases hrefused with
      | oversized hscan hbuffer =>
          rw [frameHeader.parse_of_stuck hscan]
          exact ⟨(List.append_nil _).symm, rfl, fun _ => hbuffer⟩
      | closed hscan =>
          rw [frameHeader.parse_of_stuck hscan]
          exact ⟨(List.append_nil _).symm, rfl, fun h => by cases h⟩

end Receiver

end Ibridger.Js
