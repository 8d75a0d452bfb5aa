import Ibridger.Foundation.Runs
import Ibridger.Js.FrameWriter

/-! # Sending frames one after another in JS

A run interleaves the turns of code that awaits `sendFrame` for one payload
after the other with the callbacks of the `socket.write` calls it makes, all of
them successful.
-/

namespace Ibridger.Js

open LengthPrefix Transition Wire

/-- Code that awaits `sendFrame` for each of the payloads in `todo`. -/
structure Sender where
  conn : UnixSocketConnection
  todo : List (List UInt8)
  current : Option FrameSend
  results : List (Except TransportError Unit)

inductive SenderEvent where
  | sendFrame
  | written (send : Nat)
  | resume
deriving DecidableEq, Repr

namespace Sender

def ofPayloads (payloads : List (List UInt8)) : Sender where
  conn := .fromSocket
  todo := payloads
  current := none
  results := []

/-- Go on with a `sendFrame` call, or note its result. -/
def advance (sender : Sender) : FrameSend × UnixSocketConnection → Sender
  | (.settled result, conn) =>
      { sender with conn := conn, current := none, results := sender.results ++ [result] }
  | (send, conn) => { sender with conn := conn, current := some send }

def step (sender : Sender) : SenderEvent → Option Sender
  | .sendFrame =>
      match sender.current, sender.todo with
      | none, payload :: rest =>
          some ({ sender with todo := rest }.advance (Js.sendFrame sender.conn payload))
      | _, _ => none
  | .written send =>
      if sender.conn.sends[send]? = some .pending then
        some { sender with conn := sender.conn.onWritten send none }
      else none
  | .resume =>
      match sender.current with
      | none => none
      | some send => (send.resume sender.conn).map sender.advance

/-- The payloads in `sent` have been sent, and one more may be half written. -/
inductive Progress (payloads sent : List (List UInt8)) (sender : Sender) : Prop where
  | idle (hcurrent : sender.current = none) (hpayloads : payloads = sent ++ sender.todo)
      (houtput : sender.conn.output = frameHeader.stream sent)
  | sending (send : FrameSend) (payload : List UInt8) (hcurrent : sender.current = some send)
      (hpayloads : payloads = sent ++ payload :: sender.todo)
      (hwriting : Writing sender.conn (frameHeader.stream sent) payload send)

/-- The sender is under way on a connection that refuses nothing. -/
structure Sending (payloads sent : List (List UInt8)) (sender : Sender) : Prop where
  connected : sender.conn.connected = true
  accepted : Accepted sender.conn
  results_eq : sender.results = sent.map fun _ => .ok ()
  progress : Progress payloads sent sender

theorem ofPayloads_sending (payloads : List (List UInt8)) :
    Sending payloads [] (ofPayloads payloads) :=
  ⟨rfl, fun _ => List.not_mem_nil, rfl, .idle rfl rfl rfl⟩

theorem advance_of_writing {sender : Sender} {before payload : List UInt8}
    {result : FrameSend × UnixSocketConnection}
    (hwriting : Writing result.2 before payload result.1) :
    sender.advance result = { sender with conn := result.2, current := some result.1 } := by
  obtain ⟨send, conn⟩ := result
  cases hwriting with
  | header => rfl
  | body => rfl

theorem Sending.step {payloads sent : List (List UInt8)} {sender next : Sender}
    {event : SenderEvent} (hfits : frameHeader.Fits payloads)
    (hsending : Sending payloads sent sender) (hstep : sender.step event = some next) :
    ∃ sent', Sending payloads sent' next := by
  obtain ⟨hconnected, haccepted, hresults, hprogress⟩ := hsending
  cases event with
  | sendFrame =>
      simp only [Sender.step] at hstep
      split at hstep
      next payload rest hcurrent htodo =>
        cases hstep
        cases hprogress with
        | sending send data hbusy => rw [hcurrent] at hbusy; cases hbusy
        | idle hidle hpayloads houtput =>
            rw [htodo] at hpayloads
            have hpayload : payload.length ≤ MAX_FRAME_SIZE := by
              apply hfits
              rw [hpayloads]
              exact List.mem_append_right _ List.mem_cons_self
            obtain ⟨hwriting, hconn⟩ := sendFrame_writing hconnected hpayload
            rw [advance_of_writing hwriting]
            refine ⟨sent, ?_, ?_, hresults, .sending _ payload rfl hpayloads ?_⟩
            · change (sendFrame sender.conn payload).2.connected = true
              rw [hconn, send_connected hconnected]
              exact hconnected
            · change Accepted (sendFrame sender.conn payload).2
              rw [hconn]
              exact haccepted.send hconnected _
            · rw [← houtput]
              exact hwriting
      · cases hstep
  | written send =>
      simp only [Sender.step] at hstep
      split at hstep
      next hpending =>
        cases hstep
        refine ⟨sent, hconnected, haccepted.onWritten hpending, hresults, ?_⟩
        cases hprogress with
        | idle hcurrent hpayloads houtput => exact .idle hcurrent hpayloads houtput
        | sending send payload hcurrent hpayloads hwriting =>
            refine .sending send payload hcurrent hpayloads (hwriting.congr ?_ rfl)
            rw [UnixSocketConnection.onWritten, List.length_modify]
      · cases hstep
  | resume =>
      cases hprogress with
      | idle hcurrent =>
          simp only [Sender.step, hcurrent] at hstep
          cases hstep
      | sending send payload hcurrent hpayloads hwriting =>
          simp only [Sender.step, hcurrent] at hstep
          obtain ⟨⟨send', conn⟩, hresume, rfl⟩ := Option.map_eq_some_iff.mp hstep
          rcases hwriting.resume haccepted hconnected hresume with
            ⟨hwriting', hconn⟩ | ⟨hsettled, hconn, houtput⟩
          · rw [advance_of_writing hwriting']
            refine ⟨sent, ?_, ?_, hresults, .sending send' payload rfl hpayloads hwriting'⟩
            · change conn.connected = true
              rw [hconn, send_connected hconnected]
              exact hconnected
            · change Accepted conn
              rw [hconn]
              exact haccepted.send hconnected payload
          · subst hsettled hconn
            refine ⟨sent ++ [payload], hconnected, haccepted, ?_, .idle rfl ?_ ?_⟩
            · rw [List.map_append, ← hresults]
              rfl
            · rw [hpayloads, List.append_assoc]
              rfl
            · rw [Header.stream_append, Header.stream_cons, Header.stream_nil, List.append_nil]
              exact houtput

/-- Every payload takes at most five steps. -/
theorem length_le_of_run {payloads : List (List UInt8)} {events : List SenderEvent}
    {last : Sender} (hrun : run step (ofPayloads payloads) events = some last) :
    events.length ≤ 5 * payloads.length := by
  have hweight := run_length_le
    (fun sender : Sender =>
      5 * sender.todo.length + (sender.current.elim 0 FrameSend.turns + pendings sender.conn))
    ?_ hrun
  · change _ ≤ 5 * payloads.length + (0 + 0) at hweight
    omega
  · -- going on never adds to what a `sendFrame` has left to do
    have hadvance : ∀ (sender : Sender) (result : FrameSend × UnixSocketConnection),
        (sender.advance result).current.elim 0 FrameSend.turns +
            pendings (sender.advance result).conn =
          result.1.turns + pendings result.2 ∧ (sender.advance result).todo = sender.todo := by
      intro sender result
      obtain ⟨send, conn⟩ := result
      cases send <;> exact ⟨rfl, rfl⟩
    intro sender event next hstep
    cases event with
    | sendFrame =>
        simp only [Sender.step] at hstep
        split at hstep
        next payload rest hcurrent htodo =>
          cases hstep
          obtain ⟨hturns, hrest⟩ :=
            hadvance { sender with todo := rest } (sendFrame sender.conn payload)
          have hpendings := pendings_send sender.conn (writeUInt32BE payload.length)
          rw [hturns, hrest, htodo, hcurrent, List.length_cons]
          unfold Js.sendFrame
          split
          · simp only [FrameSend.turns, Option.elim]
            omega
          · simp only [FrameSend.turns, Option.elim]
            omega
        · cases hstep
    | written send =>
        simp only [Sender.step] at hstep
        split at hstep
        next hpending =>
          cases hstep
          exact Nat.add_lt_add_left (Nat.add_lt_add_left (pendings_onWritten hpending) _) _
        · cases hstep
    | resume =>
        simp only [Sender.step] at hstep
        split at hstep
        · cases hstep
        next send hcurrent =>
          obtain ⟨result, hresume, rfl⟩ := Option.map_eq_some_iff.mp hstep
          obtain ⟨hturns, hrest⟩ := hadvance sender result
          rw [hturns, hrest, hcurrent]
          exact Nat.add_lt_add_left (FrameSend.turns_of_resume hresume) _

/-- A sender that has nothing left to do and no write left to complete has
written the stream of its payloads. -/
theorem output_of_run {payloads : List (List UInt8)} {events : List SenderEvent} {last : Sender}
    (hfits : frameHeader.Fits payloads) (hrun : run step (ofPayloads payloads) events = some last)
    (hrest : ∀ event, last.step event = none) :
    last.conn.output = frameHeader.stream payloads ∧
      last.results = payloads.map fun _ => .ok () := by
  obtain ⟨sent, hconnected, haccepted, hresults, hprogress⟩ :=
    run_invariant (fun sender => ∃ sent, Sending payloads sent sender)
      (fun _ _ _ ⟨_, hsending⟩ hstep => hsending.step hfits hstep)
      ⟨[], ofPayloads_sending payloads⟩ hrun
  cases hprogress with
  | idle hcurrent hpayloads houtput =>
      have hdone : last.todo = [] := by
        have hsend := hrest .sendFrame
        cases htodo : last.todo with
        | nil => rfl
        | cons payload rest =>
            simp only [Sender.step, hcurrent, htodo] at hsend
            cases hsend
      rw [hdone, List.append_nil] at hpayloads
      rw [hpayloads]
      exact ⟨houtput, hresults⟩
  | sending send payload hcurrent hpayloads hwriting =>
      have hresume := hrest .resume
      simp only [Sender.step, hcurrent, Option.map_eq_none_iff] at hresume
      obtain ⟨ticket, hpending⟩ := hwriting.of_resume_eq_none haccepted hresume
      have hwritten := hrest (.written ticket)
      rw [Sender.step, if_pos hpending] at hwritten
      cases hwritten

end Sender

end Ibridger.Js
