import Ibridger.Cpp.ClientState
import Ibridger.Cpp.Mismatch

/-! # The timeout of a call, in C++

`ClientConfig` has a field `timeout`. A `call` sends and receives with blocking
system calls, and nothing ends it when the peer does not.
-/

namespace Ibridger.Cpp

open Transition Wire

/-- `ClientConfig` with its field `timeout`, in milliseconds, which `client.cpp`
does not read. -/
structure TimedClientConfig extends ClientConfig where
  timeout : Int := 30000
deriving DecidableEq

/-- The event, with what a peer makes of its system calls. -/
def ClientEvent.meeting (traffic : Traffic) : ClientEvent → ClientEvent
  | .call i service method payload _ => .call i service method payload traffic
  | .wake i outcome _ => .wake i outcome traffic
  | event => event

namespace Client

variable {format : EnvelopeFormat} {client next : Client} {event : ClientEvent} {c : Nat}
  {request : Envelope}

variable (format) in
/-- Whatever the peer does, the stretch of a call that the event runs comes to its end. -/
def Ends (client : Client) (event : ClientEvent) : Prop :=
  ∀ traffic, (client.step format (event.meeting traffic)).isSome = true

theorem exchangeOf_meeting (client : Client) (event : ClientEvent) (traffic : Traffic) :
    client.exchangeOf (event.meeting traffic) = client.exchangeOf event := by
  cases event with
  | wake i outcome _ => cases outcome <;> rfl
  | call | connect | disconnect | notified => rfl

theorem exchangeOf_sends (hexchange : client.exchangeOf event = some (c, request)) :
    ∃ i, Sends client event i c request := by
  unfold exchangeOf at hexchange
  split at hexchange
  next i service method payload traffic =>
    split at hexchange
    next hidle =>
      obtain ⟨d, hcodec, hpair⟩ := Option.map_eq_some_iff.mp hexchange
      cases hpair
      exact ⟨i, .began i c service method payload traffic hcodec hidle⟩
    · cases hexchange
  next i traffic =>
    split at hexchange
    next hcodec hphase =>
      cases hexchange
      exact ⟨i, .restarted i _ _ traffic hcodec hphase⟩
    next hcodec hphase =>
      obtain ⟨d, hrequest, hpair⟩ := Option.map_eq_some_iff.mp hexchange
      cases hpair
      exact ⟨i, .resent i _ _ _ request traffic hcodec hphase hrequest⟩
    · cases hexchange
  · cases hexchange

/-- A step that sends a request exchanges. -/
theorem Sends.exchanged {i : Nat} (hsends : Sends client event i c request)
    (hstep : client.step format event = some next) :
    ∃ middle after, Prepared client i c event.traffic request middle ∧
      Exchanged format middle i c request after next := by
  cases hsends with
  | began i c service method payload traffic hcodec hidle =>
      cases step_moves hstep with
      | entered _ _ _ _ _ hnone _ =>
          rw [hnone] at hcodec
          cases hcodec
      | began _ d _ _ _ _ hcodec' _ hexchanged =>
          cases hcodec.symm.trans hcodec'
          exact ⟨_, .send, prepared_began service method payload traffic hcodec hidle, hexchanged⟩
  | restarted i attempt delay traffic hcodec hphase =>
      cases step_moves hstep with
      | failed _ _ _ hkept _ =>
          unfold connectLocked at hkept
          rw [hcodec] at hkept
          cases hkept
      | restarted _ _ _ _ hexchanged =>
          exact ⟨_, .send, prepared_restarted traffic hcodec hphase, hexchanged⟩
      | resent _ _ _ hphase' _ _ =>
          cases hphase.symm.trans hphase'
  | resent i attempt delay err request traffic hcodec hphase hrequest =>
      cases step_moves hstep with
      | failed _ _ _ hkept _ =>
          unfold connectLocked at hkept
          rw [hcodec] at hkept
          cases hkept
      | restarted _ _ _ hphase' _ =>
          cases hphase.symm.trans hphase'
      | resent _ _ _ _ hrequest' hexchanged =>
          cases hrequest.symm.trans hrequest'
          exact ⟨_, .resend, prepared_resent traffic hcodec hphase hrequest, hexchanged⟩

/-- A `send` of a frame blocks where the peer takes nothing. -/
theorem send_blocks {conn : UnixSocketConnection} {bytes : List UInt8} (hsends : conn.sends = [])
    (hserialize : format.serialize request = some bytes) (hfits : bytes.length ≤ MAX_FRAME_SIZE) :
    EnvelopeCodec.send format conn request = none := by
  unfold EnvelopeCodec.send
  rw [hserialize]
  dsimp only
  rw [FramedConnection.sendFrame, if_neg (Nat.not_lt.mpr hfits)]
  have hheader : conn.send (encodeHeader bytes.length) = none := by
    rw [UnixSocketConnection.send, hsends]
    rfl
  simp only [IConnection.send, hheader]

/-- A request that does not get to the wire fails without a system call. -/
theorem send_fails (conn : UnixSocketConnection)
    (hunsent : ∀ bytes, format.serialize request = some bytes → MAX_FRAME_SIZE < bytes.length) :
    ∃ err, EnvelopeCodec.send format conn request = some (some err, conn) := by
  unfold EnvelopeCodec.send
  cases hserialize : format.serialize request with
  | none => exact ⟨_, rfl⟩
  | some bytes =>
      dsimp only
      rw [FramedConnection.sendFrame, if_pos (hunsent bytes hserialize)]
      exact ⟨_, rfl⟩

/-- A `recv` blocks where nothing comes. -/
theorem recv_blocks {conn : UnixSocketConnection} (hreads : conn.reads = []) :
    EnvelopeCodec.recv format conn = none := by
  have hheader : FramedConnection.readExact conn 4 = none := by
    rw [FramedConnection.readExact, if_neg (by decide)]
    simp only [IConnection.recv, UnixSocketConnection.recv, hreads, UnixSocketConnection.recvLoop]
  unfold EnvelopeCodec.recv
  rw [FramedConnection.recvFrame, hheader]

/-- A call whose peer takes the request and does not answer does not end. -/
theorem step_unanswered {conn : UnixSocketConnection}
    (hexchange : client.exchangeOf event = some (c, request))
    (hsend : EnvelopeCodec.send format ((client.offer c event.traffic).links c).conn request =
      some (none, conn))
    (hreads : conn.reads = []) : client.step format event = none := by
  rw [Option.eq_none_iff_forall_ne_some]
  intro next hstep
  obtain ⟨i, hsending⟩ := exchangeOf_sends hexchange
  obtain ⟨middle, after, hprepared, hexchanged⟩ := hsending.exchanged hstep
  rw [← hprepared.links_eq] at hsend
  have hnone := @recv_blocks format _ hreads
  cases hexchanged with
  | unsent hsend' => cases hsend.symm.trans hsend'
  | lost hsend' hrecv =>
      cases hsend.symm.trans hsend'
      rw [hnone] at hrecv
      cases hrecv
  | answered hsend' hrecv =>
      cases hsend.symm.trans hsend'
      rw [hnone] at hrecv
      cases hrecv

/-- Where the peer has not taken anything in advance, a call ends whatever the peer does
exactly when it has no request to write, whatever its timeout. -/
theorem ends_iff (hexchange : client.exchangeOf event = some (c, request))
    (hsends : (client.links c).conn.sends = []) :
    client.Ends format event ↔
      ∀ bytes, format.serialize request = some bytes → MAX_FRAME_SIZE < bytes.length := by
  constructor
  · intro hends bytes hserialize
    by_contra hfits
    obtain ⟨next, hstep⟩ := Option.isSome_iff_exists.mp (hends {})
    rw [← exchangeOf_meeting client event {}] at hexchange
    obtain ⟨i, hsending⟩ := exchangeOf_sends hexchange
    obtain ⟨middle, after, hprepared, hexchanged⟩ := hsending.exchanged hstep
    obtain ⟨error, conn, hexchanging⟩ := hexchanged.exchanging
    have hempty : (middle.links c).conn.sends = [] := by
      rw [hprepared.links_eq, (client.offer_links c c _).2.1, hsends, if_pos rfl]
      cases event <;> rfl
    have hnone := @send_blocks format request _ bytes hempty hserialize (Nat.le_of_not_lt hfits)
    rw [hexchanging.send_eq] at hnone
    cases hnone
  · intro hunsent traffic
    rw [← exchangeOf_meeting client event traffic] at hexchange
    obtain ⟨i, hsending⟩ := exchangeOf_sends hexchange
    obtain ⟨middle, after, hprepared, hstep⟩ := @Sends.prepared format _ _ _ _ _ hsending
    obtain ⟨err, hsend⟩ := send_fails (middle.links c).conn hunsent
    rw [hstep _ (.unsent hsend)]
    rfl

end Client

end Ibridger.Cpp
