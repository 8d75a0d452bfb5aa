import Ibridger.Cpp.ClientState
import Ibridger.Cpp.RetrySafety

/-! # Requests that are too large, in C++

`send_frame` refuses a frame that is too large before it writes anything. `call`
takes this for a lost connection, as it does with every error of `codec_->send`.
-/

namespace Ibridger.Cpp.Client

open Transition Wire

/-- The call has failed with `frame_too_large`, and nothing else has changed. -/
structure LocalError (client : Client) (i c : Nat) (last : Client) : Prop where
  returned : (last.calls i).phase = .returned (.error (.ibridger .frameTooLarge))
  unwritten : ∀ d, (last.links d).conn.wire = (client.links d).conn.wire
  connected : last.codec = some c ∧ (last.links c).conn.connected = true
  unreported : last.notices = client.notices

variable {format : EnvelopeFormat}

/-- The error of `send_frame` leaves the connection as it is. -/
theorem send_of_oversized {request : Envelope} {bytes : List UInt8}
    (hserialize : format.serialize request = some bytes) (hsize : MAX_FRAME_SIZE < bytes.length)
    (conn : UnixSocketConnection) :
    EnvelopeCodec.send format conn request = some (some (.ibridger .frameTooLarge), conn) := by
  unfold EnvelopeCodec.send
  rw [hserialize]
  dsimp only
  rw [FramedConnection.sendFrame, if_pos hsize]

/-- A connection that is past stays past. -/
theorem Whole.run_ahead {client last : Client} {events : List ClientEvent} {c : Nat}
    (hwhole : Whole client) (hpast : ¬ client.Ahead c)
    (hrun : run (Client.step format) client events = some last) : ¬ last.Ahead c := by
  have hinv : Whole last ∧ ¬ last.Ahead c := by
    refine run_invariant (fun state => Whole state ∧ ¬ state.Ahead c) ?_ ⟨hwhole, hpast⟩ hrun
    rintro state event next ⟨hstate, hnot⟩ hnext
    have hstepped := hstate.step hnext
    exact ⟨hstepped.whole, fun hahead => hnot (hstepped.ahead c hahead)⟩
  exact hinv.2

/-- What a call with a request that is too large does first: the connection is
closed and reported, as if it were lost. -/
theorem oversized_torn {client : Client} {i c : Nat} {service method : String}
    {payload bytes : List UInt8} (hwhole : Whole client) (hcodec : client.codec = some c)
    (hidle : (client.calls i).phase = .idle)
    (hserialize : format.serialize
      (requestOf ((client.named i service method payload).calls i) client.nextRequestId) =
        some bytes)
    (hsize : MAX_FRAME_SIZE < bytes.length) (traffic : Traffic) :
    ∃ next, client.step format (.call i service method payload traffic) = some next ∧
      Torn client c next ∧ (∀ d, (next.links d).conn.wire = (client.links d).conn.wire) ∧
      (next.calls i).phase = .notifying (.send (.ibridger .frameTooLarge)) := by
  have hprepared := prepared_began service method payload traffic hcodec hidle
  have hsend := send_of_oversized hserialize hsize
    (((client.named i service method payload).begun i c traffic).links c).conn
  have hexchanged : Exchanged format ((client.named i service method payload).begun i c traffic) i c
      (requestOf ((client.named i service method payload).calls i) client.nextRequestId) .send _ :=
    .unsent hsend
  refine ⟨_, step_began hcodec hidle hexchanged, ?_, ?_, ?_⟩
  · have hnamed : Whole (client.named i service method payload) :=
      hwhole.congr rfl rfl rfl rfl hwhole.live
    rcases hexchanged.whole (hnamed.begun i c traffic) hprepared.codec_eq with ⟨-, htorn⟩ | ⟨hworks, -⟩
    · exact ⟨htorn.whole, htorn.codec_eq, htorn.closed, htorn.kept, htorn.notices_eq⟩
    · simp only [failsOn, hsend] at hworks
      cases hworks
  · intro d
    obtain ⟨conn, hlink, hwire, -, -⟩ := handleDisconnect_links (wrote _ i c _ _ _) i d _
    rw [hlink, hwire, wrote_links]
    have hsame : ∀ e, (((client.named i service method payload).begun i c traffic).links e).conn.wire =
        (client.links e).conn.wire := by
      intro e
      rw [hprepared.links_eq]
      exact (client.offer_links c e traffic).1
    split
    next hd =>
      subst hd
      exact hsame d
    next => exact hsame d
  · rw [handleDisconnect_calls, if_pos rfl]

/-- A client does not come back to a connection that was torn down. -/
theorem Torn.never_local {client next last : Client} {events : List ClientEvent} {c : Nat}
    (htorn : Torn client c next) (hwhole : Whole client) (hcodec : client.codec = some c)
    (hrun : run (step format) next events = some last) (i : Nat) : ¬ LocalError client i c last := by
  intro hlocal
  have hpast : ¬ next.Ahead c := by
    rw [Ahead, htorn.codec_eq, htorn.kept.1]
    rintro (hnone | hge)
    · cases hnone
    · exact Nat.not_lt.mpr hge (hwhole.codec_lt c hcodec)
  exact htorn.whole.run_ahead hpast hrun (.inl hlocal.connected.1)

theorem Whole.of_reachable {config : ClientConfig} {client : Client}
    (hreach : Reachable (Client.step format) (Client.init config) client) : Whole client :=
  hreach.invariant Whole (fun _ _ _ hstate hstep => (hstate.step hstep).whole) (.init config)

/-- No call with a request that is too large leaves the connection as it was: not in
any client, and not at any time after the call has begun. -/
theorem oversized_never_local {config : ClientConfig} {client : Client} {i c : Nat}
    {service method : String} {payload bytes : List UInt8} {traffic : Traffic}
    (hreach : Reachable (step format) (init config) client) (hcodec : client.codec = some c)
    (hidle : (client.calls i).phase = .idle)
    (hserialize : format.serialize
      (requestOf ((client.named i service method payload).calls i) client.nextRequestId) =
        some bytes)
    (hsize : MAX_FRAME_SIZE < bytes.length) :
    ∃ next, client.step format (.call i service method payload traffic) = some next ∧
      (next.links c).conn.connected = false ∧
      next.notices = client.notices + (if client.config.onDisconnect then 1 else 0) ∧
      ∀ events last, run (step format) next events = some last → ¬ LocalError client i c last := by
  have hwhole := Whole.of_reachable hreach
  obtain ⟨next, hstep, htorn, -, -⟩ := oversized_torn hwhole hcodec hidle hserialize hsize traffic
  exact ⟨next, hstep, htorn.closed, htorn.notices_eq, fun _ _ hrun =>
    htorn.never_local hwhole hcodec hrun i⟩

/-! ## A payload of the size of a frame -/

def filledPayload : List UInt8 := List.replicate MAX_FRAME_SIZE 0

/-- The first request of a client, to a method without a name. -/
def payloadRequest (payload : List UInt8) : Envelope :=
  { Envelope.empty with requestId := 1, payload := payload }

/-- The request as protobuf writes it. -/
def filledMessages : List (Envelope × List UInt8) :=
  [(payloadRequest filledPayload, [16, 1, 42, 128, 128, 128, 8] ++ filledPayload)]

theorem filledMessages_serialize :
    (EnvelopeFormat.knowing filledMessages).serialize (payloadRequest filledPayload) =
      some ([16, 1, 42, 128, 128, 128, 8] ++ filledPayload) :=
  EnvelopeFormat.knowing_serialize (List.nodup_singleton _) (List.mem_singleton_self _)

theorem filled_oversized :
    MAX_FRAME_SIZE < ([16, 1, 42, 128, 128, 128, 8] ++ filledPayload : List UInt8).length := by
  rw [List.length_append, filledPayload, List.length_replicate]
  simp

/-- A client that has only connected. -/
def justConnected : Client :=
  ((init { onDisconnect := true }).connectLocked .connected).2

theorem justConnected_request (payload : List UInt8) :
    requestOf ((justConnected.named 0 "" "" payload).calls 0) justConnected.nextRequestId =
      payloadRequest payload := rfl

theorem justConnected_serialize :
    (EnvelopeFormat.knowing filledMessages).serialize
      (requestOf ((justConnected.named 0 "" "" filledPayload).calls 0) justConnected.nextRequestId) =
        some ([16, 1, 42, 128, 128, 128, 8] ++ filledPayload) := by
  rw [justConnected_request]
  exact filledMessages_serialize

theorem justConnected_reachable :
    Reachable (step (.knowing filledMessages)) (init { onDisconnect := true }) justConnected :=
  ⟨[.connect .connected], rfl⟩

theorem oversized_never_local_filled :
    ∃ next, justConnected.step (.knowing filledMessages) (.call 0 "" "" filledPayload {}) =
        some next ∧ (next.links 0).conn.connected = false := by
  obtain ⟨next, hstep, hclosed, -⟩ := @oversized_never_local _ _ _ 0 0 "" "" filledPayload _ {}
    justConnected_reachable rfl rfl justConnected_serialize filled_oversized
  exact ⟨next, hstep, hclosed⟩

/-- The connection is closed, `on_disconnect` is fired, and the call is not a local error
in any state behind it. -/
theorem oversized_request_disconnects :
    justConnected.isConnected = true ∧
      ∃ next, justConnected.step (.knowing filledMessages) (.call 0 "" "" filledPayload {}) =
          some next ∧
        next.isConnected = false ∧ (next.links 0).conn.connected = false ∧
        (next.links 0).conn.wire = [] ∧ next.notices = 1 ∧
        ∀ events last, run (step (.knowing filledMessages)) next events = some last →
          ¬ LocalError justConnected 0 0 last := by
  have hwhole := Whole.of_reachable justConnected_reachable
  obtain ⟨next, hstep, htorn, hwire, -⟩ := @oversized_torn _ justConnected 0 0 "" "" filledPayload _
    hwhole rfl rfl justConnected_serialize filled_oversized {}
  refine ⟨rfl, next, hstep, ?_, htorn.closed, hwire 0, htorn.notices_eq, ?_⟩
  · rw [htorn.whole.isConnected_eq, htorn.codec_eq]
    rfl
  · intro events last hrun
    exact htorn.never_local hwhole rfl hrun 0

end Ibridger.Cpp.Client
