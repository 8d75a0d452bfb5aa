import Ibridger.Cpp.Client
import Ibridger.Cpp.FrameTransfer

/-! # What a step of the C++ client can do

Every step is one of a few moves: the connection is opened or closed, a call goes
from one wait to the next without touching the connection, or a call sends its
request and, if that goes well, receives.
-/

namespace Ibridger.Cpp

open Wire

/-- The answers to system calls that come with an event. -/
def ClientEvent.traffic : ClientEvent → Traffic
  | .call _ _ _ _ traffic => traffic
  | .wake _ _ traffic => traffic
  | _ => {}

/-- The error that `call` returns behind `handle_disconnect`, unless it sends again. -/
def AfterDisconnect.error : AfterDisconnect → ErrorCode
  | .send err => err
  | .resend err => err
  | .recv err => err

namespace Client

/-- Behind a `codec_->send`, with its record. -/
def wrote (client : Client) (i c : Nat) (request : Envelope) (error : Option ErrorCode)
    (conn : UnixSocketConnection) : Client :=
  { client.setLink c { client.links c with conn := conn } with
    writes := client.writes ++
      [⟨i, c, request, conn.wire.drop (client.links c).conn.wire.length, error⟩] }

/-- Behind a `codec_->recv`. -/
def reached (client : Client) (i c : Nat) (conn : UnixSocketConnection) : Client :=
  (client.setLink c { client.links c with conn := conn }).setCall i
    { client.calls i with reachedRecv := true }

/-- What `call` returns for a response. -/
def accept (request response : Envelope) : Except ErrorCode Envelope :=
  if response.requestId = request.requestId then .ok response
  else .error (.ibridger .protocolError)

/-- The arguments of a call. -/
def named (client : Client) (i : Nat) (service method : String) (payload : List UInt8) : Client :=
  client.setCall i
    { client.calls i with service := service, method := method, payload := payload }

/-- Behind the taking of a request id. -/
def begun (client : Client) (i c : Nat) (traffic : Traffic) : Client :=
  ({ client with
      nextRequestId := client.nextRequestId + 1, taken := client.taken + 1 }.setCall i
    { client.calls i with
      request := some (requestOf (client.calls i) client.nextRequestId) }).offer c traffic

/-- Behind a successful attempt of `attempt_reconnect`. -/
def restored (client : Client) (i : Nat) : Client :=
  { client with
    transport := true
    framed := some client.opened
    codec := some client.opened
    opened := client.opened + 1
    callbacks :=
      if client.config.reconnect.any ReconnectConfig.onReconnect then
        client.callbacks ++ [⟨.onReconnect, i, true⟩]
      else client.callbacks }

variable {format : EnvelopeFormat}

variable (format) in
/-- What the sending of a request and the receiving of its response can do. -/
inductive Exchanged (client : Client) (i c : Nat) (request : Envelope)
    (after : ErrorCode → AfterDisconnect) : Client → Prop where
  | unsent {err : ErrorCode} {conn : UnixSocketConnection}
      (hsend : EnvelopeCodec.send format (client.links c).conn request = some (some err, conn)) :
      Exchanged client i c request after
        ((client.wrote i c request (some err) conn).handleDisconnect i (after err))
  | lost {err : ErrorCode} {conn last : UnixSocketConnection}
      (hsend : EnvelopeCodec.send format (client.links c).conn request = some (none, conn))
      (hrecv : EnvelopeCodec.recv format conn = some (.error err, last)) :
      Exchanged client i c request after
        (((client.wrote i c request none conn).reached i c last).handleDisconnect i (.recv err))
  | answered {response : Envelope} {conn last : UnixSocketConnection}
      (hsend : EnvelopeCodec.send format (client.links c).conn request = some (none, conn))
      (hrecv : EnvelopeCodec.recv format conn = some (.ok response, last)) :
      Exchanged client i c request after
        (((client.wrote i c request none conn).reached i c last).setPhase i
          (.returned (accept request response)))

/-! ## What an operation leaves alone -/

section Frame

variable (client : Client) (i c d : Nat)

@[simp] theorem setLink_links (link : Link) :
    (client.setLink c link).links d = if d = c then link else client.links d :=
  Function.update_apply _ _ _ _

@[simp] theorem setCall_calls (j : Nat) (call : Call) :
    (client.setCall i call).calls j = if j = i then call else client.calls j :=
  Function.update_apply _ _ _ _

@[simp] theorem setPhase_calls (j : Nat) (phase : CallPhase) :
    (client.setPhase i phase).calls j =
      if j = i then { client.calls i with phase := phase } else client.calls j :=
  setCall_calls client i j _

theorem setPhase_links (phase : CallPhase) : (client.setPhase i phase).links = client.links := rfl

theorem closeFramed_eq : client.closeFramed = { client with links := client.closeFramed.links } := by
  unfold closeFramed
  split <;> rfl

/-- Closing a connection changes neither what it has carried nor what comes. -/
theorem closeFramed_links :
    ∃ conn : UnixSocketConnection, client.closeFramed.links d = { client.links d with conn := conn } ∧
      conn.wire = (client.links d).conn.wire ∧ conn.sends = (client.links d).conn.sends ∧
      conn.reads = (client.links d).conn.reads := by
  unfold closeFramed
  split
  · exact ⟨_, rfl, rfl, rfl, rfl⟩
  next c _ =>
    rw [setLink_links]
    split
    next hd =>
      subst hd
      refine ⟨_, rfl, ?_⟩
      unfold UnixSocketConnection.close
      split
      · exact ⟨rfl, rfl, rfl⟩
      · exact ⟨rfl, rfl, rfl⟩
    next => exact ⟨_, rfl, rfl, rfl, rfl⟩

theorem wrote_links (request : Envelope) (error : Option ErrorCode)
    (conn : UnixSocketConnection) :
    (client.wrote i c request error conn).links d =
      if d = c then { client.links c with conn := conn } else client.links d :=
  setLink_links client c d _

theorem reached_links (conn : UnixSocketConnection) :
    (client.reached i c conn).links d =
      if d = c then { client.links c with conn := conn } else client.links d :=
  setLink_links client c d _

theorem reached_calls (j : Nat) (conn : UnixSocketConnection) :
    (client.reached i c conn).calls j =
      if j = i then { client.calls i with reachedRecv := true } else client.calls j :=
  setCall_calls _ i j _

variable (after : AfterDisconnect)

/-- `handle_disconnect` writes nothing. -/
theorem handleDisconnect_eq :
    client.handleDisconnect i after =
      { client with
        transport := false
        framed := none
        codec := none
        links := client.closeFramed.links
        calls := Function.update client.calls i
          { client.calls i with phase := .notifying after }
        callbacks :=
          if client.config.onDisconnect then client.callbacks ++ [⟨.onDisconnect, i, false⟩]
          else client.callbacks } := by
  unfold handleDisconnect
  rw [closeFramed_eq]
  rfl

theorem handleDisconnect_calls (j : Nat) :
    (client.handleDisconnect i after).calls j =
      if j = i then { client.calls i with phase := .notifying after } else client.calls j := by
  rw [handleDisconnect_eq]
  exact Function.update_apply _ _ _ _

theorem handleDisconnect_links :
    ∃ conn : UnixSocketConnection,
      (client.handleDisconnect i after).links d = { client.links d with conn := conn } ∧
      conn.wire = (client.links d).conn.wire ∧ conn.sends = (client.links d).conn.sends ∧
      conn.reads = (client.links d).conn.reads := by
  rw [handleDisconnect_eq]
  exact client.closeFramed_links d

end Frame

theorem receive_wrote {client next : Client} {i c : Nat} {request : Envelope}
    {conn : UnixSocketConnection}
    (hreceive : (client.wrote i c request none conn).receive format i c request = some next) :
    (∃ err last, EnvelopeCodec.recv format conn = some (.error err, last) ∧
        next = ((client.wrote i c request none conn).reached i c last).handleDisconnect i
          (.recv err)) ∨
      ∃ response last, EnvelopeCodec.recv format conn = some (.ok response, last) ∧
        next = ((client.wrote i c request none conn).reached i c last).setPhase i
          (.returned (accept request response)) := by
  have hconn : ((client.wrote i c request none conn).links c).conn = conn := by
    simp [wrote, setLink]
  unfold receive at hreceive
  rw [hconn] at hreceive
  cases hrecv : EnvelopeCodec.recv format conn with
  | none =>
      rw [hrecv] at hreceive
      cases hreceive
  | some received =>
      obtain ⟨result, last⟩ := received
      rw [hrecv] at hreceive
      cases result with
      | error err =>
          cases hreceive
          exact .inl ⟨err, last, rfl, rfl⟩
      | ok response =>
          refine .inr ⟨response, last, rfl, ?_⟩
          dsimp only at hreceive
          unfold accept
          split at hreceive
          next hsame =>
            cases hreceive
            rw [if_pos hsame]
            rfl
          next hother =>
            cases hreceive
            rw [if_neg hother]
            rfl

theorem exchange_exchanged {client next : Client} {i c : Nat} {request : Envelope}
    {after : ErrorCode → AfterDisconnect}
    (hexchange : exchange format client i c request after = some next) :
    Exchanged format client i c request after next := by
  unfold exchange transmit at hexchange
  cases hsend : EnvelopeCodec.send format (client.links c).conn request with
  | none =>
      rw [hsend] at hexchange
      cases hexchange
  | some sent =>
      obtain ⟨error, conn⟩ := sent
      rw [hsend] at hexchange
      cases error with
      | some err =>
          cases hexchange
          exact .unsent hsend
      | none =>
          rcases receive_wrote hexchange with ⟨err, last, hrecv, rfl⟩ | ⟨response, last, hrecv, rfl⟩
          · exact .lost hsend hrecv
          · exact .answered hsend hrecv

theorem wrote_conn (client : Client) (i c : Nat) (request : Envelope)
    (error : Option ErrorCode) (conn : UnixSocketConnection) :
    ((client.wrote i c request error conn).links c).conn = conn := by
  rw [wrote_links, if_pos rfl]

theorem Exchanged.exchange_eq {client next : Client} {i c : Nat} {request : Envelope}
    {after : ErrorCode → AfterDisconnect}
    (hexchanged : Exchanged format client i c request after next) :
    exchange format client i c request after = some next := by
  unfold exchange transmit
  cases hexchanged with
  | @unsent err conn hsend =>
      rw [hsend]
      rfl
  | @lost err conn last hsend hrecv =>
      rw [hsend]
      change (client.wrote i c request none conn).receive format i c request = _
      unfold receive
      rw [wrote_conn, hrecv]
      rfl
  | @answered response conn last hsend hrecv =>
      rw [hsend]
      change (client.wrote i c request none conn).receive format i c request = _
      unfold receive
      rw [wrote_conn, hrecv]
      dsimp only
      unfold accept
      split
      · rfl
      · rfl

variable (format) in
/-- What all exchanges have in common: one write, and nothing touched but the
call and its connection. -/
structure Exchanging (client : Client) (i c : Nat) (request : Envelope)
    (after : ErrorCode → AfterDisconnect) (error : Option ErrorCode)
    (conn : UnixSocketConnection) (next : Client) : Prop where
  send_eq : EnvelopeCodec.send format (client.links c).conn request = some (error, conn)
  writes_eq : next.writes = client.writes ++
    [⟨i, c, request, conn.wire.drop (client.links c).conn.wire.length, error⟩]
  calls_eq : ∀ j, j ≠ i → next.calls j = client.calls j
  request_eq : (next.calls i).request = (client.calls i).request
  counters_eq : next.nextRequestId = client.nextRequestId ∧ next.taken = client.taken ∧
    next.opened = client.opened
  config_eq : next.config = client.config
  links_eq : ∀ d,
    (next.links d).conn.wire = (if d = c then conn.wire else (client.links d).conn.wire) ∧
      (next.links d).conn.sends = (if d = c then conn.sends else (client.links d).conn.sends) ∧
      (next.links d).arrived = (client.links d).arrived ∧
      (d ≠ c → (next.links d).conn.reads = (client.links d).conn.reads)
  unsent : ∀ err, error = some err → (next.calls i).phase = .notifying (after err) ∧
    (next.calls i).reachedRecv = (client.calls i).reachedRecv ∧ next.codec = none
  sent : error = none → (next.calls i).reachedRecv = true ∧
    ((∃ err last, EnvelopeCodec.recv format conn = some (.error err, last) ∧
        (next.calls i).phase = .notifying (.recv err) ∧ next.codec = none) ∨
      ∃ response last, EnvelopeCodec.recv format conn = some (.ok response, last) ∧
        (next.calls i).phase = .returned (accept request response) ∧
        next.codec = client.codec ∧ (next.links c).conn = last)

/-- Behind a request that was sent and a `codec_->recv`. -/
theorem sent_links {client : Client} {i c : Nat} {request : Envelope}
    {result : Except ErrorCode Envelope} {conn last : UnixSocketConnection}
    (hrecv : EnvelopeCodec.recv format conn = some (result, last)) (d : Nat) :
    (((client.wrote i c request none conn).reached i c last).links d).conn.wire =
        (if d = c then conn.wire else (client.links d).conn.wire) ∧
      (((client.wrote i c request none conn).reached i c last).links d).conn.sends =
        (if d = c then conn.sends else (client.links d).conn.sends) ∧
      (((client.wrote i c request none conn).reached i c last).links d).arrived =
        (client.links d).arrived ∧
      (d ≠ c → (((client.wrote i c request none conn).reached i c last).links d).conn.reads =
        (client.links d).conn.reads) := by
  obtain ⟨hlast, -⟩ := EnvelopeCodec.recv_taken hrecv
  rw [reached_links]
  by_cases hd : d = c
  · subst hd
    rw [if_pos rfl, if_pos rfl, if_pos rfl, wrote_links, if_pos rfl, hlast]
    exact ⟨rfl, rfl, rfl, fun h => absurd rfl h⟩
  · rw [if_neg hd, if_neg hd, if_neg hd, wrote_links, if_neg hd]
    exact ⟨rfl, rfl, rfl, fun _ => rfl⟩

theorem Exchanged.exchanging {client next : Client} {i c : Nat} {request : Envelope}
    {after : ErrorCode → AfterDisconnect}
    (hexchanged : Exchanged format client i c request after next) :
    ∃ error conn, Exchanging format client i c request after error conn next := by
  cases hexchanged with
  | @unsent err conn hsend =>
      refine ⟨some err, conn, hsend, ?_, ?_, ?_, ?_, ?_, ?_, ?_, ?_⟩
      · rw [handleDisconnect_eq]
        rfl
      · intro j hj
        rw [handleDisconnect_calls, if_neg hj]
        rfl
      · rw [handleDisconnect_calls, if_pos rfl]
        rfl
      · rw [handleDisconnect_eq]
        exact ⟨rfl, rfl, rfl⟩
      · rw [handleDisconnect_eq]
        rfl
      · intro d
        obtain ⟨closed, hclosed, hwire, hsends, hreads⟩ :=
          handleDisconnect_links (client.wrote i c request (some err) conn) i d (after err)
        rw [hclosed, hwire, hsends, hreads, wrote_links]
        split
        next hd =>
          subst hd
          exact ⟨rfl, rfl, rfl, fun h => absurd rfl h⟩
        next => exact ⟨rfl, rfl, rfl, fun _ => rfl⟩
      · intro other hother
        cases hother
        rw [handleDisconnect_calls, if_pos rfl, handleDisconnect_eq]
        exact ⟨rfl, rfl, rfl⟩
      · intro hnone
        cases hnone
  | @lost err conn last hsend hrecv =>
      refine ⟨none, conn, hsend, ?_, ?_, ?_, ?_, ?_, ?_, ?_, ?_⟩
      · rw [handleDisconnect_eq]
        rfl
      · intro j hj
        rw [handleDisconnect_calls, if_neg hj, reached_calls, if_neg hj]
        rfl
      · rw [handleDisconnect_calls, if_pos rfl, reached_calls, if_pos rfl]
        rfl
      · rw [handleDisconnect_eq]
        dsimp only [setCall, reached, setLink, wrote]
        exact ⟨rfl, rfl, rfl⟩
      · rw [handleDisconnect_eq]
        rfl
      · intro d
        obtain ⟨closed, hclosed, hwire, hsends, hreads⟩ :=
          handleDisconnect_links ((client.wrote i c request none conn).reached i c last) i d
            (.recv err)
        rw [hclosed, hwire, hsends, hreads]
        exact sent_links hrecv d
      · intro other hother
        cases hother
      · intro _
        rw [handleDisconnect_calls, if_pos rfl, reached_calls, if_pos rfl, handleDisconnect_eq]
        exact ⟨rfl, .inl ⟨err, last, hrecv, rfl, rfl⟩⟩
  | @answered response conn last hsend hrecv =>
      refine ⟨none, conn, hsend, ?_, ?_, ?_, ?_, ?_, ?_, ?_, ?_⟩
      · dsimp only [setPhase, setCall, reached, setLink, wrote]
      · intro j hj
        rw [setPhase_calls, if_neg hj, reached_calls, if_neg hj]
        rfl
      · rw [setPhase_calls, if_pos rfl, reached_calls, if_pos rfl]
        rfl
      · dsimp only [setPhase, setCall, reached, setLink, wrote]
        exact ⟨rfl, rfl, rfl⟩
      · dsimp only [setPhase, setCall, reached, setLink, wrote]
      · intro d
        rw [setPhase_links]
        exact sent_links hrecv d
      · intro other hother
        cases hother
      · intro _
        rw [setPhase_calls, if_pos rfl, reached_calls, if_pos rfl]
        refine ⟨rfl, .inr ⟨response, last, hrecv, rfl, ?_, ?_⟩⟩
        · dsimp only [setPhase, setCall, reached, setLink, wrote]
        have hlink := reached_links (client.wrote i c request none conn) i c c last
        rw [if_pos rfl] at hlink
        exact congrArg Link.conn hlink

/-- A response that came is what the call returns. -/
theorem Exchanging.received {client next : Client} {i c : Nat} {request response : Envelope}
    {after : ErrorCode → AfterDisconnect} {conn last : UnixSocketConnection}
    (hexchanging : Exchanging format client i c request after none conn next)
    (hrecv : EnvelopeCodec.recv format conn = some (.ok response, last)) :
    (next.calls i).phase = .returned (accept request response) ∧ next.codec = client.codec ∧
      (next.links c).conn = last := by
  rcases (hexchanging.sent rfl).2 with ⟨err, other, hlost, -⟩ | ⟨came, other, hcame, hends⟩
  · rw [hrecv] at hlost
    cases hlost
  · rw [hrecv] at hcame
    cases hcame
    exact hends

/-- The phases between which a call goes without an exchange. -/
inductive Waits : CallPhase → CallPhase → Prop where
  | asleep (attempt : Nat) (delay : Int) : Waits .idle (.sleeping attempt delay none)
  | refused : Waits .idle (.returned (.error (.ibridger .notConnected)))
  | again {attempt : Nat} {delay : Int} {resend : Option ErrorCode} (attempt' : Nat)
      (delay' : Int) : Waits (.sleeping attempt delay resend) (.sleeping attempt' delay' resend)
  | exhausted {attempt : Nat} {delay : Int} {resend : Option ErrorCode} :
      Waits (.sleeping attempt delay resend)
        (.returned (.error (resend.getD (.ibridger .notConnected))))
  | retried {err : ErrorCode} (attempt : Nat) (delay : Int) :
      Waits (.notifying (.send err)) (.sleeping attempt delay (some err))
  | unsent {err : ErrorCode} : Waits (.notifying (.send err)) (.returned (.error err))
  | unresent {err : ErrorCode} : Waits (.notifying (.resend err)) (.returned (.error err))
  | unreceived {err : ErrorCode} : Waits (.notifying (.recv err)) (.returned (.error err))

variable (format) in
/-- What a step can do. -/
inductive Moves (client : Client) : ClientEvent → Client → Prop where
  | connect (outcome : ConnectOutcome) :
      Moves client (.connect outcome) (client.connectLocked outcome).2
  | disconnect : Moves client .disconnect client.disconnect
  | entered (i : Nat) (service method : String) (payload : List UInt8) (traffic : Traffic)
      {phase : CallPhase} (hcodec : client.codec = none)
      (hwaits : Waits (client.calls i).phase phase) :
      Moves client (.call i service method payload traffic)
        ((client.named i service method payload).setPhase i phase)
  | began (i c : Nat) (service method : String) (payload : List UInt8) (traffic : Traffic)
      {next : Client} (hcodec : client.codec = some c) (hidle : (client.calls i).phase = .idle)
      (hexchanged : Exchanged format
        ((client.named i service method payload).begun i c traffic) i c
        (requestOf ((client.named i service method payload).calls i) client.nextRequestId)
        .send next) :
      Moves client (.call i service method payload traffic) next
  | failed (i : Nat) (outcome : ConnectOutcome) (traffic : Traffic) {phase : CallPhase}
      (hcodec : (client.connectLocked outcome).2.codec = client.codec)
      (hwaits : Waits (client.calls i).phase phase) :
      Moves client (.wake i outcome traffic)
        ((client.connectLocked outcome).2.setPhase i phase)
  | restarted (i : Nat) (traffic : Traffic) {attempt : Nat} {delay : Int} {next : Client}
      (hcodec : client.codec = none)
      (hphase : (client.calls i).phase = .sleeping attempt delay none)
      (hexchanged : Exchanged format ((client.restored i).begun i client.opened traffic) i
        client.opened (requestOf (client.calls i) client.nextRequestId) .send next) :
      Moves client (.wake i .connected traffic) next
  | resent (i : Nat) (traffic : Traffic) {attempt : Nat} {delay : Int} {err : ErrorCode}
      {request : Envelope} {next : Client} (hcodec : client.codec = none)
      (hphase : (client.calls i).phase = .sleeping attempt delay (some err))
      (hrequest : (client.calls i).request = some request)
      (hexchanged : Exchanged format ((client.restored i).offer client.opened traffic) i
        client.opened request .resend next) :
      Moves client (.wake i .connected traffic) next
  | resumed (i : Nat) {phase : CallPhase} (hwaits : Waits (client.calls i).phase phase) :
      Moves client (.notified i) (client.setPhase i phase)

theorem attemptReconnect_eq {client : Client} {config : ReconnectConfig}
    (hconfig : client.config.reconnect = some config) (i attempt : Nat)
    (resend : Option ErrorCode) :
    client.attemptReconnect i attempt resend =
      client.setPhase i
        (if attempt < config.limit then .sleeping attempt (config.delay attempt) resend
        else .returned (.error (resend.getD (.ibridger .notConnected)))) := by
  unfold attemptReconnect
  rw [hconfig]
  dsimp only
  split
  · rfl
  · rfl

theorem setPhase_self {client : Client} {i : Nat} {phase : CallPhase}
    (hphase : (client.calls i).phase = phase) : client.setPhase i phase = client := by
  subst hphase
  unfold setPhase setCall
  rw [Function.update_eq_self]

theorem enter_moves {client next : Client} {i : Nat} {service method : String}
    {payload : List UInt8} {traffic : Traffic} (hidle : (client.calls i).phase = .idle)
    (henter : (client.named i service method payload).enter format i traffic = some next) :
    Moves format client (.call i service method payload traffic) next := by
  unfold enter at henter
  have hcodec : (client.named i service method payload).codec = client.codec := rfl
  rw [hcodec] at henter
  split at henter
  next _ c hsome =>
    exact .began i c service method payload traffic hsome hidle (exchange_exchanged henter)
  next config hnone hconfig =>
    rw [attemptReconnect_eq hconfig] at henter
    cases henter
    apply Moves.entered i service method payload traffic hnone
    rw [hidle]
    split
    · exact .asleep _ _
    · exact .refused
  next hnone _ =>
    cases henter
    apply Moves.entered i service method payload traffic hnone
    rw [hidle]
    exact .refused

/-- A failed attempt of a call leaves it where the next attempt, or none, does. -/
theorem attempt_waits {client : Client} {i attempt : Nat} {delay : Int}
    {resend : Option ErrorCode} (hphase : (client.calls i).phase = .sleeping attempt delay resend)
    (attempt' : Nat) :
    ∃ phase, client.attemptReconnect i attempt' resend = client.setPhase i phase ∧
      Waits (client.calls i).phase phase := by
  rw [hphase]
  cases hconfig : client.config.reconnect with
  | none =>
      refine ⟨.sleeping attempt delay resend, ?_, .again _ _⟩
      rw [setPhase_self hphase]
      unfold attemptReconnect
      rw [hconfig]
  | some config =>
      refine ⟨_, attemptReconnect_eq hconfig i attempt' resend, ?_⟩
      split
      · exact .again _ _
      · exact .exhausted

theorem restored_eq (client : Client) (i : Nat) :
    client.restored i =
      if client.config.reconnect.any ReconnectConfig.onReconnect then
        { client with
          transport := true
          framed := some client.opened
          codec := some client.opened
          opened := client.opened + 1
          callbacks := client.callbacks ++ [⟨.onReconnect, i, true⟩] }
      else
        { client with
          transport := true
          framed := some client.opened
          codec := some client.opened
          opened := client.opened + 1 } := by
  unfold restored
  split <;> rfl

theorem wake_moves {client next : Client} {i attempt : Nat} {delay : Int}
    {resend : Option ErrorCode} {outcome : ConnectOutcome} {traffic : Traffic}
    (hphase : (client.calls i).phase = .sleeping attempt delay resend)
    (hwake : wake format client i attempt resend outcome traffic = some next) :
    Moves format client (.wake i outcome traffic) next := by
  unfold wake at hwake
  cases hconnect : client.connectLocked outcome with
  | mk error connected =>
      have hconnected : (client.connectLocked outcome).2 = connected := by rw [hconnect]
      rw [hconnect] at hwake
      unfold connectLocked at hconnect
      cases error with
      | some err =>
          cases hwake
          have hsame : connected.codec = client.codec ∧ connected.calls = client.calls := by
            split at hconnect
            · cases hconnect
              exact ⟨rfl, rfl⟩
            · split at hconnect
              · cases hconnect
                exact ⟨rfl, rfl⟩
              · cases hconnect
                exact ⟨rfl, rfl⟩
              · cases hconnect
          obtain ⟨phase, hattempt, hwaits⟩ :=
            @attempt_waits connected i attempt delay resend (by rw [hsame.2, hphase]) (attempt + 1)
          rw [hattempt, ← hconnected]
          exact .failed i outcome traffic (by rw [hconnected, hsame.1]) (by rwa [← hsame.2])
      | none =>
          split at hconnect
          · cases hconnect
          next hnone =>
            have hcodec : client.codec = none := by simpa using hnone
            split at hconnect
            · cases hconnect
            · cases hconnect
            · cases hconnect
              dsimp only at hwake
              rw [← restored_eq] at hwake
              cases resend with
              | none => exact .restarted i traffic hcodec hphase (exchange_exchanged hwake)
              | some err =>
                  cases hrequest : (client.calls i).request with
                  | none =>
                      have hcalls : ((client.restored i).calls i).request = none := hrequest
                      rw [hcalls] at hwake
                      cases hwake
                  | some request =>
                      have hcalls : ((client.restored i).calls i).request = some request := hrequest
                      rw [hcalls] at hwake
                      exact .resent i traffic hcodec hphase hrequest (exchange_exchanged hwake)

theorem resume_moves {client : Client} {i : Nat} {after : AfterDisconnect}
    (hphase : (client.calls i).phase = .notifying after) :
    Moves format client (.notified i) (client.resume i after) := by
  cases after with
  | send err =>
      unfold resume
      dsimp only
      cases hconfig : client.config.reconnect with
      | none =>
          rw [if_neg (by simp)]
          exact .resumed i (by rw [hphase]; exact .unsent)
      | some config =>
          rw [if_pos (by simp), attemptReconnect_eq hconfig]
          apply Moves.resumed
          rw [hphase]
          split
          · exact .retried _ _
          · exact .unsent
  | resend err => exact .resumed i (by rw [hphase]; exact .unresent)
  | recv err => exact .resumed i (by rw [hphase]; exact .unreceived)

theorem step_moves {client next : Client} {event : ClientEvent}
    (hstep : client.step format event = some next) : Moves format client event next := by
  cases event with
  | connect outcome =>
      cases hstep
      exact .connect outcome
  | disconnect =>
      cases hstep
      exact .disconnect
  | call i service method payload traffic =>
      simp only [step] at hstep
      split at hstep
      next hidle => exact enter_moves hidle hstep
      · cases hstep
  | wake i outcome traffic =>
      simp only [step] at hstep
      split at hstep
      next hphase => exact wake_moves hphase hstep
      · cases hstep
  | notified i =>
      simp only [step] at hstep
      split at hstep
      next hphase =>
        cases hstep
        exact resume_moves hphase
      · cases hstep

/-- A call on a connected client takes a request id and exchanges. -/
theorem step_began {client next : Client} {i c : Nat} {service method : String}
    {payload : List UInt8} {traffic : Traffic} (hcodec : client.codec = some c)
    (hidle : (client.calls i).phase = .idle)
    (hexchanged : Exchanged format ((client.named i service method payload).begun i c traffic) i c
      (requestOf ((client.named i service method payload).calls i) client.nextRequestId)
      .send next) :
    client.step format (.call i service method payload traffic) = some next := by
  dsimp only [step]
  split
  · change (client.named i service method payload).enter format i traffic = _
    unfold enter
    rw [show (client.named i service method payload).codec = some c from hcodec]
    exact hexchanged.exchange_eq
  next hother => exact absurd hidle hother

/-- A call that has restored the connection exchanges on it. -/
theorem wake_connected {client : Client} (hcodec : client.codec = none) (i attempt : Nat)
    (resend : Option ErrorCode) (traffic : Traffic) :
    client.wake format i attempt resend .connected traffic =
      match resend, (client.calls i).request with
      | none, _ => start format (client.restored i) i client.opened traffic
      | some _, some request =>
          exchange format ((client.restored i).offer client.opened traffic) i client.opened request
            .resend
      | some _, none => none := by
  unfold wake connectLocked
  rw [hcodec]
  dsimp only [Option.isSome_none]
  rw [if_neg Bool.false_ne_true]
  dsimp only
  rw [← restored_eq]
  have hrequest : ((client.restored i).calls i).request = (client.calls i).request := rfl
  rw [hrequest]
  cases resend with
  | none => rfl
  | some err =>
      cases (client.calls i).request with
      | none => rfl
      | some request => rfl

/-- A call that found the client disconnected exchanges on the connection that it has
restored. -/
theorem step_restarted {client next : Client} {i attempt : Nat} {traffic : Traffic} {delay : Int}
    (hcodec : client.codec = none) (hphase : (client.calls i).phase = .sleeping attempt delay none)
    (hexchanged : Exchanged format ((client.restored i).begun i client.opened traffic) i
      client.opened (requestOf (client.calls i) client.nextRequestId) .send next) :
    client.step format (.wake i .connected traffic) = some next := by
  simp only [step, hphase]
  rw [wake_connected hcodec]
  exact hexchanged.exchange_eq

/-- A call whose first send failed exchanges again on the connection that it has
restored. -/
theorem step_resent {client next : Client} {i attempt : Nat} {traffic : Traffic} {delay : Int}
    {err : ErrorCode} {request : Envelope} (hcodec : client.codec = none)
    (hphase : (client.calls i).phase = .sleeping attempt delay (some err))
    (hrequest : (client.calls i).request = some request)
    (hexchanged : Exchanged format ((client.restored i).offer client.opened traffic) i
      client.opened request .resend next) :
    client.step format (.wake i .connected traffic) = some next := by
  simp only [step, hphase]
  rw [wake_connected hcodec, hrequest]
  exact hexchanged.exchange_eq

/-- Without reconnecting, a call whose send failed returns its error. -/
theorem step_notified_send {client : Client} {i : Nat} {err : ErrorCode}
    (hphase : (client.calls i).phase = .notifying (.send err))
    (hconfig : client.config.reconnect = none) :
    client.step format (.notified i) = some (client.setPhase i (.returned (.error err))) := by
  simp only [step, hphase, resume, hconfig, Option.isSome_none, Bool.false_eq_true, if_false]

/-! ## Steps with and without an exchange -/

/-- The call has not taken a request id yet. -/
def Fresh : CallPhase → Prop
  | .idle => True
  | .sleeping _ _ none => True
  | _ => False

/-- What a call keeps when it does not exchange anything. -/
structure CallQuiet (before after : Call) : Prop where
  request_eq : after.request = before.request
  reached_eq : after.reachedRecv = before.reachedRecv
  phase : after.phase = before.phase ∨ Waits before.phase after.phase

/-- What a step without an exchange leaves alone. -/
structure Quiet (client next : Client) : Prop where
  writes_eq : next.writes = client.writes
  counters_eq : next.nextRequestId = client.nextRequestId ∧ next.taken = client.taken
  codec : (next.codec = none ∨ next.codec = client.codec) ∧ next.opened = client.opened ∨
    client.codec = none ∧ next.codec = some client.opened ∧ next.opened = client.opened + 1
  links : ∀ d, (next.links d).conn.wire = (client.links d).conn.wire ∧
    (next.links d).conn.sends = (client.links d).conn.sends ∧
    (next.links d).conn.reads = (client.links d).conn.reads ∧
    (next.links d).arrived = (client.links d).arrived
  calls : ∀ i, CallQuiet (client.calls i) (next.calls i)

/-- The state in which a call sends its request: for the first time, with a fresh
request id, or again, on a connection that it has just opened. -/
structure Prepared (client : Client) (i c : Nat) (traffic : Traffic) (request : Envelope)
    (middle : Client) : Prop where
  writes_eq : middle.writes = client.writes
  codec_eq : middle.codec = some c
  conn : client.codec = some c ∧ middle.opened = client.opened ∨
    client.codec = none ∧ c = client.opened ∧ middle.opened = client.opened + 1
  links_eq : ∀ d, middle.links d = (client.offer c traffic).links d
  calls_eq : ∀ j, j ≠ i → middle.calls j = client.calls j
  reached_eq : (middle.calls i).reachedRecv = (client.calls i).reachedRecv
  request_eq : (middle.calls i).request = some request
  round : Fresh (client.calls i).phase ∧ request.requestId = client.nextRequestId ∧
      middle.nextRequestId = client.nextRequestId + 1 ∧ middle.taken = client.taken + 1 ∨
    (∃ attempt delay err, (client.calls i).phase = .sleeping attempt delay (some err)) ∧
      (client.calls i).request = some request ∧ client.codec = none ∧
      middle.nextRequestId = client.nextRequestId ∧ middle.taken = client.taken

section Behind

variable {client middle next : Client} {i c : Nat} {traffic : Traffic} {request : Envelope}
  {after : ErrorCode → AfterDisconnect} {error : Option ErrorCode} {conn : UnixSocketConnection}

theorem Exchanging.others (hexchanging : Exchanging format middle i c request after error conn next)
    (hprepared : Prepared client i c traffic request middle) {j : Nat} (hj : j ≠ i) :
    next.calls j = client.calls j := by
  rw [hexchanging.calls_eq j hj, hprepared.calls_eq j hj]

theorem Exchanging.own_request
    (hexchanging : Exchanging format middle i c request after error conn next)
    (hprepared : Prepared client i c traffic request middle) :
    (next.calls i).request = some request := by
  rw [hexchanging.request_eq, hprepared.request_eq]

/-- Behind an exchange the client is on its connection, or on none. -/
theorem Exchanging.codec_or
    (hexchanging : Exchanging format middle i c request after error conn next) :
    next.codec = none ∨ error = none ∧ next.codec = middle.codec := by
  cases error with
  | some err => exact .inl (hexchanging.unsent err rfl).2.2
  | none =>
      rcases (hexchanging.sent rfl).2 with ⟨err, last, -, -, hnone⟩ | ⟨response, last, -, -, hsame, -⟩
      · exact .inl hnone
      · exact .inr ⟨rfl, hsame⟩

theorem Exchanging.not_fresh
    (hexchanging : Exchanging format middle i c request after error conn next) :
    ¬ Fresh (next.calls i).phase := by
  cases error with
  | some err =>
      rw [(hexchanging.unsent err rfl).1]
      exact id
  | none =>
      rcases (hexchanging.sent rfl).2 with ⟨err, last, -, hphase, -⟩ |
        ⟨response, last, -, hphase, -⟩
      · rw [hphase]
        exact id
      · rw [hphase]
        exact id

end Behind

theorem CallQuiet.refl (call : Call) : CallQuiet call call := ⟨rfl, rfl, .inl rfl⟩

theorem Quiet.refl (client : Client) : Quiet client client :=
  ⟨rfl, ⟨rfl, rfl⟩, .inl ⟨.inr rfl, rfl⟩, fun _ => ⟨rfl, rfl, rfl, rfl⟩, fun _ => .refl _⟩

theorem connectLocked_quiet (client : Client) (outcome : ConnectOutcome) :
    Quiet client (client.connectLocked outcome).2 := by
  unfold connectLocked
  split
  · exact .refl client
  next hnone =>
    have hcodec : client.codec = none := by simpa using hnone
    split
    · exact ⟨rfl, ⟨rfl, rfl⟩, .inl ⟨.inr rfl, rfl⟩, fun _ => ⟨rfl, rfl, rfl, rfl⟩,
        fun _ => .refl _⟩
    · exact ⟨rfl, ⟨rfl, rfl⟩, .inl ⟨.inr rfl, rfl⟩, fun _ => ⟨rfl, rfl, rfl, rfl⟩,
        fun _ => .refl _⟩
    · exact ⟨rfl, ⟨rfl, rfl⟩, .inr ⟨hcodec, rfl, rfl⟩, fun _ => ⟨rfl, rfl, rfl, rfl⟩,
        fun _ => .refl _⟩

theorem connectLocked_calls (client : Client) (outcome : ConnectOutcome) :
    (client.connectLocked outcome).2.calls = client.calls := by
  unfold connectLocked
  split
  · rfl
  · split <;> rfl

theorem disconnect_quiet (client : Client) : Quiet client client.disconnect := by
  unfold disconnect
  rw [closeFramed_eq]
  refine ⟨rfl, ⟨rfl, rfl⟩, .inl ⟨.inl rfl, rfl⟩, ?_, fun _ => .refl _⟩
  intro d
  obtain ⟨conn, hlink, hwire, hsends, hreads⟩ := client.closeFramed_links d
  dsimp only
  rw [hlink]
  exact ⟨hwire, hsends, hreads, rfl⟩

/-- A call that goes on waiting behind a quiet step. -/
theorem Quiet.waits {client next : Client} (hquiet : Quiet client next) {i : Nat}
    {phase : CallPhase} (hcall : (next.calls i).phase = (client.calls i).phase)
    (hwaits : Waits (client.calls i).phase phase) : Quiet client (next.setPhase i phase) := by
  refine ⟨hquiet.writes_eq, hquiet.counters_eq, hquiet.codec, hquiet.links, ?_⟩
  intro j
  obtain ⟨hrequest, hreached, hphase⟩ := hquiet.calls j
  rw [setPhase_calls]
  split
  next hj =>
    subst hj
    exact ⟨hrequest, hreached, .inr hwaits⟩
  next => exact ⟨hrequest, hreached, hphase⟩

theorem named_calls (client : Client) (i j : Nat) (service method : String)
    (payload : List UInt8) :
    ((client.named i service method payload).calls j).phase = (client.calls j).phase ∧
      CallQuiet (client.calls j) ((client.named i service method payload).calls j) := by
  unfold named
  rw [setCall_calls]
  split
  next hj =>
    subst hj
    exact ⟨rfl, rfl, rfl, .inl rfl⟩
  next => exact ⟨rfl, .refl _⟩

theorem named_quiet (client : Client) (i : Nat) (service method : String)
    (payload : List UInt8) : Quiet client (client.named i service method payload) :=
  ⟨rfl, ⟨rfl, rfl⟩, .inl ⟨.inr rfl, rfl⟩, fun _ => ⟨rfl, rfl, rfl, rfl⟩,
    fun j => (client.named_calls i j service method payload).2⟩

theorem begun_calls (client : Client) (i c j : Nat) (traffic : Traffic) :
    (client.begun i c traffic).calls j =
      if j = i then
        { client.calls i with
          request := some (requestOf (client.calls i) client.nextRequestId) }
      else client.calls j :=
  setCall_calls _ i j _

theorem prepared_began {client : Client} {i c : Nat} (service method : String)
    (payload : List UInt8) (traffic : Traffic) (hcodec : client.codec = some c)
    (hidle : (client.calls i).phase = .idle) :
    Prepared client i c traffic
      (requestOf ((client.named i service method payload).calls i) client.nextRequestId)
      ((client.named i service method payload).begun i c traffic) := by
  refine ⟨rfl, hcodec, .inl ⟨hcodec, rfl⟩, fun _ => rfl, ?_, ?_, ?_, .inl ⟨?_, rfl, rfl, rfl⟩⟩
  · intro j hj
    rw [begun_calls, if_neg hj, named, setCall_calls, if_neg hj]
  · rw [begun_calls, if_pos rfl]
    exact (client.named_calls i i service method payload).2.reached_eq
  · rw [begun_calls, if_pos rfl]
    rfl
  · rw [hidle]
    trivial

theorem prepared_restarted {client : Client} {i attempt : Nat} {delay : Int} (traffic : Traffic)
    (hcodec : client.codec = none)
    (hphase : (client.calls i).phase = .sleeping attempt delay none) :
    Prepared client i client.opened traffic (requestOf (client.calls i) client.nextRequestId)
      ((client.restored i).begun i client.opened traffic) := by
  refine ⟨rfl, rfl, .inr ⟨hcodec, rfl, rfl⟩, fun _ => rfl, ?_, ?_, ?_, .inl ⟨?_, rfl, rfl, rfl⟩⟩
  · intro j hj
    rw [begun_calls, if_neg hj]
    rfl
  · rw [begun_calls, if_pos rfl]
    rfl
  · rw [begun_calls, if_pos rfl]
    rfl
  · rw [hphase]
    trivial

theorem prepared_resent {client : Client} {i attempt : Nat} {delay : Int} {err : ErrorCode}
    {request : Envelope} (traffic : Traffic) (hcodec : client.codec = none)
    (hphase : (client.calls i).phase = .sleeping attempt delay (some err))
    (hrequest : (client.calls i).request = some request) :
    Prepared client i client.opened traffic request
      ((client.restored i).offer client.opened traffic) :=
  ⟨rfl, rfl, .inr ⟨hcodec, rfl, rfl⟩, fun _ => rfl, fun _ _ => rfl, rfl, hrequest,
    .inr ⟨⟨attempt, delay, err, hphase⟩, hrequest, hcodec, rfl, rfl⟩⟩

/-- The step sends the request of a call on a connection. -/
inductive Sends (client : Client) : ClientEvent → Nat → Nat → Envelope → Prop where
  | began (i c : Nat) (service method : String) (payload : List UInt8) (traffic : Traffic)
      (hcodec : client.codec = some c) (hidle : (client.calls i).phase = .idle) :
      Sends client (.call i service method payload traffic) i c
        (requestOf ((client.named i service method payload).calls i) client.nextRequestId)
  | restarted (i attempt : Nat) (delay : Int) (traffic : Traffic) (hcodec : client.codec = none)
      (hphase : (client.calls i).phase = .sleeping attempt delay none) :
      Sends client (.wake i .connected traffic) i client.opened
        (requestOf (client.calls i) client.nextRequestId)
  | resent (i attempt : Nat) (delay : Int) (err : ErrorCode) (request : Envelope)
      (traffic : Traffic) (hcodec : client.codec = none)
      (hphase : (client.calls i).phase = .sleeping attempt delay (some err))
      (hrequest : (client.calls i).request = some request) :
      Sends client (.wake i .connected traffic) i client.opened request

/-- A step exchanges nothing, or it sends what its event says, behind its preparation. -/
theorem step_sends {client next : Client} {event : ClientEvent}
    (hstep : client.step format event = some next) :
    Quiet client next ∨
      ∃ i c request after middle error conn, Sends client event i c request ∧
        Prepared client i c event.traffic request middle ∧ (∀ err, (after err).error = err) ∧
        Exchanging format middle i c request after error conn next := by
  cases step_moves hstep with
  | connect outcome => exact .inl (connectLocked_quiet client outcome)
  | disconnect => exact .inl (disconnect_quiet client)
  | entered i service method payload traffic hcodec hwaits =>
      exact .inl ((named_quiet client i service method payload).waits
        (client.named_calls i i service method payload).1 hwaits)
  | began i c service method payload traffic hcodec hidle hexchanged =>
      obtain ⟨error, conn, hexchanging⟩ := hexchanged.exchanging
      exact .inr ⟨i, c, _, _, _, error, conn,
        .began i c service method payload traffic hcodec hidle,
        prepared_began service method payload traffic hcodec hidle, fun _ => rfl, hexchanging⟩
  | failed i outcome traffic hcodec hwaits =>
      exact .inl ((connectLocked_quiet client outcome).waits
        (by rw [connectLocked_calls]) hwaits)
  | restarted i traffic hcodec hphase hexchanged =>
      obtain ⟨error, conn, hexchanging⟩ := hexchanged.exchanging
      exact .inr ⟨i, client.opened, _, _, _, error, conn,
        .restarted i _ _ traffic hcodec hphase, prepared_restarted traffic hcodec hphase,
        fun _ => rfl, hexchanging⟩
  | resent i traffic hcodec hphase hrequest hexchanged =>
      obtain ⟨error, conn, hexchanging⟩ := hexchanged.exchanging
      exact .inr ⟨i, client.opened, _, _, _, error, conn,
        .resent i _ _ _ _ traffic hcodec hphase hrequest,
        prepared_resent traffic hcodec hphase hrequest, fun _ => rfl, hexchanging⟩
  | resumed i hwaits => exact .inl ((Quiet.refl client).waits rfl hwaits)

/-- A step exchanges nothing, or it is one exchange behind its preparation. -/
theorem step_cases {client next : Client} {event : ClientEvent}
    (hstep : client.step format event = some next) :
    Quiet client next ∨
      ∃ i c request after middle error conn, Prepared client i c event.traffic request middle ∧
        (∀ err, (after err).error = err) ∧
        Exchanging format middle i c request after error conn next := by
  rcases step_sends hstep with hquiet |
    ⟨i, c, request, after, middle, error, conn, -, hexchanges⟩
  · exact .inl hquiet
  · exact .inr ⟨i, c, request, after, middle, error, conn, hexchanges⟩

end Client

end Ibridger.Cpp
