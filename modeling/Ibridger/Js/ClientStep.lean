import Ibridger.Js.Client

/-! # What the steps of the JS client change

Most steps are about calls and bytes, and leave open what is open. Those that
connect and disconnect, and the turns of the reconnect loops, each change a few
fields of the client.
-/

namespace Ibridger.Js

open Transition UnixSocketConnection Wire

/-! ## What a step changes of a connection -/

namespace UnixSocketConnection

theorem send_eq (conn : UnixSocketConnection) (data : List UInt8) :
    (conn.send data).2 =
      { conn with sends := (conn.send data).2.sends, output := (conn.send data).2.output } := by
  unfold send
  split <;> rfl

theorem recv_socket (conn : UnixSocketConnection) (length : Nat) :
    (conn.recv length).2.socket = conn.socket := by
  rw [recv_eq]

theorem onData_socket (conn : UnixSocketConnection) (chunk : List UInt8) :
    (conn.onData chunk).socket = conn.socket := by
  rw [onData_eq]

theorem onWritten_socket (conn : UnixSocketConnection) (send : Nat)
    (failure : Option (String × Option String)) :
    (conn.onWritten send failure).socket = conn.socket := by
  unfold onWritten
  split <;> rfl

end UnixSocketConnection

theorem sendFrame_eq (conn : UnixSocketConnection) (data : List UInt8) :
    (sendFrame conn data).2 =
      { conn with
        sends := (sendFrame conn data).2.sends, output := (sendFrame conn data).2.output } := by
  unfold sendFrame
  split
  · rfl
  · exact send_eq _ _

theorem FrameSend.resume_eq {conn next : UnixSocketConnection} {send send' : FrameSend}
    (hresume : send.resume conn = some (send', next)) :
    next = { conn with sends := next.sends, output := next.output } := by
  cases FrameSend.resume_cases hresume with
  | writes ticket data hdata hresolved => exact send_eq _ _
  | finishes | fails => rfl

theorem send_output_grows (conn : UnixSocketConnection) (data : List UInt8) :
    conn.output <+: (conn.send data).2.output := by
  unfold UnixSocketConnection.send
  split
  · exact List.prefix_append _ _
  · exact List.prefix_rfl

theorem sendFrame_output_grows (conn : UnixSocketConnection) (data : List UInt8) :
    conn.output <+: (sendFrame conn data).2.output := by
  unfold sendFrame
  split
  · exact List.prefix_rfl
  · exact send_output_grows conn _

theorem resume_output_grows {conn conn' : UnixSocketConnection} {send send' : FrameSend}
    (hresume : send.resume conn = some (send', conn')) : conn.output <+: conn'.output := by
  cases FrameSend.resume_cases hresume with
  | writes ticket data hdata hresolved => exact send_output_grows conn data
  | finishes | fails => exact List.prefix_rfl

theorem sendFrame_socket (conn : UnixSocketConnection) (data : List UInt8) :
    (sendFrame conn data).2.socket = conn.socket := by
  rw [sendFrame_eq]

theorem FrameSend.resume_socket {conn next : UnixSocketConnection} {send send' : FrameSend}
    (hresume : send.resume conn = some (send', next)) : next.socket = conn.socket := by
  rw [FrameSend.resume_eq hresume]

theorem FrameRead.resume_socket {conn next : UnixSocketConnection} {read read' : FrameRead}
    (hresume : read.resume conn = some (read', next)) : next.socket = conn.socket := by
  rw [FrameRead.resume_eq hresume]

/-! ## Steps that leave the connections open or closed -/

/-- The connection that the event ends. -/
def ClientEvent.lost : ClientEvent → Option Nat
  | .close c => some c
  | .error c _ _ => some c
  | _ => none

/-- The beginning and the turns of a call. -/
def ClientEvent.OfCall : ClientEvent → Prop
  | .call _ _ _ _ _ | .poll _ | .timeout _ | .resume _ => True
  | _ => False

/-- The call of a `recvFrame`, and its connection. -/
def Read.owner (read : Read) : Nat × Nat :=
  (read.call, read.conn)

/-- Connecting, disconnecting, and the turns of the reconnect loops. -/
def ClientEvent.Lifecycle : ClientEvent → Prop
  | .connect | .disconnect | .connected _ _ | .connectFailed _ _ | .close _ | .error _ _ _
  | .sleepOver _ => True
  | _ => False

namespace Client

variable {Value : Type}

/-- Nothing is connected, disconnected or about to be. -/
structure Calm (client next : Client Value) : Prop where
  codec_eq : next.codec = client.codec
  opened_eq : next.opened = client.opened
  disconnects_eq : next.disconnects = client.disconnects
  connects_eq : next.connects = client.connects
  loops_eq : next.loops = client.loops
  reconnecting_eq : next.reconnecting = client.reconnecting
  config_eq : next.config = client.config
  socket_eq : ∀ c, (next.conns c).socket = (client.conns c).socket

namespace Calm

theorem refl (client : Client Value) : Calm client client :=
  ⟨rfl, rfl, rfl, rfl, rfl, rfl, rfl, fun _ => rfl⟩

theorem trans {client middle next : Client Value} (hfirst : Calm client middle)
    (hsecond : Calm middle next) : Calm client next :=
  ⟨hsecond.codec_eq.trans hfirst.codec_eq, hsecond.opened_eq.trans hfirst.opened_eq,
    hsecond.disconnects_eq.trans hfirst.disconnects_eq,
    hsecond.connects_eq.trans hfirst.connects_eq, hsecond.loops_eq.trans hfirst.loops_eq,
    hsecond.reconnecting_eq.trans hfirst.reconnecting_eq,
    hsecond.config_eq.trans hfirst.config_eq,
    fun c => (hsecond.socket_eq c).trans (hfirst.socket_eq c)⟩

theorem setCall (client : Client Value) (i : Nat) (call : Call Value) :
    Calm client (client.setCall i call) :=
  ⟨rfl, rfl, rfl, rfl, rfl, rfl, rfl, fun _ => rfl⟩

theorem setPhase (client : Client Value) (i : Nat) (phase : CallPhase Value) :
    Calm client (client.setPhase i phase) :=
  setCall _ _ _

theorem setConn (client : Client Value) {c : Nat} {conn : UnixSocketConnection}
    (hsocket : conn.socket = (client.conns c).socket) : Calm client (client.setConn c conn) := by
  refine ⟨rfl, rfl, rfl, rfl, rfl, rfl, rfl, ?_⟩
  intro other
  by_cases hsame : other = c
  · subst hsame
    simp only [Client.setConn, Function.update_self]
    exact hsocket
  · simp only [Client.setConn, Function.update_of_ne hsame]

theorem finish (client : Client Value) (i : Nat) (result : Except CallError Value) :
    Calm client (client.finish i result) :=
  ⟨rfl, rfl, rfl, rfl, rfl, rfl, rfl, fun _ => rfl⟩

theorem sending (client : Client Value) (i : Nat) {c : Nat} (id timeoutMs : Nat)
    {result : FrameSend × UnixSocketConnection}
    (hsocket : result.2.socket = (client.conns c).socket) :
    Calm client (client.sending i c id timeoutMs result) :=
  (setConn client hsocket).trans (setPhase _ _ _)

variable (format : EnvelopeFormat) (decode : Nat → List UInt8 → Except String Value)

theorem request (client : Client Value) (i c : Nat) (payload : List UInt8) :
    Calm client (client.request format i c payload) := by
  unfold Client.request
  dsimp only
  generalize requestEnvelope (client.calls i) client.nextRequestId payload = envelope
  have htaken : Calm client
      { client.setCall i { client.calls i with envelope := some envelope, conn := some c } with
        nextRequestId := increment client.nextRequestId, callInFlight := true } :=
    ⟨rfl, rfl, rfl, rfl, rfl, rfl, rfl, fun _ => rfl⟩
  split
  · exact htaken.trans (setPhase _ _ _)
  · exact htaken.trans (sending _ _ _ _ (sendFrame_socket _ _))

theorem start (client : Client Value) (i : Nat) : Calm client (client.start format i) := by
  unfold Client.start
  split
  · exact setPhase _ _ _
  · split
    · exact setPhase _ _ _
    · split
      · exact setPhase _ _ _
      · exact request format _ _ _ _

theorem call {client next : Client Value} {i : Nat} {service method : String}
    {encoded : Except String (List UInt8)} {options : CallOptions}
    (hcall : client.call format i service method encoded options = some next) :
    Calm client next := by
  unfold Client.call at hcall
  split at hcall
  · dsimp only at hcall
    split at hcall
    · cases hcall
      exact (setCall _ _ _).trans (setPhase _ _ _)
    · cases hcall
      exact (setCall _ _ _).trans (start format _ _)
  · cases hcall

theorem poll {client next : Client Value} {i : Nat} (hpoll : client.poll i = some next) :
    Calm client next := by
  unfold Client.poll at hpoll
  split at hpoll
  · split at hpoll
    · cases hpoll
      exact setPhase _ _ _
    · split at hpoll
      · cases hpoll
        exact refl _
      · cases hpoll
        exact setPhase _ _ _
  · cases hpoll

theorem receive (client : Client Value) (i id timeoutMs : Nat) :
    Calm client (client.receive i id timeoutMs) := by
  unfold Client.receive
  split
  · exact finish _ _ _
  next c _ =>
    have hconn : Calm client (client.setConn c (recvFrame (client.conns c)).2) :=
      setConn _ (recv_socket _ _)
    exact ⟨hconn.codec_eq, hconn.opened_eq, hconn.disconnects_eq, hconn.connects_eq,
      hconn.loops_eq, hconn.reconnecting_eq, hconn.config_eq, hconn.socket_eq⟩

theorem resume {client next : Client Value} {i : Nat}
    (hresume : client.resume format decode i = some next) : Calm client next := by
  unfold Client.resume at hresume
  split at hresume
  · cases hresume
    exact start format _ _
  · cases hresume
    exact receive _ _ _ _
  · cases hresume
    exact finish _ _ _
  · obtain ⟨result, hsend, rfl⟩ := Option.map_eq_some_iff.mp hresume
    exact sending _ _ _ _ (FrameSend.resume_socket hsend)
  · split at hresume
    · cases hresume
      exact finish _ _ _
    · cases hresume
  · cases hresume
    exact finish _ _ _
  · cases hresume

theorem read {client next : Client Value} {r : Nat} (hread : client.read r = some next) :
    Calm client next := by
  unfold Client.read at hread
  split at hread
  · cases hread
  next read _ =>
    obtain ⟨⟨frame, conn⟩, hresume, rfl⟩ := Option.map_eq_some_iff.mp hread
    have hconn : Calm client (client.setConn read.conn conn) :=
      setConn _ (FrameRead.resume_socket hresume)
    exact ⟨hconn.codec_eq, hconn.opened_eq, hconn.disconnects_eq, hconn.connects_eq,
      hconn.loops_eq, hconn.reconnecting_eq, hconn.config_eq, hconn.socket_eq⟩

theorem timeout {client next : Client Value} {i : Nat} (htimeout : client.timeout i = some next) :
    Calm client next := by
  unfold Client.timeout at htimeout
  split at htimeout
  · split at htimeout
    · cases htimeout
    · cases htimeout
      exact setPhase _ _ _
  · cases htimeout

end Calm

/-! ## What a call changes as it begins to receive -/

section

variable {client : Client Value} {c : Nat}

theorem receive_eq (hcodec : client.codec = some c) (i id timeoutMs : Nat) :
    client.receive i id timeoutMs =
      { (client.setConn c (recvFrame (client.conns c)).2).setPhase i
          (.receiving client.reads.length id timeoutMs) with
        reads := client.reads ++ [⟨i, c, (recvFrame (client.conns c)).1⟩] } := by
  rw [Client.receive, hcodec]

theorem receive_calls (hcodec : client.codec = some c) (i id timeoutMs : Nat) :
    (client.receive i id timeoutMs).calls = Function.update client.calls i
      { client.calls i with phase := .receiving client.reads.length id timeoutMs } := by
  rw [receive_eq hcodec]
  rfl

theorem receive_conns (hcodec : client.codec = some c) (i id timeoutMs : Nat) :
    (client.receive i id timeoutMs).conns c = (recvFrame (client.conns c)).2 := by
  rw [receive_eq hcodec]
  exact Function.update_self _ _ _

theorem receive_reads (hcodec : client.codec = some c) (i id timeoutMs : Nat) :
    (client.receive i id timeoutMs).reads =
      client.reads ++ [⟨i, c, (recvFrame (client.conns c)).1⟩] := by
  rw [receive_eq hcodec]

end

variable {format : EnvelopeFormat} {decode : Nat → List UInt8 → Except String Value}

theorem step_calm {client next : Client Value} {event : ClientEvent}
    (hevent : ¬ event.Lifecycle) (hstep : client.step format decode event = some next) :
    Calm client next := by
  cases event with
  | connect | disconnect | connected | connectFailed | close | error | sleepOver =>
      exact absurd trivial hevent
  | call i service method encoded options => exact Calm.call format hstep
  | data c chunk =>
      simp only [step] at hstep
      split at hstep
      · cases hstep
        exact .setConn _ (onData_socket _ _)
      · cases hstep
  | written c send failure =>
      simp only [step] at hstep
      split at hstep
      · cases hstep
        exact .setConn _ (onWritten_socket _ _ _)
      · cases hstep
  | poll i => exact Calm.poll hstep
  | timeout i => exact Calm.timeout hstep
  | resume i => exact Calm.resume format decode hstep
  | read r => exact Calm.read hstep

theorem disconnect_eq (client : Client Value) :
    client.disconnect = { client with codec := none } := by
  rw [disconnect, codecAsCloseable, if_neg (by decide)]

/-! ## What the reconnect loops leave alone -/

theorem attempt_eq (client : Client Value) (options : ReconnectOptions) (l attempt : Nat) :
    client.attempt options l attempt =
      { client with
        reconnecting := (client.attempt options l attempt).reconnecting
        loops := (client.attempt options l attempt).loops } := by
  unfold Client.attempt
  split <;> rfl

theorem retry_eq (client : Client Value) (l : Nat) :
    client.retry l =
      { client with
        reconnecting := (client.retry l).reconnecting, loops := (client.retry l).loops } := by
  unfold retry
  split
  · exact attempt_eq _ _ _ _
  · rfl

theorem reconnected_eq (client : Client Value) (l : Nat) (throws : Bool) :
    client.reconnected l throws =
      { client with
        reconnecting := (client.reconnected l throws).reconnecting
        loops := (client.reconnected l throws).loops } := by
  unfold reconnected
  split
  · exact retry_eq { client with reconnecting := false } l
  · rfl

theorem onDisconnect_eq (client : Client Value) :
    client.onDisconnect =
      { client with
        codec := none
        disconnects := client.disconnects + 1
        reconnecting := client.onDisconnect.reconnecting
        loops := client.onDisconnect.loops } := by
  unfold onDisconnect
  split
  · rfl
  · unfold scheduleReconnect
    split
    · rfl
    · exact attempt_eq _ _ _ _

/-- Whether a loop or the user connects, the codec becomes the new connection. -/
theorem connected_eq {client next : Client Value} {k : Nat} {throws : Bool}
    (hconnected : client.connected k throws = some next) :
    (∃ loop, client.connects[k]? = some ⟨loop, .pending⟩) ∧
      next = { client with
        codec := some client.opened
        opened := client.opened + 1
        connects := next.connects
        reconnecting := next.reconnecting
        loops := next.loops } := by
  unfold connected at hconnected
  split at hconnected
  next loop hpending =>
    refine ⟨⟨loop, hpending⟩, ?_⟩
    cases loop with
    | none =>
        cases hconnected
        rfl
    | some l =>
        cases hconnected
        rw [reconnected_eq]
  · cases hconnected

theorem connectFailed_eq {client next : Client Value} {k : Nat} {message : String}
    (hfailed : client.connectFailed k message = some next) :
    (∃ loop, client.connects[k]? = some ⟨loop, .pending⟩) ∧
      next = { client with
        connects := next.connects, reconnecting := next.reconnecting, loops := next.loops } := by
  unfold connectFailed at hfailed
  split at hfailed
  next loop hpending =>
    refine ⟨⟨loop, hpending⟩, ?_⟩
    cases loop with
    | none =>
        cases hfailed
        rfl
    | some l =>
        cases hfailed
        rw [retry_eq]
  · cases hfailed

theorem connect_eq (client : Client Value) (loop : Option Nat) :
    client.connect loop = { client with connects := (client.connect loop).connects } := by
  unfold connect
  split <;> rfl

theorem sleepOver_eq {client next : Client Value} {l : Nat}
    (hsleep : client.sleepOver l = some next) :
    (∃ attempt delay, client.loops[l]? = some (.sleeping attempt delay)) ∧
      next = { client with
        connects := next.connects, reconnecting := next.reconnecting, loops := next.loops } := by
  unfold sleepOver at hsleep
  split at hsleep
  next attempt delay hsleeping =>
    refine ⟨⟨attempt, delay, hsleeping⟩, ?_⟩
    dsimp only at hsleep
    split at hsleep
    · cases hsleep
      rw [retry_eq, connect_eq]
    · cases hsleep
      rw [connect_eq]
  · cases hsleep

/-- The end of a connection, whichever of the two events reports it. -/
theorem lost_eq {client next : Client Value} {event : ClientEvent} {c : Nat}
    (hlost : event.lost = some c) (hstep : client.step format decode event = some next) :
    c < client.opened ∧ ∃ conn : UnixSocketConnection, conn.connected = false ∧
      conn.socket ≠ .live ∧ next = (client.setConn c conn).onDisconnect := by
  cases event with
  | close other =>
      cases hlost
      simp only [step] at hstep
      split at hstep
      next hopen =>
        cases hstep
        refine ⟨hopen.1, _, ?_, ?_, rfl⟩
        · rw [onClose_eq]
        · rw [onClose_eq]
          exact fun h => (by cases h)
      · cases hstep
  | error other message code =>
      cases hlost
      simp only [step] at hstep
      split at hstep
      next hopen =>
        cases hstep
        refine ⟨hopen.1, _, ?_, ?_, rfl⟩
        · rw [onError_eq]
        · rw [onError_eq]
          exact fun h => (by cases h)
      · cases hstep
  | connect | disconnect | call | connected | connectFailed | data | written | sleepOver | poll
  | timeout | resume | read => cases hlost

/-- Connecting and disconnecting touch neither a connection nor a call, as long as
none is lost. -/
theorem connecting_eq {client next : Client Value} {event : ClientEvent}
    (hevent : event.Lifecycle) (hkept : event.lost = none)
    (hstep : client.step format decode event = some next) :
    client.opened ≤ next.opened ∧
      next = { client with
        codec := next.codec, opened := next.opened, connects := next.connects
        reconnecting := next.reconnecting, loops := next.loops } := by
  cases event with
  | connect =>
      cases hstep
      rw [connect_eq]
      exact ⟨Nat.le_refl _, rfl⟩
  | disconnect =>
      cases hstep
      rw [disconnect_eq]
      exact ⟨Nat.le_refl _, rfl⟩
  | connected k throws =>
      obtain ⟨-, hnext⟩ := connected_eq hstep
      rw [hnext]
      exact ⟨Nat.le_succ _, rfl⟩
  | connectFailed k message =>
      obtain ⟨-, hnext⟩ := connectFailed_eq hstep
      rw [hnext]
      exact ⟨Nat.le_refl _, rfl⟩
  | sleepOver l =>
      obtain ⟨-, hnext⟩ := sleepOver_eq hstep
      rw [hnext]
      exact ⟨Nat.le_refl _, rfl⟩
  | close | error => cases hkept
  | call | data | written | poll | timeout | resume | read => cases hevent

/-! ## What a call does -/

/-- A call that has taken its id and created its envelope. -/
def begun (client : Client Value) (i c : Nat) (payload : List UInt8) : Client Value :=
  { client.setCall i { client.calls i with
      envelope := some (requestEnvelope (client.calls i) client.nextRequestId payload)
      conn := some c } with
    nextRequestId := increment client.nextRequestId, callInFlight := true }

variable (format decode) in
/-- How a call starts: it is rejected, or it takes an id and hands its envelope
to the codec. -/
inductive Starts (client : Client Value) (i : Nat) : Client Value → Prop where
  | rejected (error : CallError)
      (hbarred : client.codec = none ∨ client.callInFlight = true ∨
        ∃ message, (client.calls i).encoded = .error message) :
      Starts client i (client.settle i (.error error))
  | unserializable (c : Nat) (payload : List UInt8) (hcodec : client.codec = some c)
      (hidle : client.callInFlight = false) (hencoded : (client.calls i).encoded = .ok payload)
      (hserialize : format.serialize
        (requestEnvelope (client.calls i) client.nextRequestId payload) = none) :
      Starts client i ((client.begun i c payload).setPhase i (.failing .unserializable))
  | sending (c : Nat) (payload bytes : List UInt8) (hcodec : client.codec = some c)
      (hidle : client.callInFlight = false) (hencoded : (client.calls i).encoded = .ok payload)
      (hserialize : format.serialize
        (requestEnvelope (client.calls i) client.nextRequestId payload) = some bytes) :
      Starts client i ((client.begun i c payload).sending i c client.nextRequestId
        (client.timeoutMs (client.calls i)) (sendFrame (client.conns c) bytes))

variable (format) in
theorem start_cases (client : Client Value) (i : Nat) :
    Starts format client i (client.start format i) := by
  unfold start
  split
  next hcodec => exact .rejected _ (.inl hcodec)
  next c hcodec =>
    split
    next hbusy => exact .rejected _ (.inr (.inl hbusy))
    next hidle =>
      split
      next message hencoded => exact .rejected _ (.inr (.inr ⟨message, hencoded⟩))
      next payload hencoded =>
        have hfree : client.callInFlight = false := Bool.eq_false_iff.mpr hidle
        unfold request
        dsimp only
        split
        next hserialize => exact .unserializable c payload hcodec hfree hencoded hserialize
        next bytes hserialize => exact .sending c payload bytes hcodec hfree hencoded hserialize

theorem begun_setPhase_calls (client : Client Value) (i c : Nat) (payload : List UInt8)
    (phase : CallPhase Value) :
    ((client.begun i c payload).setPhase i phase).calls = Function.update client.calls i
      { client.calls i with
        envelope := some (requestEnvelope (client.calls i) client.nextRequestId payload)
        conn := some c
        phase := phase } := by
  simp only [setPhase, setCall, begun, Function.update_self, Function.update_idem]

variable (format decode) in
/-- How a call goes on when what it awaits has settled. -/
inductive Resumes (client : Client Value) (i : Nat) : Client Value → Prop where
  | starting (hphase : (client.calls i).phase = .starting) :
      Resumes client i (client.start format i)
  | receiving (c id timeoutMs : Nat)
      (hphase : (client.calls i).phase = .sending c id timeoutMs (.settled (.ok ()))) :
      Resumes client i (client.receive i id timeoutMs)
  | unsent (c id timeoutMs : Nat) (error : TransportError)
      (hphase : (client.calls i).phase = .sending c id timeoutMs (.settled (.error error))) :
      Resumes client i (client.finish i (.error (.transport error)))
  | sending (c id timeoutMs : Nat) (send : FrameSend) (result : FrameSend × UnixSocketConnection)
      (hphase : (client.calls i).phase = .sending c id timeoutMs send)
      (hresume : send.resume (client.conns c) = some result) :
      Resumes client i (client.sending i c id timeoutMs result)
  | received (r id timeoutMs : Nat) (read : Read) (result : Except TransportError (List UInt8))
      (hphase : (client.calls i).phase = .receiving r id timeoutMs)
      (hread : client.reads[r]? = some read) (hsettled : read.frame = .settled result) :
      Resumes client i (client.finish i (received format decode i id result))
  | failing (error : CallError) (hphase : (client.calls i).phase = .failing error) :
      Resumes client i (client.finish i (.error error))

theorem resume_cases {client next : Client Value} {i : Nat}
    (hresume : client.resume format decode i = some next) :
    Resumes format decode client i next := by
  unfold resume at hresume
  split at hresume
  next hphase =>
    cases hresume
    exact .starting hphase
  next c id timeoutMs hphase =>
    cases hresume
    exact .receiving c id timeoutMs hphase
  next c id timeoutMs error hphase =>
    cases hresume
    exact .unsent c id timeoutMs error hphase
  next c id timeoutMs send _ _ hphase =>
    obtain ⟨result, hsend, rfl⟩ := Option.map_eq_some_iff.mp hresume
    exact .sending c id timeoutMs send result hphase hsend
  next r id timeoutMs hphase =>
    split at hresume
    next call conn result hread =>
      cases hresume
      exact .received r id timeoutMs _ result hphase hread rfl
    · cases hresume
  next error hphase =>
    cases hresume
    exact .failing error hphase
  · cases hresume

/-- A call whose `recvFrame` has settled ends with what it makes of the result. -/
theorem step_received {client : Client Value} {i r id timeoutMs reader c : Nat}
    {result : Except TransportError (List UInt8)}
    (hphase : (client.calls i).phase = .receiving r id timeoutMs)
    (hread : client.reads[r]? = some ⟨reader, c, .settled result⟩) :
    client.step format decode (.resume i) =
      some (client.finish i (received format decode i id result)) := by
  simp only [step, resume, hphase, hread]

/-- A call that the user has made. -/
def called (client : Client Value) (i : Nat) (service method : String)
    (encoded : Except String (List UInt8)) (options : CallOptions) : Client Value :=
  client.setCall i
    { service := service, method := method, encoded := encoded, options := options
      phase := .starting, envelope := none, conn := none }

theorem call_cases {client next : Client Value} {i : Nat} {service method : String}
    {encoded : Except String (List UInt8)} {options : CallOptions}
    (hcall : client.call format i service method encoded options = some next) :
    (client.calls i).phase = .idle ∧
      ((client.codec = none ∧
          next = (client.called i service method encoded options).setPhase i .waiting) ∨
        next = (client.called i service method encoded options).start format i) := by
  unfold call at hcall
  split at hcall
  next hphase =>
    refine ⟨hphase, ?_⟩
    dsimp only at hcall
    split at hcall
    next hwait =>
      cases hcall
      exact .inl ⟨Option.isNone_iff_eq_none.mp hwait.1, rfl⟩
    · cases hcall
      exact .inr rfl
  · cases hcall

/-- A call on a connected client that is free hands its envelope to the codec. -/
theorem call_eq_some {client : Client Value} {i c : Nat} {service method : String}
    {payload bytes : List UInt8} {options : CallOptions} {envelope : Envelope}
    (hphase : (client.calls i).phase = .idle) (hcodec : client.codec = some c)
    (hidle : client.callInFlight = false)
    (henvelope : requestEnvelope
      ((client.called i service method (.ok payload) options).calls i) client.nextRequestId payload =
        envelope)
    (hserialize : format.serialize envelope = some bytes) :
    client.step format decode (.call i service method (.ok payload) options) =
      some (((client.called i service method (.ok payload) options).begun i c payload).sending i c
        client.nextRequestId
        (client.timeoutMs ((client.called i service method (.ok payload) options).calls i))
        (sendFrame (client.conns c) bytes)) := by
  have hstart : ((client.called i service method (.ok payload) options).start format i) =
      (client.called i service method (.ok payload) options).request format i c payload := by
    unfold start
    have hcodec' : (client.called i service method (.ok payload) options).codec = some c := hcodec
    have hidle' : (client.called i service method (.ok payload) options).callInFlight = false := hidle
    rw [hcodec']
    dsimp only
    rw [hidle']
    simp only [called, setCall, Function.update_self]
    rfl
  simp only [step, call, hphase]
  rw [if_neg (by rw [hcodec]; simp)]
  change some ((client.called i service method (.ok payload) options).start format i) = _
  rw [hstart, request]
  subst henvelope
  have hserialize' : format.serialize (requestEnvelope
      ((client.called i service method (.ok payload) options).calls i)
      (client.called i service method (.ok payload) options).nextRequestId payload) =
      some bytes := hserialize
  dsimp only
  rw [hserialize']
  rfl

theorem poll_cases {client next : Client Value} {i : Nat} (hpoll : client.poll i = some next) :
    (client.calls i).phase = .waiting ∧
      (next = client.setPhase i .starting ∨ next = client ∨
        next = client.settle i (.error attemptsExhausted)) := by
  unfold poll at hpoll
  split at hpoll
  next hphase =>
    refine ⟨hphase, ?_⟩
    split at hpoll
    · cases hpoll
      exact .inl rfl
    · split at hpoll
      · cases hpoll
        exact .inr (.inl rfl)
      · cases hpoll
        exact .inr (.inr rfl)
  · cases hpoll

theorem timeout_cases {client next : Client Value} {i : Nat}
    (htimeout : client.timeout i = some next) :
    ∃ r id timeoutMs, (client.calls i).phase = .receiving r id timeoutMs ∧
      next = client.setPhase i (.failing (timedOut timeoutMs)) := by
  unfold timeout at htimeout
  split at htimeout
  next r id timeoutMs hphase =>
    split at htimeout
    · cases htimeout
    · cases htimeout
      exact ⟨r, id, timeoutMs, hphase, rfl⟩
  · cases htimeout

theorem read_eq {client next : Client Value} {r : Nat} (hread : client.read r = some next) :
    ∃ read frame conn, client.reads[r]? = some read ∧
      read.frame.resume (client.conns read.conn) = some (frame, conn) ∧
      next = { client.setConn read.conn conn with
        reads := client.reads.set r { read with frame := frame } } := by
  unfold Client.read at hread
  split at hread
  · cases hread
  next read hr =>
    obtain ⟨⟨frame, conn⟩, hresume, rfl⟩ := Option.map_eq_some_iff.mp hread
    exact ⟨read, frame, conn, hr, hresume, rfl⟩

/-- The calls and what they count. -/
structure CallsKept (client next : Client Value) : Prop where
  calls_eq : next.calls = client.calls
  nextRequestId_eq : next.nextRequestId = client.nextRequestId
  callInFlight_eq : next.callInFlight = client.callInFlight
  owners_eq : next.reads.map Read.owner = client.reads.map Read.owner

theorem set_owner {reads : List Read} {r : Nat} {read : Read} (hread : reads[r]? = some read)
    (frame : FrameRead) :
    (reads.set r { read with frame := frame }).map Read.owner = reads.map Read.owner := by
  apply List.ext_getElem?
  intro q
  rw [List.getElem?_map, List.getElem?_map]
  by_cases hsame : r = q
  · subst hsame
    rw [List.getElem?_set_self (List.getElem?_eq_some_iff.mp hread).1, hread]
    rfl
  · rw [List.getElem?_set_ne hsame]

theorem step_callsKept {client next : Client Value} {event : ClientEvent}
    (hevent : ¬ event.OfCall) (hstep : client.step format decode event = some next) :
    CallsKept client next := by
  cases event with
  | call | poll | timeout | resume => exact absurd trivial hevent
  | connect | disconnect | connected | connectFailed | sleepOver =>
      obtain ⟨-, hnext⟩ := connecting_eq (by trivial) rfl hstep
      rw [hnext]
      exact ⟨rfl, rfl, rfl, rfl⟩
  | close c =>
      obtain ⟨-, conn, -, -, rfl⟩ := lost_eq rfl hstep
      rw [onDisconnect_eq]
      exact ⟨rfl, rfl, rfl, rfl⟩
  | error c message code =>
      obtain ⟨-, conn, -, -, rfl⟩ := lost_eq rfl hstep
      rw [onDisconnect_eq]
      exact ⟨rfl, rfl, rfl, rfl⟩
  | data c chunk =>
      simp only [step] at hstep
      split at hstep
      · cases hstep
        exact ⟨rfl, rfl, rfl, rfl⟩
      · cases hstep
  | written c send failure =>
      simp only [step] at hstep
      split at hstep
      · cases hstep
        exact ⟨rfl, rfl, rfl, rfl⟩
      · cases hstep
  | read r =>
      obtain ⟨read, frame, conn, hr, -, rfl⟩ := read_eq hstep
      exact ⟨rfl, rfl, rfl, set_owner hr frame⟩

/-! ## A codec has a live connection -/

/-- What the codec sends on and receives from is open. -/
structure Live (client : Client Value) : Prop where
  codec : ∀ c, client.codec = some c → c < client.opened ∧ (client.conns c).socket = .live
  unopened : ∀ c, client.opened ≤ c → (client.conns c).socket = .live

theorem init_live (config : ClientConfig) : Live (init config : Client Value) :=
  ⟨fun _ hcodec => (by cases hcodec), fun _ _ => rfl⟩

theorem Live.calm {client next : Client Value} (hlive : Live client) (hcalm : Calm client next) :
    Live next := by
  refine ⟨?_, ?_⟩
  · intro c hcodec
    rw [hcalm.codec_eq] at hcodec
    rw [hcalm.opened_eq, hcalm.socket_eq]
    exact hlive.codec c hcodec
  · intro c hc
    rw [hcalm.opened_eq] at hc
    rw [hcalm.socket_eq]
    exact hlive.unopened c hc

/-- The handlers that lose a connection forget the codec, whichever connection it is. -/
theorem Live.lost {client : Client Value} (hlive : Live client) {c : Nat}
    (hc : c < client.opened) (conn : UnixSocketConnection) :
    Live (client.setConn c conn).onDisconnect := by
  rw [onDisconnect_eq]
  refine ⟨fun _ hcodec => (by cases hcodec), ?_⟩
  intro other hother
  change client.opened ≤ other at hother
  have hne : other ≠ c := by
    rintro rfl
    exact Nat.not_lt.mpr hother hc
  simp only [setConn, Function.update_of_ne hne]
  exact hlive.unopened other hother

theorem live_of_step {client next : Client Value} {event : ClientEvent} (hlive : Live client)
    (hstep : client.step format decode event = some next) : Live next := by
  by_cases hcalm : ¬ event.Lifecycle
  · exact hlive.calm (step_calm hcalm hstep)
  cases event with
  | connect =>
      cases hstep
      rw [connect_eq]
      exact ⟨hlive.codec, hlive.unopened⟩
  | disconnect =>
      cases hstep
      rw [disconnect_eq]
      exact ⟨fun _ hcodec => (by cases hcodec), hlive.unopened⟩
  | connected k throws =>
      obtain ⟨-, hnext⟩ := connected_eq hstep
      rw [hnext]
      refine ⟨?_, ?_⟩
      · intro c hcodec
        cases hcodec
        exact ⟨Nat.lt_succ_self _, hlive.unopened _ (Nat.le_refl _)⟩
      · intro c hc
        exact hlive.unopened c (Nat.le_of_succ_le hc)
  | connectFailed k message =>
      obtain ⟨-, hnext⟩ := connectFailed_eq hstep
      rw [hnext]
      exact ⟨hlive.codec, hlive.unopened⟩
  | sleepOver l =>
      obtain ⟨-, hnext⟩ := sleepOver_eq hstep
      rw [hnext]
      exact ⟨hlive.codec, hlive.unopened⟩
  | close c =>
      obtain ⟨hc, conn, -, -, rfl⟩ := lost_eq rfl hstep
      exact hlive.lost hc conn
  | error c message code =>
      obtain ⟨hc, conn, -, -, rfl⟩ := lost_eq rfl hstep
      exact hlive.lost hc conn
  | call | data | written | poll | timeout | resume | read => exact absurd id hcalm

end Client

end Ibridger.Js
