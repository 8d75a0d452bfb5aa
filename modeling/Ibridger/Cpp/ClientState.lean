import Ibridger.Cpp.ClientStep
import Ibridger.Wire.KnownMessages

/-! # The connection state of the C++ client

`transport_`, `framed_` and `codec_` say together whether the client is connected.
Every operation puts them back in step before it gives up the mutex, and a
connection that a failed send or receive has torn down is reported once.
-/

namespace Ibridger.Cpp

open Transition Wire

/-! ## What is asked of the transport -/

/-- `UnixSocketTransport::connect`: how `::socket` and `::connect` fail, if they do. -/
def UnixSocketTransport.connect (socket connect : Option Errno) : ConnectOutcome :=
  match socket with
  | some errno => .failed (.system errno)
  | none =>
      match connect with
      | some errno => .failed (.system errno)
      | none => .connected

/-- `NamedPipeTransport::connect`: how `WaitNamedPipeA` and `CreateFileA` fail, if they
do. A pipe that does not exist yet is left to the second. -/
def NamedPipeTransport.connect (wait create : Option Errno) : ConnectOutcome :=
  match wait.filter fun code => code.code ≠ 2 with
  | some code => .failed (.system code)
  | none =>
      match create with
      | some code => .failed (.system code)
      | none => .connected

/-- What `connect_locked` may get from `TransportFactory::create` and the transport. -/
inductive ConnectOutcome.Possible : ConnectOutcome → Prop where
  | noTransport : Possible .noTransport
  | unixSocket (socket connect : Option Errno) :
      Possible (UnixSocketTransport.connect socket connect)
  | namedPipe (wait create : Option Errno) : Possible (NamedPipeTransport.connect wait create)

theorem ConnectOutcome.Possible.system {outcome : ConnectOutcome} (hpossible : outcome.Possible)
    {err : ErrorCode} (hfailed : outcome = .failed err) : ∃ errno, err = .system errno := by
  cases hpossible with
  | noTransport => cases hfailed
  | unixSocket socket connect =>
      unfold UnixSocketTransport.connect at hfailed
      split at hfailed
      · cases hfailed
        exact ⟨_, rfl⟩
      · split at hfailed
        · cases hfailed
          exact ⟨_, rfl⟩
        · cases hfailed
  | namedPipe wait create =>
      unfold NamedPipeTransport.connect at hfailed
      split at hfailed
      · cases hfailed
        exact ⟨_, rfl⟩
      · split at hfailed
        · cases hfailed
          exact ⟨_, rfl⟩
        · cases hfailed

/-! ## A connection without an error stays connected -/

namespace FramedConnection

theorem sendFrame_connected {conn next : UnixSocketConnection} {payload : List UInt8}
    (hrun : sendFrame conn payload = some (none, next)) : next.connected = conn.connected := by
  cases sendFrame_eq_some.mp hrun with
  | empty sent _ hfits hempty hheader =>
      rw [(UnixSocketConnection.send_sent hheader).connected_eq, Option.isNone_none, Bool.and_true]
  | body sent count middle _ _ hfits hdata hheader hbody =>
      rw [(UnixSocketConnection.send_sent hbody).connected_eq,
        (UnixSocketConnection.send_sent hheader).connected_eq, Option.isNone_none, Bool.and_true,
        Bool.and_true]

end FramedConnection

theorem EnvelopeCodec.send_connected {format : EnvelopeFormat} {conn next : UnixSocketConnection}
    {envelope : Envelope} (hrun : send format conn envelope = some (none, next)) :
    next.connected = conn.connected := by
  unfold send at hrun
  split at hrun
  · cases hrun
  · exact FramedConnection.sendFrame_connected hrun

theorem EnvelopeCodec.recv_connected {format : EnvelopeFormat} {conn next : UnixSocketConnection}
    {envelope : Envelope} (hrun : recv format conn = some (.ok envelope, next)) :
    next.connected = conn.connected := by
  obtain ⟨-, -, htaken⟩ := recv_taken hrun
  obtain ⟨payload, -, -, -, hflag⟩ := htaken envelope rfl
  exact hflag

namespace Client

variable (format : EnvelopeFormat)

/-! ## The connections that a run loses -/

/-- The connection on which a step sends and receives, and its request. -/
def exchangeOf (client : Client) : ClientEvent → Option (Nat × Envelope)
  | .call i service method payload _ =>
      match (client.calls i).phase with
      | .idle => client.codec.map fun c =>
          (c, requestOf ((client.named i service method payload).calls i) client.nextRequestId)
      | _ => none
  | .wake i .connected _ =>
      match client.codec, (client.calls i).phase with
      | none, .sleeping _ _ none =>
          some (client.opened, requestOf (client.calls i) client.nextRequestId)
      | none, .sleeping _ _ (some _) =>
          (client.calls i).request.map fun request => (client.opened, request)
      | _, _ => none
  | _ => none

/-- Whether the `codec_->send` of a request or the `codec_->recv` behind it fails. -/
def failsOn (conn : UnixSocketConnection) (request : Envelope) : Bool :=
  match EnvelopeCodec.send format conn request with
  | none => false
  | some (some _, _) => true
  | some (none, conn) =>
      match EnvelopeCodec.recv format conn with
      | some (.error _, _) => true
      | _ => false

/-- The connection on which a send or a receive of the step fails. -/
def failed (client : Client) (event : ClientEvent) : Option Nat :=
  (client.exchangeOf event).bind fun (c, request) =>
    if failsOn format ((client.offer c event.traffic).links c).conn request then some c else none

/-- The connections on which a send or a receive of a run fails, in order. -/
def failures : Client → List ClientEvent → List Nat
  | _, [] => []
  | client, event :: rest =>
      (client.failed format event).toList ++
        ((client.step format event).elim [] fun next => failures next rest)

/-- How often `on_disconnect` has been fired. -/
def notices (client : Client) : Nat :=
  client.callbacks.countP fun callback => callback.kind = .onDisconnect

/-! ## The three fields -/

/-- The connection is the current one, or has not been opened yet. -/
def Ahead (client : Client) (c : Nat) : Prop :=
  client.codec = some c ∨ client.opened ≤ c

/-- What holds of a client whenever its mutex is free. -/
structure Whole (client : Client) : Prop where
  framed_eq : client.framed = client.codec
  transport_eq : client.transport = client.codec.isSome
  codec_lt : ∀ c, client.codec = some c → c < client.opened
  live : ∀ c, client.Ahead c → (client.links c).conn.connected = true

theorem Whole.init (config : ClientConfig) : Whole (init config) :=
  ⟨rfl, rfl, fun _ h => (by cases h), fun _ _ => rfl⟩

theorem Whole.congr {client next : Client} (hwhole : Whole client)
    (hframed : next.framed = client.framed) (htransport : next.transport = client.transport)
    (hcodec : next.codec = client.codec) (hopened : next.opened = client.opened)
    (hlive : ∀ c, client.Ahead c → (next.links c).conn.connected = true) : Whole next := by
  refine ⟨?_, ?_, ?_, ?_⟩
  · rw [hframed, hcodec]
    exact hwhole.framed_eq
  · rw [htransport, hcodec]
    exact hwhole.transport_eq
  · rw [hcodec, hopened]
    exact hwhole.codec_lt
  · intro c hc
    rw [Ahead, hcodec, hopened] at hc
    exact hlive c hc

theorem Whole.setPhase {client : Client} (hwhole : Whole client) (i : Nat) (phase : CallPhase) :
    Whole (client.setPhase i phase) :=
  hwhole.congr rfl rfl rfl rfl hwhole.live

theorem Whole.isConnected_eq {client : Client} (hwhole : Whole client) :
    client.isConnected = client.codec.isSome := by
  rw [isConnected, hwhole.framed_eq]
  cases hcodec : client.codec with
  | none => rfl
  | some c => exact hwhole.live c (.inl hcodec)

theorem closeFramed_links_apply {client : Client} {c : Nat} (hframed : client.framed = some c)
    (d : Nat) :
    client.closeFramed.links d =
      if d = c then { client.links c with conn := (client.links c).conn.close }
      else client.links d := by
  unfold closeFramed
  rw [hframed]
  exact setLink_links _ _ _ _

theorem close_connected (conn : UnixSocketConnection) : conn.close.connected = false := by
  unfold UnixSocketConnection.close
  split
  · rfl
  next h => simpa using h

/-- What a send or a receive on connection `c` leaves alone. -/
structure Carried (client : Client) (c : Nat) (next : Client) : Prop where
  framed_eq : next.framed = client.framed
  transport_eq : next.transport = client.transport
  codec_eq : next.codec = client.codec
  opened_eq : next.opened = client.opened
  config_eq : next.config = client.config
  notices_eq : next.notices = client.notices
  links_eq : ∀ d, d ≠ c → next.links d = client.links d

theorem Carried.trans {client middle next : Client} {c : Nat} (hfirst : Carried client c middle)
    (hsecond : Carried middle c next) : Carried client c next :=
  ⟨hsecond.framed_eq.trans hfirst.framed_eq, hsecond.transport_eq.trans hfirst.transport_eq,
    hsecond.codec_eq.trans hfirst.codec_eq, hsecond.opened_eq.trans hfirst.opened_eq,
    hsecond.config_eq.trans hfirst.config_eq, hsecond.notices_eq.trans hfirst.notices_eq,
    fun d hd => (hsecond.links_eq d hd).trans (hfirst.links_eq d hd)⟩

theorem wrote_carried (client : Client) (i c : Nat) (request : Envelope)
    (error : Option ErrorCode) (conn : UnixSocketConnection) :
    Carried client c (client.wrote i c request error conn) :=
  ⟨rfl, rfl, rfl, rfl, rfl, rfl, fun _ hd => (wrote_links ..).trans (if_neg hd)⟩

theorem reached_carried (client : Client) (i c : Nat) (conn : UnixSocketConnection) :
    Carried client c (client.reached i c conn) :=
  ⟨rfl, rfl, rfl, rfl, rfl, rfl, fun _ hd => (reached_links ..).trans (if_neg hd)⟩

/-- What tearing a connection down leaves. -/
structure Torn (client : Client) (c : Nat) (next : Client) : Prop where
  whole : Whole next
  codec_eq : next.codec = none
  closed : (next.links c).conn.connected = false
  kept : next.opened = client.opened ∧ next.config = client.config
  notices_eq : next.notices = client.notices + if client.config.onDisconnect then 1 else 0

/-- `handle_disconnect` restores the three fields before it gives up the mutex,
whatever the send or the receive has left of the connection. -/
theorem Carried.torn {client middle : Client} {c : Nat} (hcarried : Carried client c middle)
    (hwhole : Whole client) (hcodec : client.codec = some c) (i : Nat) (after : AfterDisconnect) :
    Torn client c (middle.handleDisconnect i after) := by
  have hframed : middle.framed = some c := by
    rw [hcarried.framed_eq, hwhole.framed_eq, hcodec]
  have hlt := hwhole.codec_lt c hcodec
  rw [handleDisconnect_eq]
  refine ⟨⟨rfl, rfl, fun _ h => (by cases h), ?_⟩, rfl, ?_,
    ⟨hcarried.opened_eq, hcarried.config_eq⟩, ?_⟩
  · intro d hd
    dsimp only at hd ⊢
    rw [hcarried.opened_eq] at hd
    rcases hd with hnone | hd
    · cases hnone
    · have hne : d ≠ c := by
        rintro rfl
        exact Nat.not_lt.mpr hd hlt
      rw [closeFramed_links_apply hframed, if_neg hne, hcarried.links_eq d hne]
      exact hwhole.live d (.inr hd)
  · dsimp only
    rw [closeFramed_links_apply hframed, if_pos rfl]
    exact close_connected _
  · rw [← hcarried.notices_eq, ← hcarried.config_eq]
    unfold notices
    dsimp only
    split
    · rw [List.countP_append]
      rfl
    · rfl

theorem disconnect_eq (client : Client) :
    client.disconnect =
      { client with
        framed := none, codec := none, transport := false, links := client.closeFramed.links } := by
  unfold disconnect
  rw [closeFramed_eq]

theorem Whole.disconnect {client : Client} (hwhole : Whole client) : Whole client.disconnect := by
  rw [disconnect_eq]
  refine ⟨rfl, rfl, fun _ h => (by cases h), ?_⟩
  intro d hd
  rcases hd with hcodec | hd
  · cases hcodec
  · dsimp only
    cases hframed : client.framed with
    | none =>
        unfold closeFramed
        rw [hframed]
        exact hwhole.live d (.inr hd)
    | some c =>
        have hlt := hwhole.codec_lt c (hwhole.framed_eq ▸ hframed)
        have hne : d ≠ c := by
          rintro rfl
          exact Nat.not_lt.mpr hd hlt
        rw [closeFramed_links_apply hframed, if_neg hne]
        exact hwhole.live d (.inr hd)

theorem Whole.connectLocked {client : Client} (hwhole : Whole client) (outcome : ConnectOutcome) :
    Whole (client.connectLocked outcome).2 ∧
      (client.connectLocked outcome).2.notices = client.notices := by
  unfold Client.connectLocked
  split
  · exact ⟨hwhole, rfl⟩
  next hnone =>
    have hcodec : client.codec = none := by simpa using hnone
    have hframed := hwhole.framed_eq
    rw [hcodec] at hframed
    have hfailed : Whole { client with transport := false } :=
      ⟨hwhole.framed_eq, by rw [hcodec]; rfl, hwhole.codec_lt, hwhole.live⟩
    split
    · exact ⟨hfailed, rfl⟩
    · exact ⟨hfailed, rfl⟩
    · refine ⟨⟨rfl, rfl, ?_, ?_⟩, rfl⟩
      · intro c hc
        cases hc
        exact Nat.lt_succ_self _
      · intro d hd
        rcases hd with hd | hd
        · cases hd
          exact hwhole.live _ (.inr (Nat.le_refl _))
        · exact hwhole.live d (.inr (Nat.le_of_succ_le hd))

/-! ## What an exchange does to them -/

variable {format}

theorem offer_connected (client : Client) (c d : Nat) (traffic : Traffic) :
    ((client.offer c traffic).links d).conn.connected = (client.links d).conn.connected := by
  unfold offer
  rw [setLink_links]
  split
  next hd =>
    subst hd
    rfl
  next => rfl

theorem Exchanged.whole {middle next : Client} {i c : Nat} {request : Envelope}
    {after : ErrorCode → AfterDisconnect} (hwhole : Whole middle)
    (hcodec : middle.codec = some c)
    (hexchanged : Exchanged format middle i c request after next) :
    failsOn format (middle.links c).conn request = true ∧ Torn middle c next ∨
      failsOn format (middle.links c).conn request = false ∧ Whole next ∧
        next.codec = some c ∧ next.opened = middle.opened ∧ next.config = middle.config ∧
        next.notices = middle.notices := by
  cases hexchanged with
  | @unsent err conn hsend =>
      refine .inl ⟨by simp only [failsOn, hsend], ?_⟩
      exact (wrote_carried _ _ _ _ _ _).torn hwhole hcodec i (after err)
  | @lost err conn last hsend hrecv =>
      refine .inl ⟨by simp only [failsOn, hsend, hrecv], ?_⟩
      have hcarried := (wrote_carried middle i c request none conn).trans (reached_carried _ i c last)
      exact hcarried.torn hwhole hcodec i (.recv err)
  | @answered response conn last hsend hrecv =>
      have hcarried := (wrote_carried middle i c request none conn).trans (reached_carried _ i c last)
      have hreached : Whole ((middle.wrote i c request none conn).reached i c last) := by
        refine hwhole.congr hcarried.framed_eq hcarried.transport_eq hcarried.codec_eq
          hcarried.opened_eq ?_
        intro d hd
        rw [reached_links]
        split
        · dsimp only
          rw [EnvelopeCodec.recv_connected hrecv, EnvelopeCodec.send_connected hsend]
          exact hwhole.live c (.inl hcodec)
        next hne =>
          rw [wrote_links, if_neg hne]
          exact hwhole.live d hd
      refine .inr ⟨by simp only [failsOn, hsend, hrecv], hreached.setPhase i _,
        hcarried.codec_eq.trans hcodec, hcarried.opened_eq, hcarried.config_eq,
        hcarried.notices_eq⟩

theorem Whole.offer {client : Client} (hwhole : Whole client) (c : Nat) (traffic : Traffic) :
    Whole (client.offer c traffic) := by
  refine hwhole.congr rfl rfl rfl rfl ?_
  intro d hd
  rw [offer_connected]
  exact hwhole.live d hd

theorem Whole.begun {client : Client} (hwhole : Whole client) (i c : Nat) (traffic : Traffic) :
    Whole (client.begun i c traffic) := by
  unfold Client.begun
  apply Whole.offer
  exact hwhole.congr rfl rfl rfl rfl hwhole.live

theorem Whole.restored {client : Client} (hwhole : Whole client) (i : Nat) :
    Whole (client.restored i) ∧ (client.restored i).notices = client.notices := by
  refine ⟨⟨rfl, rfl, ?_, ?_⟩, ?_⟩
  · intro c hc
    cases hc
    exact Nat.lt_succ_self _
  · intro d hd
    rcases hd with hd | hd
    · cases hd
      exact hwhole.live _ (.inr (Nat.le_refl _))
    · exact hwhole.live d (.inr (Nat.le_of_succ_le hd))
  · unfold Client.restored notices
    dsimp only
    split
    · rw [List.countP_append]
      rfl
    · rfl

variable (format) in
/-- What a step does to the three fields and reports. -/
structure Stepped (client : Client) (event : ClientEvent) (next : Client) : Prop where
  whole : Whole next
  config_eq : next.config = client.config
  ahead : ∀ c, next.Ahead c → client.Ahead c
  quiet : client.failed format event = none → next.notices = client.notices
  reported : ∀ c, client.failed format event = some c →
    client.Ahead c ∧ ¬ next.Ahead c ∧
      next.notices = client.notices + if client.config.onDisconnect then 1 else 0

/-- A step that exchanges something fails on its connection, or it does not. -/
theorem Exchanged.stepped {client middle next : Client} {event : ClientEvent} {i c : Nat}
    {request : Envelope} {after : ErrorCode → AfterDisconnect} (hmiddle : Whole middle)
    (hcodec : middle.codec = some c) (hconfig : middle.config = client.config)
    (hnotices : middle.notices = client.notices) (hahead : ∀ d, middle.Ahead d → client.Ahead d)
    (hexchange : client.exchangeOf event = some (c, request))
    (hlink : middle.links c = (client.offer c event.traffic).links c)
    (hexchanged : Exchanged format middle i c request after next) :
    Stepped format client event next := by
  have hfailed : client.failed format event =
      if failsOn format (middle.links c).conn request then some c else none := by
    rw [failed, hexchange, Option.bind_some, hlink]
  have hlt := hmiddle.codec_lt c hcodec
  rcases hexchanged.whole hmiddle hcodec with ⟨hfails, htorn⟩ |
    ⟨hworks, hwhole, hcodec', hopened, hconfig', hnotices'⟩
  · rw [if_pos hfails] at hfailed
    obtain ⟨hopened, hconfig'⟩ := htorn.kept
    refine ⟨htorn.whole, hconfig'.trans hconfig, ?_, ?_, ?_⟩
    · intro d hd
      rw [Ahead, htorn.codec_eq, hopened] at hd
      exact hahead d (hd.elim (fun h => (by cases h)) .inr)
    · intro hnone
      rw [hfailed] at hnone
      cases hnone
    · intro d hd
      rw [hfailed] at hd
      cases hd
      refine ⟨hahead c (.inl hcodec), ?_, ?_⟩
      · rw [Ahead, htorn.codec_eq, hopened]
        rintro (hnone | hge)
        · cases hnone
        · exact Nat.not_lt.mpr hge hlt
      · rw [htorn.notices_eq, hnotices, hconfig]
  · rw [if_neg (by rw [hworks]; exact Bool.false_ne_true)] at hfailed
    refine ⟨hwhole, hconfig'.trans hconfig, ?_, fun _ => hnotices'.trans hnotices, ?_⟩
    · intro d hd
      rw [Ahead, hcodec', hopened] at hd
      exact hahead d (hd.imp (fun h => hcodec.trans h) id)
    · intro d hd
      rw [hfailed] at hd
      cases hd

/-- A step without an exchange reports nothing. -/
theorem Stepped.of_quiet {client next : Client} {event : ClientEvent} (hwhole : Whole next)
    (hconfig : next.config = client.config) (hahead : ∀ c, next.Ahead c → client.Ahead c)
    (hnotices : next.notices = client.notices) (hnone : client.exchangeOf event = none) :
    Stepped format client event next := by
  refine ⟨hwhole, hconfig, hahead, fun _ => hnotices, ?_⟩
  intro c hc
  rw [failed, hnone] at hc
  cases hc

theorem connectLocked_ahead {client : Client} {outcome : ConnectOutcome} {c : Nat}
    (hahead : (client.connectLocked outcome).2.Ahead c) : client.Ahead c := by
  unfold connectLocked at hahead
  split at hahead
  · exact hahead
  · split at hahead
    · exact hahead
    · exact hahead
    · rcases hahead with h | h
      · exact .inr (Option.some.inj h).le
      · exact .inr (Nat.le_of_succ_le h)

theorem connectLocked_config (client : Client) (outcome : ConnectOutcome) :
    (client.connectLocked outcome).2.config = client.config := by
  unfold connectLocked
  split
  · rfl
  · split <;> rfl

theorem restored_ahead {client : Client} {i c : Nat} (hahead : (client.restored i).Ahead c) :
    client.Ahead c := by
  rcases hahead with h | h
  · exact .inr (Option.some.inj h).le
  · exact .inr (Nat.le_of_succ_le h)

/-- An attempt that leaves the codec as it was has no connection to exchange on. -/
theorem exchangeOf_wake {client : Client} {i : Nat} {outcome : ConnectOutcome} {traffic : Traffic}
    (hcodec : (client.connectLocked outcome).2.codec = client.codec) :
    client.exchangeOf (.wake i outcome traffic) = none := by
  cases outcome with
  | noTransport | failed err => rfl
  | connected =>
      cases hclient : client.codec with
      | some c => simp only [exchangeOf, hclient]
      | none =>
          unfold connectLocked at hcodec
          rw [hclient] at hcodec
          cases hcodec

theorem Whole.step {client next : Client} {event : ClientEvent} (hwhole : Whole client)
    (hstep : client.step format event = some next) : Stepped format client event next := by
  cases step_moves hstep with
  | connect outcome =>
      obtain ⟨hnext, hnotices⟩ := hwhole.connectLocked outcome
      exact .of_quiet hnext (connectLocked_config _ _) (fun _ => connectLocked_ahead) hnotices rfl
  | disconnect =>
      have hnext := hwhole.disconnect
      rw [disconnect_eq] at hnext ⊢
      refine .of_quiet hnext rfl ?_ rfl rfl
      rintro c (hnone | hc)
      · cases hnone
      · exact .inr hc
  | @entered i service method payload traffic phase hcodec hwaits =>
      have hnamed : Whole (client.named i service method payload) :=
        hwhole.congr rfl rfl rfl rfl hwhole.live
      refine .of_quiet (hnamed.setPhase i phase) rfl (fun _ h => h) rfl ?_
      unfold exchangeOf
      rw [hcodec]
      dsimp only
      split
      · rfl
      · rfl
  | @began i c service method payload traffic _ hcodec hidle hexchanged =>
      have hprepared := prepared_began service method payload traffic hcodec hidle
      have hnamed : Whole (client.named i service method payload) :=
        hwhole.congr rfl rfl rfl rfl hwhole.live
      refine hexchanged.stepped (hnamed.begun i c traffic) hprepared.codec_eq rfl rfl
        (fun _ h => h) ?_ (hprepared.links_eq c)
      simp only [exchangeOf, hidle, hcodec, Option.map_some]
  | @failed i outcome traffic phase hcodec hwaits =>
      obtain ⟨hnext, hnotices⟩ := hwhole.connectLocked outcome
      exact .of_quiet (hnext.setPhase i phase) (connectLocked_config _ _)
        (fun _ => connectLocked_ahead) hnotices (exchangeOf_wake hcodec)
  | @restarted i traffic attempt delay _ hcodec hphase hexchanged =>
      have hprepared := prepared_restarted traffic hcodec hphase
      obtain ⟨hrestored, hnotices⟩ := hwhole.restored i
      refine hexchanged.stepped (hrestored.begun i client.opened traffic) hprepared.codec_eq rfl
        hnotices (fun _ hd => @restored_ahead client i _ hd) ?_ (hprepared.links_eq _)
      simp only [exchangeOf, hphase, hcodec]
  | @resent i traffic attempt delay err request _ hcodec hphase hrequest hexchanged =>
      have hprepared := prepared_resent traffic hcodec hphase hrequest
      obtain ⟨hrestored, hnotices⟩ := hwhole.restored i
      refine hexchanged.stepped (hrestored.offer client.opened traffic) hprepared.codec_eq rfl
        hnotices (fun _ hd => @restored_ahead client i _ hd) ?_ (hprepared.links_eq _)
      simp only [exchangeOf, hphase, hcodec, hrequest, Option.map_some]
  | @resumed i phase hwaits =>
      exact .of_quiet (hwhole.setPhase i phase) rfl (fun _ h => h) rfl rfl

/-! ## Runs -/

/-- A connection fails once, and only while the client is on it. -/
theorem failures_ahead {client last : Client} {events : List ClientEvent} (hwhole : Whole client)
    (hrun : run (step format) client events = some last) :
    (∀ c ∈ client.failures format events, client.Ahead c) ∧
      (client.failures format events).Nodup ∧
      last.notices = client.notices +
        if client.config.onDisconnect then (client.failures format events).length else 0 := by
  induction events generalizing client with
  | nil =>
      cases hrun
      simp [failures]
  | cons event rest ih =>
      obtain ⟨next, hnext, hrest⟩ := run_cons_eq_some.mp hrun
      have hstepped := hwhole.step hnext
      obtain ⟨hahead, hnodup, hnotices⟩ := ih hstepped.whole hrest
      have hlater : ∀ c ∈ next.failures format rest, client.Ahead c := fun c hc =>
        hstepped.ahead c (hahead c hc)
      rw [failures, hnext, Option.elim_some, hnotices, hstepped.config_eq]
      cases hfailed : client.failed format event with
      | none =>
          rw [hstepped.quiet hfailed]
          exact ⟨hlater, hnodup, rfl⟩
      | some c =>
          obtain ⟨hcurrent, hpast, hreport⟩ := hstepped.reported c hfailed
          refine ⟨?_, List.nodup_cons.mpr ⟨fun hmem => hpast (hahead c hmem), hnodup⟩, ?_⟩
          · intro d hd
            rcases List.mem_cons.mp hd with rfl | hmem
            · exact hcurrent
            · exact hlater d hmem
          · rw [hreport, Option.toList_some, List.singleton_append, List.length_cons]
            split
            · omega
            · rfl

/-- What the user sees of the connection state whenever no operation runs. -/
structure Consistent (client : Client) : Prop where
  /-- All three fields are set, or none is. -/
  all_or_none : client.framed = client.codec ∧ client.transport = client.codec.isSome
  isConnected_eq : client.isConnected = client.codec.isSome
  already_connected : ∀ outcome, outcome.Possible →
    ((client.connectLocked outcome).1 = some (.ibridger .alreadyConnected) ↔
      client.codec.isSome = true)
  connect_failed : ∀ outcome, client.codec = none → (client.connectLocked outcome).1 ≠ none →
    (client.connectLocked outcome).2.transport = false ∧
      (client.connectLocked outcome).2.framed = none ∧
      (client.connectLocked outcome).2.codec = none

theorem Whole.consistent {client : Client} (hwhole : Whole client) : Consistent client := by
  refine ⟨⟨hwhole.framed_eq, hwhole.transport_eq⟩, hwhole.isConnected_eq, ?_, ?_⟩
  · intro outcome hpossible
    unfold Client.connectLocked
    split
    next hsome => exact iff_of_true rfl hsome
    next hnone =>
      refine iff_of_false ?_ hnone
      split
      · simp
      next err =>
        obtain ⟨errno, rfl⟩ := hpossible.system rfl
        simp
      · simp
  · intro outcome hcodec
    have hframed := hwhole.framed_eq
    unfold Client.connectLocked
    rw [hcodec] at hframed ⊢
    cases outcome with
    | noTransport | failed => exact fun _ => ⟨rfl, hframed, rfl⟩
    | connected => exact fun h => absurd rfl h

/-- In every state of every run the three fields stand together, and `on_disconnect`
has been fired once for each connection on which a send or a receive has failed. -/
theorem connection_state (config : ClientConfig) (format : EnvelopeFormat)
    {events : List ClientEvent} {client : Client}
    (hrun : run (step format) (init config) events = some client) :
    Consistent client ∧ ((init config).failures format events).Nodup ∧
      client.notices =
        if config.onDisconnect then ((init config).failures format events).length else 0 := by
  have hwhole : Whole client :=
    run_invariant Whole (fun _ _ _ hstate hstep => (hstate.step hstep).whole) (.init config) hrun
  obtain ⟨-, hnodup, hnotices⟩ := failures_ahead (.init config) hrun
  rw [show (init config).notices = 0 from rfl, Nat.zero_add] at hnotices
  exact ⟨hwhole.consistent, hnodup, hnotices⟩

/-- The peer is gone when the call sends, and the user disconnects from the next connection. -/
def losesFirst : List ClientEvent :=
  [.connect .connected, .call 0 "" "" [] { sends := [.failed .EPIPE] }, .notified 0,
    .connect .connected, .disconnect]

theorem connection_state_lost :
    ∃ client, run (step (.knowing [(namelessRequest, [16, 1])])) (init { onDisconnect := true })
        losesFirst = some client ∧
      client.notices = 1 ∧ Consistent client := by
  have hrun : run (step (.knowing [(namelessRequest, [16, 1])])) (init { onDisconnect := true })
      losesFirst = some _ := rfl
  exact ⟨_, hrun, rfl, (connection_state _ _ hrun).1⟩

end Client

end Ibridger.Cpp
