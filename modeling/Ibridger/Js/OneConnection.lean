import Ibridger.Js.ClientStep
import Ibridger.Wire.KnownMessages

/-! # One connection at a time

The client means to own one connection. `connect` tests the codec before it
waits and sets it afterwards, `disconnect` leaves the socket open, and the
handlers of a connection act on the client whether or not the connection is
still its own.
-/

namespace Ibridger.Js

open Transition UnixSocketConnection Wire

namespace Client

variable {Value : Type} {format : EnvelopeFormat}
  {decode : Nat → List UInt8 → Except String Value}

/-- The client has opened the socket, and it has not failed or closed. -/
def Open (client : Client Value) (c : Nat) : Prop :=
  c < client.opened ∧ (client.conns c).socket = .live

/-- At most one socket is open, and the client is connected while one is. -/
structure OneConnection (client : Client Value) : Prop where
  single : ∀ c other, client.Open c → client.Open other → c = other
  current : ∀ c, client.codec = some c → client.Open c
  connected_iff : client.isConnected = true ↔ ∃ c, client.Open c

/-- The end of a connection that is not the current one does not concern the client. -/
def Unconcerned (client : Client Value) (event : ClientEvent) (next : Client Value) : Prop :=
  ∀ c, event.lost = some c → client.codec ≠ some c →
    next.codec = client.codec ∧ next.disconnects = client.disconnects ∧ next.loops = client.loops

/-- `disconnect` and the success of a `connect` come while the client is not
connected, and only the current connection ends. -/
def Orderly (client : Client Value) : ClientEvent → Prop
  | .disconnect => client.codec = none
  | .connected _ _ => client.codec = none
  | .close c => client.codec = some c
  | .error c _ _ => client.codec = some c
  | _ => True

/-- The codec has the one socket that is open. -/
structure Owned (client : Client Value) : Prop where
  live : Live client
  owner : ∀ c, client.Open c → client.codec = some c

theorem Owned.oneConnection {client : Client Value} (howned : Owned client) :
    OneConnection client := by
  refine ⟨?_, howned.live.codec, ?_, ?_⟩
  · intro c other hc hother
    exact Option.some_inj.mp ((howned.owner c hc).symm.trans (howned.owner other hother))
  · intro hconnected
    obtain ⟨c, hcodec⟩ := Option.isSome_iff_exists.mp hconnected
    exact ⟨c, howned.live.codec c hcodec⟩
  · rintro ⟨c, hc⟩
    rw [isConnected, howned.owner c hc]
    rfl

theorem init_owned (config : ClientConfig) : Owned (init config : Client Value) :=
  ⟨init_live config, fun _ hopen => absurd hopen.1 (Nat.not_lt_zero _)⟩

/-- Steps that leave the codec and the sockets alone keep them matched. -/
theorem owner_congr {client next : Client Value}
    (howner : ∀ c, client.Open c → client.codec = some c) (hcodec : next.codec = client.codec)
    (hopened : next.opened = client.opened)
    (hsocket : ∀ c, (next.conns c).socket = (client.conns c).socket) :
    ∀ c, next.Open c → next.codec = some c := by
  rintro c ⟨hc, hlive⟩
  rw [hcodec]
  exact howner c ⟨hopened ▸ hc, (hsocket c).symm.trans hlive⟩

/-- When the current connection ends, no open socket is left. -/
theorem Owned.lost {client : Client Value} (howned : Owned client) {c : Nat}
    (hcodec : client.codec = some c) {conn : UnixSocketConnection} (hended : conn.socket ≠ .live) :
    ∀ other, (client.setConn c conn).onDisconnect.Open other →
      (client.setConn c conn).onDisconnect.codec = some other := by
  rw [onDisconnect_eq]
  rintro other ⟨hother, hlive⟩
  by_cases hsame : other = c
  · subst hsame
    simp only [setConn, Function.update_self] at hlive
    exact absurd hlive hended
  · simp only [setConn, Function.update_of_ne hsame] at hlive
    have howner := howned.owner other ⟨hother, hlive⟩
    rw [hcodec] at howner
    exact absurd (Option.some_inj.mp howner).symm hsame

theorem Owned.step {client next : Client Value} {event : ClientEvent} (howned : Owned client)
    (horderly : client.Orderly event) (hstep : client.step format decode event = some next) :
    Owned next := by
  refine ⟨live_of_step howned.live hstep, ?_⟩
  by_cases hcalm : ¬ event.Lifecycle
  · have hsame := step_calm hcalm hstep
    exact owner_congr howned.owner hsame.codec_eq hsame.opened_eq hsame.socket_eq
  cases event with
  | connect =>
      cases hstep
      rw [connect_eq]
      exact howned.owner
  | disconnect =>
      cases hstep
      rw [disconnect_eq]
      exact owner_congr howned.owner horderly.symm rfl fun _ => rfl
  | connected k throws =>
      obtain ⟨-, hnext⟩ := connected_eq hstep
      rw [hnext]
      rintro c ⟨hc, hlive⟩
      rcases Nat.lt_succ_iff_lt_or_eq.mp hc with hlt | heq
      · have hcodec := howned.owner c ⟨hlt, hlive⟩
        rw [show client.codec = none from horderly] at hcodec
        cases hcodec
      · rw [heq]
  | connectFailed k message =>
      obtain ⟨-, hnext⟩ := connectFailed_eq hstep
      rw [hnext]
      exact howned.owner
  | sleepOver l =>
      obtain ⟨-, hnext⟩ := sleepOver_eq hstep
      rw [hnext]
      exact howned.owner
  | close c =>
      obtain ⟨-, conn, -, hended, rfl⟩ := lost_eq rfl hstep
      exact howned.lost horderly hended
  | error c message code =>
      obtain ⟨-, conn, -, hended, rfl⟩ := lost_eq rfl hstep
      exact howned.lost horderly hended
  | call | data | written | poll | timeout | resume | read => exact absurd id hcalm

/-- In an orderly step, only the current connection ends. -/
theorem Orderly.current {client : Client Value} {event : ClientEvent} {c : Nat}
    (horderly : client.Orderly event) (hlost : event.lost = some c) : client.codec = some c := by
  cases event with
  | close other =>
      cases hlost
      exact horderly
  | error other message code =>
      cases hlost
      exact horderly
  | connect | disconnect | call | connected | connectFailed | data | written | sleepOver | poll
  | timeout | resume | read => cases hlost

/-- The end of another connection is reported to the user. -/
theorem not_unconcerned {client next : Client Value} {event : ClientEvent} {c : Nat}
    (hlost : event.lost = some c) (hother : client.codec ≠ some c)
    (hstep : client.step format decode event = some next) : ¬ client.Unconcerned event next := by
  intro hunconcerned
  obtain ⟨-, hsame, -⟩ := hunconcerned c hlost hother
  obtain ⟨-, conn, -, -, rfl⟩ := lost_eq hlost hstep
  rw [onDisconnect_eq] at hsame
  exact Nat.succ_ne_self _ hsame

theorem not_oneConnection_disconnect {client : Client Value} (hlive : Live client)
    (hcodec : client.codec ≠ none) : ¬ client.disconnect.OneConnection := by
  obtain ⟨c, hc⟩ := Option.ne_none_iff_exists'.mp hcodec
  intro hone
  rw [disconnect_eq] at hone
  have hconnected := hone.connected_iff.mpr ⟨c, hlive.codec c hc⟩
  cases hconnected

theorem not_oneConnection_connected {client next : Client Value} {k : Nat} {throws : Bool}
    (hlive : Live client) (hcodec : client.codec ≠ none)
    (hconnected : client.connected k throws = some next) : ¬ next.OneConnection := by
  obtain ⟨c, hc⟩ := Option.ne_none_iff_exists'.mp hcodec
  obtain ⟨hopened, hopen⟩ := hlive.codec c hc
  obtain ⟨-, hnext⟩ := connected_eq hconnected
  intro hone
  rw [hnext] at hone
  -- the earlier socket stays open beside the new one
  have hsame := hone.single c client.opened ⟨Nat.lt_succ_of_lt hopened, hopen⟩
    (hone.current _ rfl)
  exact Nat.ne_of_lt hopened hsame

/-- A client has one connection, and only its current connection concerns it,
exactly in the runs that are orderly. -/
theorem one_connection_iff (config : ClientConfig) (events : List ClientEvent) :
    Along (step format decode) (fun client event next =>
      next.OneConnection ∧ client.Unconcerned event next) (init config) events ↔
      Guarded (step format decode) Orderly (init config) events := by
  apply along_iff_guarded Owned _ _ (init_owned config)
  · intro client event next howned horderly hstep
    have hnext := howned.step horderly hstep
    refine ⟨hnext, hnext.oneConnection, ?_⟩
    intro c hlost hother
    exact absurd (horderly.current hlost) hother
  · rintro client event next howned hdisorderly hstep ⟨hone, hunconcerned⟩
    cases event with
    | disconnect =>
        cases hstep
        exact not_oneConnection_disconnect howned.live hdisorderly hone
    | connected k throws => exact not_oneConnection_connected howned.live hdisorderly hstep hone
    | close c => exact not_unconcerned rfl hdisorderly hstep hunconcerned
    | error c message code => exact not_unconcerned rfl hdisorderly hstep hunconcerned
    | connect | call | connectFailed | data | written | sleepOver | poll | timeout | resume
    | read => exact hdisorderly trivial

/-- Two overlapping connects leave two sockets open, and when the first of them
closes, the client counts as disconnected while the second is open. -/
theorem two_connections_at_once :
    ∃ both last : Client (List UInt8),
      run (step (.knowing []) fun _ => .ok) (init {})
        [.connect, .connect, .connected 0 false, .connected 1 false] = some both ∧
      both.codec = some 1 ∧ ¬ both.OneConnection ∧
      both.step (.knowing []) (fun _ => .ok) (.close 0) = some last ∧
      last.isConnected = false ∧ last.Open 1 ∧ ¬ both.Unconcerned (.close 0) last := by
  refine ⟨_, _, rfl, rfl, ?_, rfl, rfl, ⟨by decide, rfl⟩, ?_⟩
  · intro hone
    exact absurd (hone.single 0 1 ⟨by decide, rfl⟩ ⟨by decide, rfl⟩) (by decide)
  · intro hunconcerned
    obtain ⟨hcodec, -⟩ := hunconcerned 0 rfl (by decide)
    cases hcodec

end Client

end Ibridger.Js
