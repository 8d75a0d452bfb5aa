import Ibridger.Js.ReconnectLoop

/-! # Lost connections, in JS

A client with `reconnect` that one caller uses, and whose reconnect loop always succeeds
within its attempts. It has never been connected, it is connected, or its one loop is about
to restore the connection.
-/

namespace Ibridger.Js

open Transition UnixSocketConnection Wire

/-- The call has been made and has not ended. -/
def CallPhase.UnderWay {Value : Type} : CallPhase Value → Prop
  | .idle | .settled _ => False
  | .waiting | .starting | .sending _ _ _ _ | .receiving _ _ _ | .failing _ => True

namespace Client

variable {Value : Type} (options : ReconnectOptions)

/-- The `connect` is under way, for a loop or for the user. -/
def Pending (client : Client Value) (k : Nat) (loop : Option Nat) : Prop :=
  client.connects[k]? = some ⟨loop, .pending⟩

/-- One caller connects once and makes its calls one after the other. The reconnect loop
succeeds within its attempts, and what is left of a lost connection to be reported is
reported before the next connection is made. -/
def Foreseen (client : Client Value) : ClientEvent → Prop
  | .disconnect => False
  | .connect => client.opened = 0 ∧ ∀ k loop, ¬ client.Pending k loop
  | .call _ _ _ _ _ => 0 < client.opened ∧ ∀ i, ¬ (client.calls i).phase.UnderWay
  | .connected _ throws => throws = true → options.onReconnect = false
  | .connectFailed k _ => ∀ l attempt, client.Connecting k l →
      client.loops[l]? = some (.connecting attempt) → options.allows (attempt + 1) = true
  | .close c | .error c _ _ =>
      options.allows 0 = true ∧ ∀ current, client.codec = some current → current = c
  | .data _ _ | .written _ _ _ | .sleepOver _ | .poll _ | .timeout _ | .resume _ | .read _ => True

/-- The loop sleeps before an attempt, or its `connect` is the one under way. -/
inductive Recovering (client : Client Value) (l : Nat) : Prop where
  | sleeping (attempt delay : Nat) (hloop : client.loops[l]? = some (.sleeping attempt delay))
      (hallows : options.allows attempt = true) (hsettled : ∀ k loop, ¬ client.Pending k loop)
  | connecting (attempt k : Nat) (hloop : client.loops[l]? = some (.connecting attempt))
      (hallows : options.allows attempt = true) (hpending : client.Connecting k l)
      (hone : ∀ other loop, client.Pending other loop → other = k)

/-- The client has never been connected, it is, or a loop is about to restore the
connection. -/
inductive Connectivity (client : Client Value) : Prop where
  | unopened (hcodec : client.codec = none) (hopened : client.opened = 0)
      (hreconnecting : client.reconnecting = false) (hloops : ∀ l, ¬ client.ActiveLoop l)
      (huser : ∀ k loop, client.Pending k loop → loop = none)
      (hone : ∀ k other loop loop', client.Pending k loop → client.Pending other loop' → k = other)
  | up (c : Nat) (hcodec : client.codec = some c) (hopened : client.opened = c + 1)
      (hreconnecting : client.reconnecting = false) (hloops : ∀ l, ¬ client.ActiveLoop l)
      (hsettled : ∀ k loop, ¬ client.Pending k loop)
  | down (l : Nat) (hcodec : client.codec = none) (hopened : 0 < client.opened)
      (hreconnecting : client.reconnecting = true) (hloops : ∀ m, client.ActiveLoop m → m = l)
      (hrecovering : client.Recovering options l)

variable {options} {format : EnvelopeFormat} {decode : Nat → List UInt8 → Except String Value}
  {client next : Client Value}

/-! ## The connection and the loop -/

theorem init_connectivity (config : ClientConfig) :
    Connectivity options (init config : Client Value) := by
  apply Connectivity.unopened rfl rfl rfl
  · rintro l ⟨loop, hloop, -⟩
    cases hloop
  · intro k loop hpending
    cases hpending
  · intro k other loop loop' hpending
    cases hpending

/-- The only loop stays the only one when it moves on. -/
theorem only_of_set {l : Nat} {loop : ReconnectLoop} (hactive : ∀ m, client.ActiveLoop m → m = l)
    (hl : client.ActiveLoop l) (hloops : next.loops = client.loops.set l loop) :
    ∀ m, next.ActiveLoop m → m = l := by
  intro m hm
  rw [activeLoop_set hl hloops] at hm
  split at hm
  next hsame => exact hsame
  · exact hactive m hm

theorem Connectivity.congr (hconnectivity : client.Connectivity options)
    (hcodec : next.codec = client.codec) (hopened : next.opened = client.opened)
    (hreconnecting : next.reconnecting = client.reconnecting) (hloops : next.loops = client.loops)
    (hconnects : next.connects = client.connects) : next.Connectivity options := by
  have hactive : ∀ l, next.ActiveLoop l ↔ client.ActiveLoop l := by
    intro l
    rw [ActiveLoop, hloops, ActiveLoop]
  have hpending : ∀ k loop, next.Pending k loop ↔ client.Pending k loop := by
    intro k loop
    rw [Pending, hconnects, Pending]
  cases hconnectivity with
  | unopened hnone hzero hidle hended huser hone =>
      refine .unopened (hcodec.trans hnone) (hopened.trans hzero) (hreconnecting.trans hidle) ?_ ?_ ?_
      · exact fun l hl => hended l ((hactive l).mp hl)
      · exact fun k loop hk => huser k loop ((hpending k loop).mp hk)
      · exact fun k other loop loop' hk hother =>
          hone k other loop loop' ((hpending k loop).mp hk) ((hpending other loop').mp hother)
  | up c hsome hlast hidle hended hsettled =>
      refine .up c (hcodec.trans hsome) (hopened.trans hlast) (hreconnecting.trans hidle) ?_ ?_
      · exact fun l hl => hended l ((hactive l).mp hl)
      · exact fun k loop hk => hsettled k loop ((hpending k loop).mp hk)
  | down l hnone hsome hbusy honly hrecovering =>
      refine .down l (hcodec.trans hnone) (by rwa [hopened]) (hreconnecting.trans hbusy) ?_ ?_
      · exact fun m hm => honly m ((hactive m).mp hm)
      · cases hrecovering with
        | sleeping attempt delay hloop hallows hsettled =>
            apply Recovering.sleeping attempt delay (by rwa [hloops]) hallows
            exact fun k loop hk => hsettled k loop ((hpending k loop).mp hk)
        | connecting attempt k hloop hallows hk hone =>
            refine .connecting attempt k (by rwa [hloops]) hallows ?_ ?_
            · exact (hpending k (some l)).mpr hk
            · exact fun other loop hother => hone other loop ((hpending other loop).mp hother)

/-- Where a `connect` has settled, the others are as they were. -/
theorem pending_of_set {k other : Nat} {loop loop' : Option Nat} {outcome : ConnectOutcome}
    (hk : client.Pending k loop) (houtcome : outcome ≠ .pending)
    (hconnects : next.connects = client.connects.set k ⟨loop, outcome⟩)
    (hother : next.Pending other loop') : other ≠ k ∧ client.Pending other loop' := by
  unfold Pending at hother
  rw [hconnects] at hother
  by_cases hsame : k = other
  · subst hsame
    rw [List.getElem?_set_self (List.getElem?_eq_some_iff.mp hk).1] at hother
    cases hother
    exact absurd rfl houtcome
  · rw [List.getElem?_set_ne hsame] at hother
    exact ⟨fun h => hsame h.symm, hother⟩

theorem pending_of_append {k : Nat} {loop loop' : Option Nat}
    (hconnects : next.connects = client.connects ++ [⟨loop, .pending⟩])
    (hk : next.Pending k loop') :
    client.Pending k loop' ∨ k = client.connects.length ∧ loop' = loop := by
  unfold Pending at hk
  rw [hconnects] at hk
  rcases Nat.lt_trichotomy k client.connects.length with hlt | heq | hgt
  · rw [List.getElem?_append_left hlt] at hk
    exact .inl hk
  · subst heq
    rw [List.getElem?_concat_length] at hk
    cases hk
    exact .inr ⟨rfl, rfl⟩
  · rw [List.getElem?_eq_none (by rw [List.length_append, List.length_singleton]; omega)] at hk
    cases hk

/-- The `connect` that is under way, when the client is not connected. -/
theorem Connectivity.pending (hconnectivity : client.Connectivity options) {k : Nat}
    {loop : Option Nat} (hk : client.Pending k loop) :
    client.codec = none ∧ (∀ other loop', client.Pending other loop' → other = k) ∧
      ((loop = none ∧ client.opened = 0 ∧ client.reconnecting = false ∧
          ∀ l, ¬ client.ActiveLoop l) ∨
        ∃ l attempt, loop = some l ∧ client.loops[l]? = some (.connecting attempt) ∧
          0 < client.opened ∧ client.reconnecting = true ∧ ∀ m, client.ActiveLoop m → m = l) := by
  cases hconnectivity with
  | unopened hcodec hopened hreconnecting hloops huser hone =>
      refine ⟨hcodec, fun other loop' hother => hone other k loop' loop hother hk, .inl ?_⟩
      exact ⟨huser k loop hk, hopened, hreconnecting, hloops⟩
  | up c hcodec hopened hreconnecting hloops hsettled => exact absurd hk (hsettled k loop)
  | down l hcodec hopened hreconnecting hloops hrecovering =>
      cases hrecovering with
      | sleeping attempt delay hloop hallows hsettled => exact absurd hk (hsettled k loop)
      | connecting attempt current hloop hallows hpending hone =>
          obtain rfl := hone k loop hk
          have hboth := Option.some_inj.mp (hpending.symm.trans hk)
          obtain rfl := congrArg Connect.loop hboth
          exact ⟨hcodec, hone, .inr ⟨l, attempt, rfl, hloop, hopened, hreconnecting, hloops⟩⟩

theorem Connectivity.connect (hconnectivity : client.Connectivity options)
    (hforeseen : client.Foreseen options .connect) : (client.connect none).Connectivity options := by
  obtain ⟨hzero, hnone⟩ := hforeseen
  cases hconnectivity with
  | up c hcodec hopened => omega
  | down l hcodec hopened => omega
  | unopened hcodec hopened hreconnecting hloops huser hone =>
      have hconnects : (client.connect none).connects = client.connects ++ [⟨none, .pending⟩] := by
        simp [Client.connect, hcodec]
      have hnew : ∀ k loop, (client.connect none).Pending k loop →
          k = client.connects.length ∧ loop = none :=
        fun k loop hk => (pending_of_append hconnects hk).resolve_left (hnone k loop)
      rw [connect_eq] at hnew ⊢
      refine .unopened hcodec hopened hreconnecting hloops ?_ ?_
      · exact fun k loop hk => (hnew k loop hk).2
      · exact fun k other loop loop' hk hother =>
          (hnew k loop hk).1.trans (hnew other loop' hother).1.symm

theorem Connectivity.connected {k : Nat} {throws : Bool}
    (hconnectivity : client.Connectivity options)
    (hoptions : client.config.reconnect = some options)
    (hforeseen : client.Foreseen options (.connected k throws))
    (hconnected : client.connected k throws = some next) : next.Connectivity options := by
  obtain ⟨⟨loop, hk⟩, -⟩ := connected_eq hconnected
  obtain ⟨-, hone, hwho⟩ := hconnectivity.pending hk
  have hnot : ConnectOutcome.connected ≠ .pending := fun h => (by cases h)
  have hsettled : next.connects = client.connects.set k ⟨loop, .connected⟩ →
      ∀ other loop', ¬ next.Pending other loop' := by
    intro hconnects other loop' hother
    obtain ⟨hne, hpending⟩ := pending_of_set hk hnot hconnects hother
    exact hne (hone other loop' hpending)
  rcases hwho with ⟨rfl, -, hreconnecting, hloops⟩ | ⟨l, attempt, rfl, hloop, -, -, hactive⟩
  · have hnext : next = { client with
        connects := client.connects.set k ⟨none, .connected⟩
        codec := some client.opened
        opened := client.opened + 1 } := by
      unfold Client.connected at hconnected
      rw [hk] at hconnected
      cases hconnected
      rfl
    subst hnext
    exact .up client.opened rfl rfl hreconnecting hloops (hsettled rfl)
  · have hnext := connected_of_connecting hk hoptions hloop hconnected
    have hends : ¬ (throws = true ∧ options.onReconnect = true ∧
        options.allows (attempt + 1) = true) := by
      rintro ⟨hthrows, honReconnect, -⟩
      rw [hforeseen hthrows] at honReconnect
      cases honReconnect
    rw [if_neg hends] at hnext
    subst hnext
    refine .up client.opened rfl rfl rfl ?_ (hsettled rfl)
    intro m hm
    have hl : client.ActiveLoop l := ⟨_, hloop, fun h => (by cases h)⟩
    rw [activeLoop_set hl rfl] at hm
    split at hm
    · exact hm rfl
    next hother => exact hother (hactive m hm)

theorem Connectivity.connectFailed {k : Nat} {message : String}
    (hconnectivity : client.Connectivity options)
    (hoptions : client.config.reconnect = some options)
    (hforeseen : client.Foreseen options (.connectFailed k message))
    (hfailed : client.connectFailed k message = some next) : next.Connectivity options := by
  obtain ⟨⟨loop, hk⟩, -⟩ := connectFailed_eq hfailed
  obtain ⟨hcodec, hone, hwho⟩ := hconnectivity.pending hk
  have hnot : ConnectOutcome.failed message ≠ .pending := fun h => (by cases h)
  have hsettled : next.connects = client.connects.set k ⟨loop, .failed message⟩ →
      ∀ other loop', ¬ next.Pending other loop' := by
    intro hconnects other loop' hother
    obtain ⟨hne, hpending⟩ := pending_of_set hk hnot hconnects hother
    exact hne (hone other loop' hpending)
  rcases hwho with ⟨rfl, hopened, hreconnecting, hloops⟩ |
    ⟨l, attempt, rfl, hloop, hopened, hreconnecting, hactive⟩
  · have hnext : next = { client with
        connects := client.connects.set k ⟨none, .failed message⟩ } := by
      unfold Client.connectFailed at hfailed
      rw [hk] at hfailed
      cases hfailed
      rfl
    subst hnext
    refine .unopened hcodec hopened hreconnecting hloops ?_ ?_
    · exact fun other loop' hother => absurd hother (hsettled rfl other loop')
    · exact fun other another loop' loop'' hother => absurd hother (hsettled rfl other loop')
  · have hallows := hforeseen l attempt hk hloop
    have hnext := connectFailed_of_connecting hk hoptions hloop hfailed
    rw [Client.attempt, if_pos hallows] at hnext
    subst hnext
    have hl : client.ActiveLoop l := ⟨_, hloop, fun h => (by cases h)⟩
    refine .down l hcodec hopened hreconnecting (only_of_set hactive hl rfl) ?_
    refine .sleeping (attempt + 1) (options.delay (attempt + 1)) ?_ hallows (hsettled rfl)
    exact List.getElem?_set_self (List.getElem?_eq_some_iff.mp hloop).1

/-- A loop that sleeps is the one that is to restore the connection. -/
theorem Connectivity.asleep (hconnectivity : client.Connectivity options) {l attempt delay : Nat}
    (hloop : client.loops[l]? = some (.sleeping attempt delay)) :
    client.codec = none ∧ 0 < client.opened ∧ client.reconnecting = true ∧
      (∀ m, client.ActiveLoop m → m = l) ∧ options.allows attempt = true ∧
        ∀ k loop, ¬ client.Pending k loop := by
  have hl : client.ActiveLoop l := ⟨_, hloop, fun h => (by cases h)⟩
  cases hconnectivity with
  | unopened hcodec hopened hreconnecting hloops => exact absurd hl (hloops l)
  | up c hcodec hopened hreconnecting hloops => exact absurd hl (hloops l)
  | down m hcodec hopened hreconnecting hloops hrecovering =>
      obtain rfl := hloops l hl
      cases hrecovering with
      | connecting other k hother =>
          rw [hloop] at hother
          cases hother
      | sleeping other delay' hother hallows hsettled =>
          rw [hloop] at hother
          cases hother
          exact ⟨hcodec, hopened, hreconnecting, hloops, hallows, hsettled⟩

/-- A loop that wakes up while the client is disconnected connects. -/
theorem sleepOver_of_sleeping {l attempt delay : Nat} (hcodec : client.codec = none)
    (hloop : client.loops[l]? = some (.sleeping attempt delay)) :
    client.sleepOver l = some { client with
      loops := client.loops.set l (.connecting attempt)
      connects := client.connects ++ [⟨some l, .pending⟩] } := by
  unfold Client.sleepOver
  rw [hloop]
  simp [Client.connect, hcodec]

theorem Connectivity.sleepOver {l : Nat} (hconnectivity : client.Connectivity options)
    (hsleep : client.sleepOver l = some next) : next.Connectivity options := by
  obtain ⟨⟨attempt, delay, hloop⟩, -⟩ := sleepOver_eq hsleep
  obtain ⟨hcodec, hopened, hreconnecting, hactive, hallows, hnone⟩ := hconnectivity.asleep hloop
  rw [sleepOver_of_sleeping hcodec hloop] at hsleep
  cases hsleep
  have hl : client.ActiveLoop l := ⟨_, hloop, fun h => (by cases h)⟩
  refine .down l hcodec hopened hreconnecting (only_of_set hactive hl rfl) ?_
  refine .connecting attempt client.connects.length ?_ hallows List.getElem?_concat_length ?_
  · exact List.getElem?_set_self (List.getElem?_eq_some_iff.mp hloop).1
  · intro other loop hother
    rcases pending_of_append rfl hother with hold | ⟨hnew, -⟩
    · exact absurd hold (hnone other loop)
    · exact hnew

/-- A loss starts the loop, unless it is at work. -/
theorem Connectivity.onDisconnect (hconnectivity : client.Connectivity options)
    (hoptions : client.config.reconnect = some options) (hopened : 0 < client.opened)
    (hallows : options.allows 0 = true) : client.onDisconnect.Connectivity options := by
  cases hconnectivity with
  | unopened hcodec hzero => omega
  | down l hcodec _ hreconnecting hloops hrecovering =>
      have hnext : client.onDisconnect = { client with disconnects := client.disconnects + 1 } := by
        unfold Client.onDisconnect
        simp [hoptions, scheduleReconnect, hreconnecting, hcodec]
      rw [hnext]
      have hsame : client.Connectivity options :=
        .down l hcodec hopened hreconnecting hloops hrecovering
      exact hsame.congr rfl rfl rfl rfl rfl
  | up c hcodec hlast hreconnecting hloops hsettled =>
      have hnext : client.onDisconnect = { client with
          codec := none
          disconnects := client.disconnects + 1
          reconnecting := true
          loops := client.loops ++ [.sleeping 0 (options.delay 0)] } := by
        unfold Client.onDisconnect
        simp [hoptions, scheduleReconnect, hreconnecting, Client.attempt, hallows]
      rw [hnext]
      refine .down client.loops.length rfl hopened rfl ?_ ?_
      · rintro m ⟨loop, hloop, hrunning⟩
        dsimp only at hloop
        rcases Nat.lt_trichotomy m client.loops.length with hlt | heq | hgt
        · rw [List.getElem?_append_left hlt] at hloop
          exact absurd ⟨loop, hloop, hrunning⟩ (hloops m)
        · exact heq
        · rw [List.getElem?_eq_none (by rw [List.length_append, List.length_singleton]; omega)]
            at hloop
          cases hloop
      · exact .sleeping 0 (options.delay 0) List.getElem?_concat_length hallows hsettled

theorem Connectivity.step {event : ClientEvent} (hconnectivity : client.Connectivity options)
    (hoptions : client.config.reconnect = some options)
    (hforeseen : client.Foreseen options event)
    (hstep : client.step format decode event = some next) : next.Connectivity options := by
  by_cases hcalm : ¬ event.Lifecycle
  · have hsame := step_calm hcalm hstep
    exact hconnectivity.congr hsame.codec_eq hsame.opened_eq hsame.reconnecting_eq hsame.loops_eq
      hsame.connects_eq
  cases event with
  | connect =>
      cases hstep
      exact hconnectivity.connect hforeseen
  | disconnect => exact hforeseen.elim
  | connected k throws => exact hconnectivity.connected hoptions hforeseen hstep
  | connectFailed k message => exact hconnectivity.connectFailed hoptions hforeseen hstep
  | sleepOver l => exact hconnectivity.sleepOver hstep
  | close c =>
      obtain ⟨hopened, conn, -, -, rfl⟩ := lost_eq rfl hstep
      have hset : (client.setConn c conn).Connectivity options :=
        hconnectivity.congr rfl rfl rfl rfl rfl
      exact hset.onDisconnect hoptions (Nat.zero_lt_of_lt hopened) hforeseen.1
  | error c message code =>
      obtain ⟨hopened, conn, -, -, rfl⟩ := lost_eq rfl hstep
      have hset : (client.setConn c conn).Connectivity options :=
        hconnectivity.congr rfl rfl rfl rfl rfl
      exact hset.onDisconnect hoptions (Nat.zero_lt_of_lt hopened) hforeseen.1
  | call | data | written | poll | timeout | resume | read => exact absurd id hcalm

end Client

end Ibridger.Js
