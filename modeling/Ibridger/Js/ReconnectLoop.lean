import Ibridger.Js.ClientStep
import Ibridger.Wire.KnownMessages

/-! # The reconnect loop

`scheduleReconnect` starts a loop unless `reconnecting` says that one runs. The
loop catches whatever is thrown in an iteration: that the server is down, that
the client is connected already, and what `onReconnect` throws.
-/

namespace Ibridger.Js

open Transition UnixSocketConnection Wire

namespace Client

variable {Value : Type} {format : EnvelopeFormat}
  {decode : Nat → List UInt8 → Except String Value}

/-- The loop has been started and has not ended. -/
def ActiveLoop (client : Client Value) (l : Nat) : Prop :=
  ∃ loop, client.loops[l]? = some loop ∧ loop ≠ .ended

/-- The loop whose `connect` is under way. -/
def Connecting (client : Client Value) (k l : Nat) : Prop :=
  client.connects[k]? = some ⟨some l, .pending⟩

/-- The event is a turn of the loop. -/
def TurnOf (client : Client Value) (l : Nat) : ClientEvent → Prop
  | .sleepOver m => m = l
  | .connected k _ => client.Connecting k l
  | .connectFailed k _ => client.Connecting k l
  | _ => False

/-- One loop at most, and `reconnecting` tells whether there is one. -/
structure OneLoop (client : Client Value) : Prop where
  single : ∀ l m, client.ActiveLoop l → client.ActiveLoop m → l = m
  reconnecting_iff : client.reconnecting = true ↔ ∃ l, client.ActiveLoop l

/-- A turn of a loop that finds or makes the client connected is the loop's last
and calls `connect` no more. -/
def EndsConnected (client : Client Value) (event : ClientEvent) (next : Client Value) : Prop :=
  ∀ l, client.TurnOf l event → client.isConnected = true ∨ next.isConnected = true →
    ¬ next.ActiveLoop l ∧ next.connects.length = client.connects.length

/-- The loop would make no further attempt. -/
def LastAttempt (client : Client Value) (l : Nat) : Prop :=
  ∀ options attempt, client.config.reconnect = some options →
    client.loops[l]? = some (.connecting attempt) → options.allows (attempt + 1) = false

/-- No loop wakes up, and none fails to connect with attempts left, while the
client is connected; and `onReconnect` throws only after a last attempt. -/
def Disciplined (client : Client Value) : ClientEvent → Prop
  | .sleepOver _ => client.codec = none
  | .connectFailed k _ => ∀ l, client.Connecting k l → client.codec = none ∨ client.LastAttempt l
  | .connected k throws => ∀ l, client.Connecting k l →
      throws = true → client.config.reconnect.any ReconnectOptions.onReconnect = true →
        client.LastAttempt l
  | _ => True

/-- The loop that is active, if any, and what it waits for. -/
structure Looping (client : Client Value) (active : Option Nat) : Prop where
  active_iff : ∀ l, client.ActiveLoop l ↔ active = some l
  reconnecting_eq : client.reconnecting = active.isSome
  configured : ∀ l, client.ActiveLoop l → ∃ options, client.config.reconnect = some options
  connecting : ∀ k l, client.Connecting k l → ∃ attempt, client.loops[l]? = some (.connecting attempt)
  unique : ∀ k other l, client.Connecting k l → client.Connecting other l → k = other

theorem Looping.oneLoop {client : Client Value} {active : Option Nat}
    (hlooping : Looping client active) : OneLoop client := by
  refine ⟨?_, ?_⟩
  · intro l m hl hm
    exact Option.some_inj.mp
      (((hlooping.active_iff l).mp hl).symm.trans ((hlooping.active_iff m).mp hm))
  · rw [hlooping.reconnecting_eq, Option.isSome_iff_exists]
    exact exists_congr fun l => (hlooping.active_iff l).symm

theorem init_looping (config : ClientConfig) : Looping (init config : Client Value) none := by
  refine ⟨?_, rfl, ?_, ?_, ?_⟩
  · intro l
    constructor
    · rintro ⟨loop, hloop, -⟩
      cases hloop
    · intro hnone
      cases hnone
  · rintro l ⟨loop, hloop, -⟩
    cases hloop
  · intro k l hconnecting
    cases hconnecting
  · intro k other l hconnecting
    cases hconnecting

/-- A step that leaves the loops and their connects alone. -/
theorem Looping.congr {client next : Client Value} {active : Option Nat}
    (hlooping : Looping client active) (hloops : next.loops = client.loops)
    (hreconnecting : next.reconnecting = client.reconnecting)
    (hconfig : next.config = client.config)
    (hconnects : ∀ k l, next.Connecting k l ↔ client.Connecting k l) : Looping next active := by
  have hactive : ∀ l, next.ActiveLoop l ↔ client.ActiveLoop l := by
    intro l
    rw [ActiveLoop, hloops, ActiveLoop]
  refine ⟨?_, ?_, ?_, ?_, ?_⟩
  · intro l
    rw [hactive]
    exact hlooping.active_iff l
  · rw [hreconnecting]
    exact hlooping.reconnecting_eq
  · intro l hl
    rw [hconfig]
    exact hlooping.configured l ((hactive l).mp hl)
  · intro k l hk
    rw [hloops]
    exact hlooping.connecting k l ((hconnects k l).mp hk)
  · intro k other l hk hother
    exact hlooping.unique k other l ((hconnects k l).mp hk) ((hconnects other l).mp hother)

theorem activeLoop_set {client next : Client Value} {l m : Nat} {loop : ReconnectLoop}
    (hl : client.ActiveLoop l) (hloops : next.loops = client.loops.set l loop) :
    next.ActiveLoop m ↔ if m = l then loop ≠ .ended else client.ActiveLoop m := by
  obtain ⟨old, hold, -⟩ := hl
  have hlength := (List.getElem?_eq_some_iff.mp hold).1
  unfold ActiveLoop
  rw [hloops]
  split
  next hsame =>
    subst hsame
    rw [List.getElem?_set_self hlength]
    constructor
    · rintro ⟨other, hother, hactive⟩
      cases hother
      exact hactive
    · intro hactive
      exact ⟨loop, rfl, hactive⟩
  next hother => rw [List.getElem?_set_ne fun h => hother h.symm]

/-- The active loop takes a turn. -/
theorem Looping.set {client next : Client Value} {l : Nat} {loop : ReconnectLoop}
    (hlooping : Looping client (some l)) (hloops : next.loops = client.loops.set l loop)
    (hreconnecting : next.reconnecting = decide (loop ≠ .ended))
    (hconfig : next.config = client.config)
    (hconnecting : ∀ k m, next.Connecting k m → m = l ∧ ∃ attempt, loop = .connecting attempt)
    (hunique : ∀ k other m, next.Connecting k m → next.Connecting other m → k = other) :
    Looping next (if loop = .ended then none else some l) := by
  have hl : client.ActiveLoop l := (hlooping.active_iff l).mpr rfl
  refine ⟨?_, ?_, ?_, ?_, hunique⟩
  · intro m
    rw [activeLoop_set hl hloops, hlooping.active_iff]
    by_cases hm : m = l
    · subst hm
      by_cases hended : loop = .ended <;> simp [hended]
    · have hne : l ≠ m := fun h => hm h.symm
      by_cases hended : loop = .ended <;> simp [hm, hne, hended]
  · rw [hreconnecting]
    by_cases hended : loop = .ended <;> simp [hended]
  · intro m _
    rw [hconfig]
    exact hlooping.configured l hl
  · intro k m hk
    obtain ⟨rfl, attempt, rfl⟩ := hconnecting k m hk
    obtain ⟨old, hold, -⟩ := hl
    refine ⟨attempt, ?_⟩
    rw [hloops, List.getElem?_set_self (List.getElem?_eq_some_iff.mp hold).1]

theorem Looping.active_of_connecting {client : Client Value} {active : Option Nat} {k l : Nat}
    (hlooping : Looping client active) (hk : client.Connecting k l) : active = some l := by
  obtain ⟨attempt, hattempt⟩ := hlooping.connecting k l hk
  exact (hlooping.active_iff l).mp ⟨_, hattempt, fun h => (by cases h)⟩

/-- When the one `connect` of a loop has settled, none is under way. -/
theorem Looping.not_connecting {client next : Client Value} {active : Option Nat} {k l : Nat}
    {outcome : ConnectOutcome} (hlooping : Looping client active) (hk : client.Connecting k l)
    (houtcome : outcome ≠ .pending)
    (hconnects : next.connects = client.connects.set k ⟨some l, outcome⟩) :
    ∀ other m, ¬ next.Connecting other m := by
  intro other m hother
  unfold Connecting at hother
  rw [hconnects] at hother
  by_cases hsame : k = other
  · subst hsame
    rw [List.getElem?_set_self (List.getElem?_eq_some_iff.mp hk).1] at hother
    cases hother
    exact houtcome rfl
  · rw [List.getElem?_set_ne hsame] at hother
    have hm := hlooping.active_of_connecting hother
    rw [hlooping.active_of_connecting hk] at hm
    cases hm
    exact hsame (hlooping.unique k other l hk hother)

/-- The next iteration, when no `connect` is under way. -/
theorem Looping.attempt {client : Client Value} {l : Nat} (hlooping : Looping client (some l))
    (hnone : ∀ k m, ¬ client.Connecting k m) (options : ReconnectOptions) (attempt : Nat) :
    Looping (client.attempt options l attempt)
      (if options.allows attempt then some l else none) := by
  have hreconnecting : client.reconnecting = true := hlooping.reconnecting_eq
  unfold Client.attempt
  split
  · refine @Looping.set _ _ _ l (.sleeping attempt (options.delay attempt)) hlooping rfl ?_ rfl
      ?_ ?_
    · rw [hreconnecting]
      rfl
    · intro k m hk
      exact absurd hk (hnone k m)
    · intro k other m hk
      exact absurd hk (hnone k m)
  · refine @Looping.set _ _ _ l .ended hlooping rfl rfl rfl ?_ ?_
    · intro k m hk
      exact absurd hk (hnone k m)
    · intro k other m hk
      exact absurd hk (hnone k m)

/-- The `connect` of the active loop has settled, and the loop has yet to go on. -/
theorem Looping.settled {client next : Client Value} {k l : Nat} {outcome : ConnectOutcome}
    (hlooping : Looping client (some l)) (hk : client.Connecting k l)
    (houtcome : outcome ≠ .pending)
    (hconnects : next.connects = client.connects.set k ⟨some l, outcome⟩)
    (hloops : next.loops = client.loops) (hreconnecting : next.reconnecting = client.reconnecting)
    (hconfig : next.config = client.config) : Looping next (some l) := by
  have hnone := hlooping.not_connecting hk houtcome hconnects
  have hactive : ∀ m, next.ActiveLoop m ↔ client.ActiveLoop m := by
    intro m
    rw [ActiveLoop, hloops, ActiveLoop]
  refine ⟨?_, ?_, ?_, ?_, ?_⟩
  · intro m
    rw [hactive]
    exact hlooping.active_iff m
  · rw [hreconnecting]
    exact hlooping.reconnecting_eq
  · intro m hm
    rw [hconfig]
    exact hlooping.configured m ((hactive m).mp hm)
  · intro other m hother
    exact absurd hother (hnone other m)
  · intro other another m hother
    exact absurd hother (hnone other m)

theorem retry_of_connecting {client : Client Value} {l attempt : Nat} {options : ReconnectOptions}
    (hoptions : client.config.reconnect = some options)
    (hloop : client.loops[l]? = some (.connecting attempt)) :
    client.retry l = client.attempt options l (attempt + 1) := by
  unfold retry
  rw [hoptions, hloop]

/-- A loop whose `connect` is under way is in an iteration. -/
theorem Looping.iteration {client : Client Value} {active : Option Nat} {k l : Nat}
    (hlooping : Looping client active) (hk : client.Connecting k l) :
    ∃ options attempt, client.config.reconnect = some options ∧
      client.loops[l]? = some (.connecting attempt) := by
  obtain ⟨attempt, hattempt⟩ := hlooping.connecting k l hk
  obtain ⟨options, hoptions⟩ :=
    hlooping.configured l ⟨_, hattempt, fun h => (by cases h)⟩
  exact ⟨options, attempt, hoptions, hattempt⟩

/-- When the `connect` of a loop fails, the loop sleeps again or ends. -/
theorem connectFailed_of_connecting {client next : Client Value} {k l attempt : Nat}
    {message : String} {options : ReconnectOptions} (hk : client.Connecting k l)
    (hoptions : client.config.reconnect = some options)
    (hloop : client.loops[l]? = some (.connecting attempt))
    (hfailed : client.connectFailed k message = some next) :
    next = { client with connects := client.connects.set k ⟨some l, .failed message⟩ }.attempt
      options l (attempt + 1) := by
  unfold connectFailed at hfailed
  rw [hk] at hfailed
  cases hfailed
  exact retry_of_connecting hoptions hloop

/-- When the `connect` of a loop succeeds, the loop ends unless `onReconnect` throws. -/
theorem connected_of_connecting {client next : Client Value} {k l attempt : Nat} {throws : Bool}
    {options : ReconnectOptions} (hk : client.Connecting k l)
    (hoptions : client.config.reconnect = some options)
    (hloop : client.loops[l]? = some (.connecting attempt))
    (hconnected : client.connected k throws = some next) :
    next = { client with
      connects := client.connects.set k ⟨some l, .connected⟩
      codec := some client.opened
      opened := client.opened + 1
      reconnecting := false
      loops := client.loops.set l
        (if throws = true ∧ options.onReconnect = true ∧ options.allows (attempt + 1) = true then
          .sleeping (attempt + 1) (options.delay (attempt + 1))
        else .ended) } := by
  unfold connected at hconnected
  rw [hk] at hconnected
  cases hconnected
  unfold reconnected
  dsimp only
  rw [hoptions, Option.any_some]
  by_cases hthrows : throws = true ∧ options.onReconnect = true
  · rw [if_pos hthrows, retry]
    simp only [hoptions, hloop, Client.attempt]
    by_cases hallows : options.allows (attempt + 1) = true
    · rw [if_pos hallows, if_pos ⟨hthrows.1, hthrows.2, hallows⟩]
    · rw [if_neg hallows, if_neg fun h => hallows h.2.2]
  · rw [if_neg hthrows, if_neg fun h => hthrows ⟨h.1, h.2.1⟩]

theorem sleepOver_of_disconnected {client next : Client Value} {l : Nat}
    (hcodec : client.codec = none) (hsleep : client.sleepOver l = some next) :
    ∃ attempt, next = { client with
      loops := client.loops.set l (.connecting attempt)
      connects := client.connects ++ [⟨some l, .pending⟩] } := by
  unfold sleepOver at hsleep
  split at hsleep
  next attempt delay hsleeping =>
    refine ⟨attempt, ?_⟩
    dsimp only at hsleep
    rw [if_neg (by simp [hcodec])] at hsleep
    cases hsleep
    unfold connect
    rw [if_neg (by simp [hcodec])]
  · cases hsleep

/-! ## The steps -/

/-- A `connect` of the user that settles concerns no loop. -/
theorem connecting_set_user {client next : Client Value} {k : Nat} (outcome : ConnectOutcome)
    (hk : client.connects[k]? = some ⟨none, .pending⟩)
    (hconnects : next.connects = client.connects.set k ⟨none, outcome⟩) (other l : Nat) :
    next.Connecting other l ↔ client.Connecting other l := by
  unfold Connecting
  rw [hconnects]
  by_cases hsame : k = other
  · subst hsame
    rw [List.getElem?_set_self (List.getElem?_eq_some_iff.mp hk).1, hk]
    constructor
    · intro h
      cases h
    · intro h
      cases h
  · rw [List.getElem?_set_ne hsame]

theorem connecting_connect_user (client : Client Value) (k l : Nat) :
    (client.connect none).Connecting k l ↔ client.Connecting k l := by
  have hconnects : ∃ outcome, (client.connect none).connects =
      client.connects ++ [⟨none, outcome⟩] := by
    unfold connect
    split
    · exact ⟨_, rfl⟩
    · exact ⟨_, rfl⟩
  obtain ⟨outcome, hconnects⟩ := hconnects
  unfold Connecting
  rw [hconnects]
  rcases Nat.lt_trichotomy k client.connects.length with hlt | heq | hgt
  · rw [List.getElem?_append_left hlt]
  · subst heq
    rw [List.getElem?_concat_length, List.getElem?_eq_none (Nat.le_refl _)]
    simp
  · rw [List.getElem?_eq_none (by rw [List.length_append, List.length_singleton]; omega),
      List.getElem?_eq_none (Nat.le_of_lt hgt)]

theorem Looping.connected {client next : Client Value} {active : Option Nat} {k : Nat}
    {throws : Bool} (hlooping : Looping client active)
    (hdisciplined : client.Disciplined (.connected k throws))
    (hconnected : client.connected k throws = some next) :
    (∃ active', Looping next active') ∧ client.EndsConnected (.connected k throws) next := by
  obtain ⟨⟨loop, hpending⟩, -⟩ := connected_eq hconnected
  cases loop with
  | none =>
      have hnext : next = { client with
          connects := client.connects.set k ⟨none, .connected⟩
          codec := some client.opened
          opened := client.opened + 1 } := by
        unfold Client.connected at hconnected
        rw [hpending] at hconnected
        cases hconnected
        rfl
      refine ⟨⟨active, hlooping.congr ?_ ?_ ?_ (connecting_set_user .connected hpending ?_)⟩, ?_⟩
      · rw [hnext]
      · rw [hnext]
      · rw [hnext]
      · rw [hnext]
      · intro l hturn
        cases hpending.symm.trans hturn
  | some l =>
      have hactive := hlooping.active_of_connecting hpending
      obtain ⟨options, attempt, hoptions, hloop⟩ := hlooping.iteration hpending
      have hnext := connected_of_connecting hpending hoptions hloop hconnected
      have hlast : ¬ (throws = true ∧ options.onReconnect = true ∧
          options.allows (attempt + 1) = true) := by
        rintro ⟨hthrows, honReconnect, hallows⟩
        have hgives := hdisciplined l hpending hthrows (by rw [hoptions]; exact honReconnect)
        rw [hgives options attempt hoptions hloop] at hallows
        cases hallows
      rw [if_neg hlast] at hnext
      subst hactive
      have hnone : ∀ other m, ¬ next.Connecting other m := by
        apply @Looping.not_connecting _ _ _ _ _ _ .connected hlooping hpending
        · intro h
          cases h
        · rw [hnext]
      have hended : Looping next none := by
        refine @Looping.set _ _ next l .ended hlooping ?_ ?_ ?_ ?_ ?_
        · rw [hnext]
        · rw [hnext]
          rfl
        · rw [hnext]
        · intro other m hother
          exact absurd hother (hnone other m)
        · intro other another m hother
          exact absurd hother (hnone other m)
      refine ⟨⟨none, hended⟩, ?_⟩
      intro m _ _
      refine ⟨?_, ?_⟩
      · intro hm
        cases (hended.active_iff m).mp hm
      · rw [hnext]
        exact List.length_set

theorem Looping.connectFailed {client next : Client Value} {active : Option Nat} {k : Nat}
    {message : String} (hlooping : Looping client active)
    (hdisciplined : client.Disciplined (.connectFailed k message))
    (hfailed : client.connectFailed k message = some next) :
    (∃ active', Looping next active') ∧ client.EndsConnected (.connectFailed k message) next := by
  obtain ⟨⟨loop, hpending⟩, hframe⟩ := connectFailed_eq hfailed
  cases loop with
  | none =>
      have hnext : next = { client with
          connects := client.connects.set k ⟨none, .failed message⟩ } := by
        unfold Client.connectFailed at hfailed
        rw [hpending] at hfailed
        cases hfailed
        rfl
      refine ⟨⟨active, hlooping.congr ?_ ?_ ?_
        (connecting_set_user (.failed message) hpending ?_)⟩, ?_⟩
      · rw [hnext]
      · rw [hnext]
      · rw [hnext]
      · rw [hnext]
      · intro l hturn
        cases hpending.symm.trans hturn
  | some l =>
      have hactive := hlooping.active_of_connecting hpending
      obtain ⟨options, attempt, hoptions, hloop⟩ := hlooping.iteration hpending
      have hnext := connectFailed_of_connecting hpending hoptions hloop hfailed
      subst hactive
      have hnot : ConnectOutcome.failed message ≠ .pending := fun h => (by cases h)
      have hsettled := @Looping.settled _ _
        { client with connects := client.connects.set k ⟨some l, .failed message⟩ } k l
        (.failed message) hlooping hpending hnot rfl rfl rfl rfl
      have hafter := hsettled.attempt (hlooping.not_connecting hpending hnot rfl) options
        (attempt + 1)
      rw [← hnext] at hafter
      refine ⟨⟨_, hafter⟩, ?_⟩
      intro m hm hconnected
      have hconnect := hlooping.active_of_connecting hm
      cases hconnect
      have hcodec : client.codec ≠ none := by
        rw [hframe] at hconnected
        rcases hconnected with hconnected | hconnected
        all_goals
          intro hnone
          rw [isConnected] at hconnected
          simp [hnone] at hconnected
      have hgives := (hdisciplined _ hm).resolve_left hcodec
      rw [hgives options attempt hoptions hloop, if_neg (by simp)] at hafter
      refine ⟨?_, ?_⟩
      · intro hactive
        cases (hafter.active_iff _).mp hactive
      · rw [hnext, attempt_eq]
        exact List.length_set

theorem Looping.sleepOver {client next : Client Value} {active : Option Nat} {l : Nat}
    (hlooping : Looping client active) (hcodec : client.codec = none)
    (hsleep : client.sleepOver l = some next) : Looping next active := by
  obtain ⟨⟨old, delay, hsleeping⟩, -⟩ := sleepOver_eq hsleep
  obtain ⟨attempt, hnext⟩ := sleepOver_of_disconnected hcodec hsleep
  have hactive : active = some l :=
    (hlooping.active_iff l).mp ⟨_, hsleeping, fun h => (by cases h)⟩
  subst hactive
  -- a loop that sleeps has no `connect` under way
  have hnone : ∀ k m, ¬ client.Connecting k m := by
    intro k m hk
    have hm := hlooping.active_of_connecting hk
    cases hm
    obtain ⟨other, hother⟩ := hlooping.connecting k l hk
    rw [hsleeping] at hother
    cases hother
  have hnew : ∀ k m, next.Connecting k m → k = client.connects.length ∧ m = l := by
    intro k m hk
    unfold Connecting at hk
    rw [hnext] at hk
    rcases Nat.lt_trichotomy k client.connects.length with hlt | heq | hgt
    · rw [List.getElem?_append_left hlt] at hk
      exact absurd hk (hnone k m)
    · subst heq
      rw [List.getElem?_concat_length] at hk
      cases hk
      exact ⟨rfl, rfl⟩
    · rw [List.getElem?_eq_none (by rw [List.length_append, List.length_singleton]; omega)] at hk
      cases hk
  refine @Looping.set _ _ next l (.connecting attempt) hlooping ?_ ?_ ?_ ?_ ?_
  · rw [hnext]
  · rw [hnext]
    exact hlooping.reconnecting_eq
  · rw [hnext]
  · intro k m hk
    exact ⟨(hnew k m hk).2, attempt, rfl⟩
  · intro k other m hk hother
    exact (hnew k m hk).1.trans (hnew other m hother).1.symm

/-- A loop that has just been started is the active one, or has ended at once. -/
theorem Looping.append {client next : Client Value} {loop : ReconnectLoop}
    {options : ReconnectOptions} (hlooping : Looping client none)
    (hoptions : next.config.reconnect = some options)
    (hloops : next.loops = client.loops ++ [loop])
    (hreconnecting : next.reconnecting = decide (loop ≠ .ended))
    (hconnects : next.connects = client.connects) :
    Looping next (if loop = .ended then none else some client.loops.length) := by
  have hidle : ∀ m, ¬ client.ActiveLoop m := by
    intro m hm
    cases (hlooping.active_iff m).mp hm
  have hnone : ∀ k m, ¬ next.Connecting k m := by
    intro k m hk
    unfold Connecting at hk
    rw [hconnects] at hk
    cases hlooping.active_of_connecting hk
  have hactive : ∀ m, next.ActiveLoop m ↔ m = client.loops.length ∧ loop ≠ .ended := by
    intro m
    unfold ActiveLoop
    rw [hloops]
    constructor
    · rintro ⟨other, hother, hrunning⟩
      rcases Nat.lt_trichotomy m client.loops.length with hlt | heq | hgt
      · rw [List.getElem?_append_left hlt] at hother
        exact absurd ⟨other, hother, hrunning⟩ (hidle m)
      · subst heq
        rw [List.getElem?_concat_length] at hother
        cases hother
        exact ⟨rfl, hrunning⟩
      · rw [List.getElem?_eq_none (by rw [List.length_append, List.length_singleton]; omega)]
          at hother
        cases hother
    · rintro ⟨rfl, hrunning⟩
      exact ⟨loop, List.getElem?_concat_length, hrunning⟩
  refine ⟨?_, ?_, ?_, ?_, ?_⟩
  · intro m
    rw [hactive]
    by_cases hended : loop = .ended
    · simp [hended]
    · simp [hended, eq_comm]
  · rw [hreconnecting]
    by_cases hended : loop = .ended <;> simp [hended]
  · intro m _
    exact ⟨options, hoptions⟩
  · intro k m hk
    exact absurd hk (hnone k m)
  · intro k other m hk
    exact absurd hk (hnone k m)

/-- When a connection ends, a loop starts unless one is active. -/
theorem Looping.onDisconnect {client : Client Value} {active : Option Nat}
    (hlooping : Looping client active) : ∃ active', Looping client.onDisconnect active' := by
  unfold Client.onDisconnect
  split
  · exact ⟨active, hlooping.congr rfl rfl rfl fun _ _ => Iff.rfl⟩
  next options hoptions =>
    unfold scheduleReconnect
    cases active with
    | some l =>
        have hreconnecting : client.reconnecting = true := hlooping.reconnecting_eq
        dsimp only
        rw [if_pos hreconnecting]
        exact ⟨some l, hlooping.congr rfl rfl rfl fun _ _ => Iff.rfl⟩
    | none =>
        have hreconnecting : ¬ client.reconnecting = true := by
          rw [hlooping.reconnecting_eq]
          simp
        dsimp only
        rw [if_neg hreconnecting]
        unfold Client.attempt
        split
        · refine ⟨_, @Looping.append _ client _ (.sleeping 0 (options.delay 0)) options hlooping
            hoptions ?_ rfl rfl⟩
          exact List.set_append_right _ _ (Nat.le_refl _) |>.trans (by simp)
        · refine ⟨_, @Looping.append _ client _ .ended options hlooping hoptions ?_ rfl rfl⟩
          exact List.set_append_right _ _ (Nat.le_refl _) |>.trans (by simp)

theorem Looping.step {client next : Client Value} {active : Option Nat} {event : ClientEvent}
    (hlooping : Looping client active) (hdisciplined : client.Disciplined event)
    (hstep : client.step format decode event = some next) :
    (∃ active', Looping next active') ∧ client.EndsConnected event next := by
  by_cases hcalm : ¬ event.Lifecycle
  · have hsame := step_calm hcalm hstep
    refine ⟨⟨active, hlooping.congr hsame.loops_eq hsame.reconnecting_eq hsame.config_eq ?_⟩, ?_⟩
    · intro k l
      rw [Connecting, hsame.connects_eq, Connecting]
    · intro l hturn
      cases event with
      | sleepOver | connected | connectFailed => exact absurd trivial hcalm
      | connect | disconnect | call | data | close | error | written | poll | timeout | resume
      | read => cases hturn
  cases event with
  | connect =>
      cases hstep
      refine ⟨⟨active, ?_⟩, fun _ hturn => (by cases hturn)⟩
      rw [connect_eq]
      exact hlooping.congr rfl rfl rfl (connecting_connect_user client)
  | disconnect =>
      cases hstep
      rw [disconnect_eq]
      exact ⟨⟨active, hlooping.congr rfl rfl rfl fun _ _ => Iff.rfl⟩, fun _ hturn => (by cases hturn)⟩
  | connected k throws => exact hlooping.connected hdisciplined hstep
  | connectFailed k message => exact hlooping.connectFailed hdisciplined hstep
  | sleepOver l =>
      refine ⟨⟨active, hlooping.sleepOver hdisciplined hstep⟩, ?_⟩
      intro m _ hconnected
      obtain ⟨-, hnext⟩ := sleepOver_eq hstep
      have hcodec : client.codec = none := hdisciplined
      rw [hnext, isConnected, isConnected] at hconnected
      simp [hcodec] at hconnected
  | close c =>
      obtain ⟨-, conn, -, -, rfl⟩ := lost_eq rfl hstep
      have hset : Looping (client.setConn c conn) active :=
        hlooping.congr rfl rfl rfl fun _ _ => Iff.rfl
      exact ⟨hset.onDisconnect, fun _ hturn => (by cases hturn)⟩
  | error c message code =>
      obtain ⟨-, conn, -, -, rfl⟩ := lost_eq rfl hstep
      have hset : Looping (client.setConn c conn) active :=
        hlooping.congr rfl rfl rfl fun _ _ => Iff.rfl
      exact ⟨hset.onDisconnect, fun _ hturn => (by cases hturn)⟩
  | call | data | written | poll | timeout | resume | read => exact absurd id hcalm

/-! ## When the loop is disciplined -/

/-- A loop that wakes up calls `connect`, connected or not. -/
theorem sleepOver_connects {client next : Client Value} {l : Nat}
    (hsleep : client.sleepOver l = some next) :
    next.connects.length = client.connects.length + 1 := by
  have hconnect : ∀ first : Client Value,
      (first.connect (some l)).connects.length = first.connects.length + 1 := by
    intro first
    unfold connect
    split <;> exact List.length_append
  unfold sleepOver at hsleep
  split at hsleep
  next attempt delay hsleeping =>
    dsimp only at hsleep
    split at hsleep
    · cases hsleep
      rw [retry_eq]
      exact hconnect _
    · cases hsleep
      exact hconnect _
  · cases hsleep

theorem exists_of_not_lastAttempt {client : Client Value} {l : Nat}
    (hnot : ¬ client.LastAttempt l) : ∃ options attempt,
      client.config.reconnect = some options ∧ client.loops[l]? = some (.connecting attempt) ∧
        options.allows (attempt + 1) = true := by
  simp only [LastAttempt, not_forall, Bool.not_eq_false] at hnot
  obtain ⟨options, attempt, hoptions, hloop, hallows⟩ := hnot
  exact ⟨options, attempt, hoptions, hloop, hallows⟩

theorem activeLoop_sleeping {client next : Client Value} {l : Nat} {loop : ReconnectLoop}
    (hloop : client.loops[l]? = some loop)
    (hloops : ∃ attempt delay, next.loops = client.loops.set l (.sleeping attempt delay)) :
    next.ActiveLoop l := by
  obtain ⟨attempt, delay, hloops⟩ := hloops
  refine ⟨.sleeping attempt delay, ?_, fun h => (by cases h)⟩
  rw [hloops, List.getElem?_set_self (List.getElem?_eq_some_iff.mp hloop).1]

theorem not_endsConnected {client next : Client Value} {event : ClientEvent}
    (hundisciplined : ¬ client.Disciplined event)
    (hstep : client.step format decode event = some next) : ¬ client.EndsConnected event next := by
  intro hends
  cases event with
  | sleepOver l =>
      have hconnected : client.isConnected = true := Option.isSome_iff_ne_none.mpr hundisciplined
      obtain ⟨-, hlength⟩ := hends l rfl (.inl hconnected)
      rw [sleepOver_connects hstep] at hlength
      exact Nat.succ_ne_self _ hlength
  | connectFailed k message =>
      simp only [Disciplined, not_forall, not_or] at hundisciplined
      obtain ⟨l, hk, hcodec, hnot⟩ := hundisciplined
      obtain ⟨options, attempt, hoptions, hloop, hallows⟩ := exists_of_not_lastAttempt hnot
      have hnext := connectFailed_of_connecting hk hoptions hloop hstep
      obtain ⟨hended, -⟩ := hends l hk (.inl (Option.isSome_iff_ne_none.mpr hcodec))
      refine hended (activeLoop_sleeping hloop ⟨attempt + 1, options.delay (attempt + 1), ?_⟩)
      rw [hnext, Client.attempt, if_pos hallows]
  | connected k throws =>
      simp only [Disciplined, not_forall] at hundisciplined
      obtain ⟨l, hk, hthrows, honReconnect, hnot⟩ := hundisciplined
      obtain ⟨options, attempt, hoptions, hloop, hallows⟩ := exists_of_not_lastAttempt hnot
      have hnext := connected_of_connecting hk hoptions hloop hstep
      rw [hoptions] at honReconnect
      rw [if_pos ⟨hthrows, honReconnect, hallows⟩] at hnext
      have hconnected : next.isConnected = true := by
        rw [hnext]
        rfl
      obtain ⟨hended, -⟩ := hends l hk (.inr hconnected)
      refine hended (activeLoop_sleeping hloop ⟨attempt + 1, options.delay (attempt + 1), ?_⟩)
      rw [hnext]
  | connect | disconnect | call | data | close | error | written | poll | timeout | resume
  | read => exact hundisciplined trivial

/-- There is one loop at most, `reconnecting` tells whether there is, and the loop
ends when the client is connected, exactly in the disciplined runs. -/
theorem reconnect_loop_iff (config : ClientConfig) (events : List ClientEvent) :
    Along (step format decode) (fun client event next =>
      next.OneLoop ∧ client.EndsConnected event next) (init config) events ↔
      Guarded (step format decode) Disciplined (init config) events := by
  apply along_iff_guarded fun client => ∃ active, Looping client active
  · rintro client event next ⟨active, hlooping⟩ hdisciplined hstep
    obtain ⟨⟨active', hnext⟩, hends⟩ := hlooping.step hdisciplined hstep
    exact ⟨⟨active', hnext⟩, hnext.oneLoop, hends⟩
  · rintro client event next - hundisciplined hstep ⟨-, hends⟩
    exact not_endsConnected hundisciplined hstep hends
  · exact ⟨none, init_looping config⟩

/-- After `onReconnect` has thrown, the loop goes on while `reconnecting` is
false, and the next disconnect starts a second loop. -/
theorem throwing_callback_starts_second_loop :
    ∃ connected last : Client (List UInt8),
      run (step (.knowing []) fun _ => .ok) (init { reconnect := some { onReconnect := true } })
        [.connect, .connected 0 false, .close 0, .sleepOver 0, .connected 1 true] =
        some connected ∧
      connected.isConnected = true ∧ connected.reconnecting = false ∧ connected.ActiveLoop 0 ∧
      connected.step (.knowing []) (fun _ => .ok) (.close 1) = some last ∧
      last.ActiveLoop 0 ∧ last.ActiveLoop 1 ∧ ¬ connected.OneLoop ∧ ¬ last.OneLoop := by
  refine ⟨_, _, rfl, rfl, rfl, ⟨.sleeping 1 400, rfl, by decide⟩, rfl,
    ⟨.sleeping 1 400, rfl, by decide⟩, ⟨.sleeping 0 200, rfl, by decide⟩, ?_, ?_⟩
  · intro hone
    cases hone.reconnecting_iff.mpr ⟨0, .sleeping 1 400, rfl, by decide⟩
  · intro hone
    exact absurd (hone.single 0 1 ⟨.sleeping 1 400, rfl, by decide⟩
      ⟨.sleeping 0 200, rfl, by decide⟩) (by decide)

end Client

end Ibridger.Js
