import Ibridger.Foundation.Runs
import Mathlib.Logic.Function.Basic

/-! # Starting and stopping the JS server

`start`, `stop` and `handleConnection` of `IBridgerServer` in `server.ts`, with calls that
overlap. A call runs up to its `await` at once; what it awaits, and the rest of it, are
steps of their own.
-/

namespace Ibridger.Js

open Transition

/-- Where the promise of a `UnixSocketServer.listen` is. -/
inductive ListenPhase where
  /-- The socket listens and the event is due. -/
  | awaiting
  /-- The socket does not listen and the error is due. -/
  | failing
  | resolved
  /-- `start` has gone on, or has been rejected. -/
  | settled
deriving DecidableEq

/-- A `UnixSocketServer` and its `net.Server`. -/
structure Listener where
  /-- Whether the `net.Server` has its handle, that is, whether it listens. -/
  handle : Bool
  /-- `_isListening`. -/
  isListening : Bool
  /-- The sockets that the `net.Server` waits for before it is closed. -/
  connections : Nat
  phase : ListenPhase
deriving DecidableEq

namespace Listener

def unused : Listener where
  handle := false
  isListening := false
  connections := 0
  phase := .settled

/-- `listen` of a new server. Whether the path can be bound is an input. -/
def listen (bound : Bool) : Listener where
  handle := bound
  isListening := false
  connections := 0
  phase := if bound then .awaiting else .failing

/-- `close` up to its callback. -/
def close (listener : Listener) : Listener :=
  { listener with handle := false, isListening := false }

/-- A `net.Server` calls back once it has no handle and no sockets. -/
def drained (listener : Listener) : Bool :=
  !listener.handle && listener.connections == 0

end Listener

/-- A connection that `handleConnection` has got. -/
structure ServedConnection where
  listener : Nat
  /-- Its `net.Server` counts the socket. -/
  counted : Bool
  /-- Its `dispatchLoop` runs. -/
  looping : Bool
  closed : Bool
deriving DecidableEq

structure IBridgerServer where
  /-- The listener of `this.socketServer`. -/
  socketServer : Option Nat
  activeConnections : List Nat
  isRunning : Bool
  listener : Nat → Listener
  /-- How many listeners `start` has made. -/
  made : Nat
  connection : Nat → ServedConnection
  accepted : Nat
  /-- The listener that a call of `stop` waits for, unless it is resolved. -/
  stops : Nat → Option Nat
  issued : Nat
  /-- The last call of `stop`, unless `start` has been called later. -/
  lastStop : Option Nat

inductive LifecycleEvent where
  | start (bound : Bool)
  /-- The `net.Server` emits its event, and `listen` resolves. -/
  | listening (n : Nat)
  /-- `start` goes on. -/
  | started (n : Nat)
  | rejected (n : Nat)
  | connection (n : Nat)
  | socketClosed (c : Nat)
  | loopEnded (c : Nat)
  | stop
  /-- The `net.Server` has closed, and `stop` goes on. -/
  | stopped (k : Nat)
deriving DecidableEq

namespace IBridgerServer

def init : IBridgerServer where
  socketServer := none
  activeConnections := []
  isRunning := false
  listener := fun _ => .unused
  made := 0
  connection := fun _ => ⟨0, false, false, false⟩
  accepted := 0
  stops := fun _ => none
  issued := 0
  lastStop := none

def setListener (server : IBridgerServer) (n : Nat) (listener : Listener) : IBridgerServer :=
  { server with listener := Function.update server.listener n listener }

def setConnection (server : IBridgerServer) (c : Nat) (connection : ServedConnection) : IBridgerServer :=
  { server with connection := Function.update server.connection c connection }

/-- `start` up to its `await`. -/
def start (server : IBridgerServer) (bound : Bool) : Except String IBridgerServer :=
  if server.isRunning then .error "Server is already running"
  else
    .ok { server.setListener server.made (.listen bound) with
      socketServer := some server.made, made := server.made + 1 }

/-- `start` behind its `await`. -/
def started (server : IBridgerServer) (n : Nat) : IBridgerServer :=
  { server.setListener n { server.listener n with phase := .settled } with isRunning := true }

/-- `stop` up to its `await`, with the listener that it awaits. -/
def stop (server : IBridgerServer) : Option Nat × IBridgerServer :=
  if server.isRunning then
    let closed := { server with
      isRunning := false
      connection := fun c =>
        if c ∈ server.activeConnections then { server.connection c with closed := true }
        else server.connection c
      activeConnections := [] }
    match server.socketServer with
    | none => (none, closed)
    | some n => (some n, closed.setListener n (server.listener n).close)
  else (none, server)

def handleConnection (server : IBridgerServer) (n : Nat) : IBridgerServer :=
  let accepted := server.setConnection server.accepted ⟨n, true, true, false⟩
  { accepted.setListener n
      { server.listener n with connections := (server.listener n).connections + 1 } with
    activeConnections := server.activeConnections ++ [server.accepted]
    accepted := server.accepted + 1 }

/-- A socket has closed, and its `net.Server` no longer counts it. -/
def socketClosed (server : IBridgerServer) (c : Nat) : IBridgerServer :=
  let n := (server.connection c).listener
  (server.setConnection c { server.connection c with counted := false }).setListener n
    { server.listener n with connections := (server.listener n).connections - 1 }

/-- What `handleConnection` does once the `dispatchLoop` has ended. -/
def loopEnded (server : IBridgerServer) (c : Nat) : IBridgerServer :=
  { server.setConnection c { server.connection c with looping := false, closed := true } with
    activeConnections := server.activeConnections.erase c }

def step (server : IBridgerServer) : LifecycleEvent → Option IBridgerServer
  | .start bound =>
      match server.start bound with
      | .error _ => some { server with lastStop := none }
      | .ok started => some { started with lastStop := none }
  | .listening n =>
      if (server.listener n).phase = .awaiting ∧ (server.listener n).handle then
        some (server.setListener n
          { server.listener n with isListening := true, phase := .resolved })
      else none
  | .started n => if (server.listener n).phase = .resolved then some (server.started n) else none
  | .rejected n =>
      if (server.listener n).phase = .failing then
        some (server.setListener n { server.listener n with phase := .settled })
      else none
  | .connection n => if (server.listener n).handle then some (server.handleConnection n) else none
  | .socketClosed c =>
      if (server.connection c).counted then some (server.socketClosed c) else none
  | .loopEnded c => if (server.connection c).looping then some (server.loopEnded c) else none
  | .stop =>
      some { server.stop.2 with
        stops := Function.update server.stops server.issued server.stop.1
        issued := server.issued + 1
        lastStop := some server.issued }
  | .stopped k =>
      match server.stops k with
      | none => none
      | some n =>
          if (server.listener n).drained then
            some { server with socketServer := none, stops := Function.update server.stops k none }
          else none

/-! ## One listener -/

/-- The listener listens. -/
def Listens (server : IBridgerServer) (n : Nat) : Prop := (server.listener n).handle = true

/-- The server has the one listener that listens, and once the last `stop` is resolved
there is none. -/
structure Coherent (server : IBridgerServer) : Prop where
  one : ∀ m n, server.Listens m → server.Listens n → m = n
  held : ∀ n, server.Listens n → server.socketServer = some n
  stopped : ∀ k, server.lastStop = some k → server.stops k = none →
    (∀ n, ¬ server.Listens n) ∧ server.activeConnections = [] ∧ server.isRunning = false

/-- `start` or `stop` is called while the server listens and `start` has yet to go on, or
`stop` goes on while the server listens again. -/
def Overlapping (server : IBridgerServer) : LifecycleEvent → Prop
  | .start _ | .stop => server.isRunning = false ∧ ∃ n, server.Listens n
  | .stopped _ => ∃ n, server.Listens n
  | _ => False

/-- What holds where no calls overlap. -/
structure Orderly (server : IBridgerServer) : Prop where
  made : ∀ n, server.Listens n → n < server.made
  held : ∀ n, server.Listens n → server.socketServer = some n
  running : server.isRunning = true →
    ∃ n, server.Listens n ∧ (server.listener n).phase = .settled
  pending : ∀ n, (server.listener n).phase = .awaiting ∨ (server.listener n).phase = .resolved →
    server.Listens n
  idle : (∀ n, ¬ server.Listens n) → server.activeConnections = []
  stopped : ∀ k, server.lastStop = some k → server.stops k = none → ∀ n, ¬ server.Listens n

section Orderly

variable {server next : IBridgerServer}

theorem Orderly.not_running (horderly : Orderly server) (hidle : ∀ n, ¬ server.Listens n) :
    server.isRunning = false := by
  by_contra hrunning
  obtain ⟨n, hlistens, -⟩ := horderly.running (by simpa using hrunning)
  exact hidle n hlistens

theorem Orderly.coherent (horderly : Orderly server) : Coherent server where
  one := by
    intro m n hm hn
    have hsame := (horderly.held m hm).symm.trans (horderly.held n hn)
    simpa using hsame
  held := horderly.held
  stopped := by
    intro k hlast hresolved
    have hidle := horderly.stopped k hlast hresolved
    exact ⟨hidle, horderly.idle hidle, horderly.not_running hidle⟩

theorem init_orderly : Orderly init where
  made := fun _ h => (by cases h)
  held := fun _ h => (by cases h)
  running := fun h => (by cases h)
  pending := fun _ h => (by rcases h with h | h <;> cases h)
  idle := fun _ => rfl
  stopped := fun _ h => (by cases h)

theorem setListener_self (server : IBridgerServer) (n : Nat) (listener : Listener) :
    (server.setListener n listener).listener n = listener :=
  Function.update_self ..

theorem setListener_of_ne (server : IBridgerServer) {m n : Nat} (listener : Listener)
    (hm : m ≠ n) : (server.setListener n listener).listener m = server.listener m :=
  Function.update_of_ne hm ..

/-! ## What a step keeps -/

/-- A step by which no listener comes or goes. -/
structure Stays (server next : IBridgerServer) : Prop where
  listens : ∀ n, next.Listens n ↔ server.Listens n
  phase : ∀ n, (next.listener n).phase = (server.listener n).phase ∨
    (next.listener n).phase = .settled ∨
    (server.listener n).phase = .awaiting ∧ (next.listener n).phase = .resolved
  made_eq : next.made = server.made
  socketServer_eq : next.socketServer = server.socketServer
  running : next.isRunning = true → server.isRunning = true ∨
    ∃ n, next.Listens n ∧ (next.listener n).phase = .settled
  idle : (∀ n, ¬ server.Listens n) → server.activeConnections = [] → next.activeConnections = []
  stops_eq : next.stops = server.stops
  lastStop_eq : next.lastStop = server.lastStop

theorem Orderly.of_stays (horderly : Orderly server) (hstays : Stays server next) :
    Orderly next := by
  have hidle : (∀ n, ¬ next.Listens n) → ∀ n, ¬ server.Listens n :=
    fun h n hn => h n ((hstays.listens n).mpr hn)
  constructor
  · intro n hn
    rw [hstays.made_eq]
    exact horderly.made n ((hstays.listens n).mp hn)
  · intro n hn
    rw [hstays.socketServer_eq]
    exact horderly.held n ((hstays.listens n).mp hn)
  · intro hrunning
    rcases hstays.running hrunning with hold | hnew
    · obtain ⟨n, hlistens, hphase⟩ := horderly.running hold
      refine ⟨n, (hstays.listens n).mpr hlistens, ?_⟩
      rcases hstays.phase n with hsame | hsettled | ⟨hawaiting, -⟩
      · rw [hsame, hphase]
      · exact hsettled
      · cases hphase.symm.trans hawaiting
    · exact hnew
  · intro n hpending
    apply (hstays.listens n).mpr
    apply horderly.pending
    rcases hstays.phase n with hsame | hsettled | ⟨hawaiting, -⟩
    · rw [← hsame]
      exact hpending
    · rw [hsettled] at hpending
      simp at hpending
    · exact .inl hawaiting
  · intro hnone
    exact hstays.idle (hidle hnone) (horderly.idle (hidle hnone))
  · intro k hlast hresolved n hn
    rw [hstays.lastStop_eq] at hlast
    rw [hstays.stops_eq] at hresolved
    exact horderly.stopped k hlast hresolved n ((hstays.listens n).mp hn)

/-- A listener that stays open or closed. -/
theorem stays_setListener {n : Nat} {listener : Listener}
    (hhandle : listener.handle = (server.listener n).handle)
    (hphase : listener.phase = (server.listener n).phase ∨ listener.phase = .settled ∨
      (server.listener n).phase = .awaiting ∧ listener.phase = .resolved) :
    Stays server (server.setListener n listener) := by
  refine ⟨?_, ?_, rfl, rfl, .inl, fun _ h => h, rfl, rfl⟩
  · intro m
    by_cases hm : m = n
    · subst hm
      rw [Listens, setListener_self, hhandle, Listens]
    · rw [Listens, setListener_of_ne _ _ hm, Listens]
  · intro m
    by_cases hm : m = n
    · subst hm
      rw [setListener_self]
      exact hphase
    · rw [setListener_of_ne _ _ hm]
      exact .inl rfl

/-- What a call of `start` does that does not throw. -/
structure Starts (server next : IBridgerServer) (bound : Bool) : Prop where
  not_running : server.isRunning = false
  new : next.listener server.made = .listen bound
  others : ∀ m, m ≠ server.made → next.listener m = server.listener m
  made_eq : next.made = server.made + 1
  socketServer_eq : next.socketServer = some server.made
  isRunning_eq : next.isRunning = false
  activeConnections_eq : next.activeConnections = server.activeConnections

theorem start_starts {bound : Bool} (hstart : server.start bound = .ok next) :
    Starts server next bound := by
  unfold start at hstart
  split at hstart
  · cases hstart
  next hnot =>
    have hrunning : server.isRunning = false := by simpa using hnot
    cases hstart
    exact ⟨hrunning, setListener_self .., fun m hm => setListener_of_ne _ _ hm, rfl, rfl, hrunning,
      rfl⟩

theorem Orderly.start (horderly : Orderly server) {bound : Bool}
    (hidle : ∀ n, ¬ server.Listens n) (hstarts : Starts server next bound) :
    Orderly { next with lastStop := none } := by
  have honly : ∀ m, next.Listens m → m = server.made := by
    intro m hm
    by_contra hne
    rw [Listens, hstarts.others m hne] at hm
    exact hidle m hm
  constructor
  · intro m hm
    rw [honly m hm]
    exact hstarts.made_eq ▸ Nat.lt_succ_self _
  · intro m hm
    rw [honly m hm]
    exact hstarts.socketServer_eq
  · intro hrunning
    cases hstarts.isRunning_eq.symm.trans hrunning
  · intro m hpending
    change (next.listener m).phase = _ ∨ (next.listener m).phase = _ at hpending
    change (next.listener m).handle = true
    by_cases hm : m = server.made
    · subst hm
      rw [hstarts.new] at hpending ⊢
      cases bound with
      | true => rfl
      | false => simp [Listener.listen] at hpending
    · rw [hstarts.others m hm] at hpending
      exact absurd (horderly.pending m hpending) (hidle m)
  · intro _
    exact hstarts.activeConnections_eq.trans (horderly.idle hidle)
  · intro k hlast
    cases hlast

/-- What a call of `stop` leaves. -/
structure Stops (server next : IBridgerServer) : Prop where
  listens : ∀ n, ¬ next.Listens n
  phase : ∀ n, (next.listener n).phase = (server.listener n).phase
  settled : ∀ n, server.Listens n → (server.listener n).phase = .settled
  isRunning_eq : next.isRunning = false
  activeConnections_eq : next.activeConnections = []

theorem Orderly.stop_stops (horderly : Orderly server)
    (hlate : server.isRunning = false → ∀ n, ¬ server.Listens n) :
    Stops server server.stop.2 := by
  -- the listener that listens is the one that has been started
  have hsettled : ∀ n, server.Listens n → (server.listener n).phase = .settled := by
    intro n hlistens
    by_cases hrunning : server.isRunning = true
    · obtain ⟨m, hm, hphase⟩ := horderly.running hrunning
      have hsame := (horderly.held m hm).symm.trans (horderly.held n hlistens)
      rw [← Option.some.inj hsame]
      exact hphase
    · exact absurd hlistens (hlate (by simpa using hrunning) n)
  unfold stop
  by_cases hrunning : server.isRunning = true
  · rw [if_pos hrunning]
    cases hserver : server.socketServer with
    | none =>
        refine ⟨?_, fun _ => rfl, hsettled, rfl, rfl⟩
        intro n hlistens
        cases hserver.symm.trans (horderly.held n hlistens)
    | some n =>
        refine ⟨?_, ?_, hsettled, rfl, rfl⟩
        · intro m hlistens
          dsimp only at hlistens
          by_cases hm : m = n
          · subst hm
            rw [Listens, setListener_self] at hlistens
            cases hlistens
          · rw [Listens, setListener_of_ne _ _ hm] at hlistens
            have hsame := hserver.symm.trans (horderly.held m hlistens)
            exact hm (Option.some.inj hsame).symm
        · intro m
          dsimp only
          by_cases hm : m = n
          · subst hm
            rw [setListener_self, Listener.close]
          · rw [setListener_of_ne _ _ hm]
  · have hnot : server.isRunning = false := by simpa using hrunning
    rw [if_neg hrunning]
    exact ⟨hlate hnot, fun _ => rfl, hsettled, hnot, horderly.idle (hlate hnot)⟩

theorem Orderly.stop (horderly : Orderly server) (hstops : Stops server next)
    (stops : Nat → Option Nat) (issued : Nat) (lastStop : Option Nat) :
    Orderly { next with stops := stops, issued := issued, lastStop := lastStop } where
  made := fun n h => absurd h (hstops.listens n)
  held := fun n h => absurd h (hstops.listens n)
  running := fun h => (by cases hstops.isRunning_eq.symm.trans h)
  pending := by
    intro n hpending
    change (next.listener n).phase = _ ∨ (next.listener n).phase = _ at hpending
    rw [hstops.phase n] at hpending
    have hsettled := hstops.settled n (horderly.pending n hpending)
    rw [hsettled] at hpending
    simp at hpending
  idle := fun _ => hstops.activeConnections_eq
  stopped := fun _ _ _ n => hstops.listens n

theorem Orderly.stopped_idle (horderly : Orderly server) (hidle : ∀ n, ¬ server.Listens n)
    (stops : Nat → Option Nat) :
    Orderly { server with socketServer := none, stops := stops } where
  made := fun n h => absurd h (hidle n)
  held := fun n h => absurd h (hidle n)
  running := fun h => (by cases (horderly.not_running hidle).symm.trans h)
  pending := fun n h => absurd (horderly.pending n h) (hidle n)
  idle := fun _ => horderly.idle hidle
  stopped := fun _ _ _ => hidle

theorem Orderly.step {event : LifecycleEvent} (horderly : Orderly server)
    (happart : ¬ Overlapping server event) (hstep : server.step event = some next) :
    Orderly next := by
  cases event with
  | start bound =>
      simp only [IBridgerServer.step] at hstep
      split at hstep
      next hthrown =>
        -- a server that runs throws, and nothing changes
        cases hstep
        exact ⟨horderly.made, horderly.held, horderly.running, horderly.pending, horderly.idle,
          fun _ h => (by cases h)⟩
      next started hstart =>
        cases hstep
        have hstarts := start_starts hstart
        apply horderly.start _ hstarts
        intro n hlistens
        exact happart ⟨hstarts.not_running, n, hlistens⟩
  | listening n =>
      obtain ⟨⟨hphase, -⟩, hnext⟩ := Option.ite_none_right_eq_some.mp hstep
      cases hnext
      apply horderly.of_stays
      exact stays_setListener rfl (.inr (.inr ⟨hphase, rfl⟩))
  | started n =>
      obtain ⟨hphase, hnext⟩ := Option.ite_none_right_eq_some.mp hstep
      cases hnext
      have hstays : Stays server
          (server.setListener n { server.listener n with phase := .settled }) :=
        stays_setListener rfl (.inr (.inl rfl))
      apply horderly.of_stays
      refine ⟨hstays.listens, hstays.phase, rfl, rfl, ?_, fun _ h => h, rfl, rfl⟩
      intro _
      refine .inr ⟨n, (hstays.listens n).mpr (horderly.pending n (.inr hphase)), ?_⟩
      exact congrArg Listener.phase (setListener_self ..)
  | rejected n =>
      obtain ⟨-, hnext⟩ := Option.ite_none_right_eq_some.mp hstep
      cases hnext
      apply horderly.of_stays
      exact stays_setListener rfl (.inr (.inl rfl))
  | connection n =>
      obtain ⟨hlistens, hnext⟩ := Option.ite_none_right_eq_some.mp hstep
      cases hnext
      have hstays : Stays server (server.setListener n { server.listener n with
          connections := (server.listener n).connections + 1 }) :=
        stays_setListener rfl (.inl rfl)
      apply horderly.of_stays
      exact ⟨hstays.listens, hstays.phase, rfl, rfl, .inl,
        fun hidle _ => absurd hlistens (hidle n), rfl, rfl⟩
  | socketClosed c =>
      obtain ⟨-, hnext⟩ := Option.ite_none_right_eq_some.mp hstep
      cases hnext
      let n := (server.connection c).listener
      have hstays : Stays server (server.setListener n { server.listener n with
          connections := (server.listener n).connections - 1 }) :=
        stays_setListener rfl (.inl rfl)
      apply horderly.of_stays
      exact ⟨hstays.listens, hstays.phase, rfl, rfl, .inl, fun _ h => h, rfl, rfl⟩
  | loopEnded c =>
      obtain ⟨-, hnext⟩ := Option.ite_none_right_eq_some.mp hstep
      cases hnext
      apply horderly.of_stays
      refine ⟨fun _ => Iff.rfl, fun _ => .inl rfl, rfl, rfl, .inl, ?_, rfl, rfl⟩
      intro _ hnone
      change server.activeConnections.erase c = []
      rw [hnone, List.erase_nil]
  | stop =>
      cases hstep
      have hstops : Stops server server.stop.2 := by
        apply horderly.stop_stops
        intro hrunning n hlistens
        exact happart ⟨hrunning, n, hlistens⟩
      exact horderly.stop hstops _ _ _
  | stopped k =>
      simp only [IBridgerServer.step] at hstep
      split at hstep
      · cases hstep
      · obtain ⟨-, hnext⟩ := Option.ite_none_right_eq_some.mp hstep
        cases hnext
        apply horderly.stopped_idle
        intro n hlistens
        exact happart ⟨n, hlistens⟩

/-- A step that overlaps leaves a server that is not coherent. -/
theorem Overlapping.not_coherent {event : LifecycleEvent} (horderly : Orderly server)
    (hoverlaps : Overlapping server event) (hstep : server.step event = some next) :
    ¬ Coherent next := by
  intro hcoherent
  cases event with
  | start bound =>
      obtain ⟨hrunning, n, hlistens⟩ := hoverlaps
      simp only [IBridgerServer.step] at hstep
      split at hstep
      next hthrown =>
        unfold start at hthrown
        rw [hrunning] at hthrown
        cases hthrown
      next started hstart =>
        cases hstep
        have hstarts := start_starts hstart
        have hne : n ≠ server.made := Nat.ne_of_lt (horderly.made n hlistens)
        have hstill : started.Listens n := by
          rw [Listens, hstarts.others n hne]
          exact hlistens
        -- the server has the new listener, the old one still listens
        have hsame := hstarts.socketServer_eq.symm.trans (hcoherent.held n hstill)
        exact hne (Option.some.inj hsame).symm
  | stop =>
      obtain ⟨hrunning, n, hlistens⟩ := hoverlaps
      have hstop : server.stop = (none, server) := by
        unfold stop
        rw [hrunning]
        rfl
      cases hstep
      rw [hstop] at hcoherent
      obtain ⟨hidle, -⟩ := hcoherent.stopped server.issued rfl (Function.update_self ..)
      exact hidle n hlistens
  | stopped k =>
      obtain ⟨n, hlistens⟩ := hoverlaps
      simp only [IBridgerServer.step] at hstep
      split at hstep
      · cases hstep
      · obtain ⟨-, hnext⟩ := Option.ite_none_right_eq_some.mp hstep
        cases hnext
        cases hcoherent.held n hlistens
  | listening | started | rejected | connection | socketClosed | loopEnded => exact hoverlaps

end Orderly

/-- The server has one listener at most, which it keeps until it closes it, and none once
it is stopped, exactly as long as no calls of `start` and `stop` overlap. -/
theorem run_coherent_iff (events : List LifecycleEvent) :
    Throughout step Coherent init events ↔
      Guarded step (fun server event => ¬ Overlapping server event) init events := by
  apply throughout_iff_guarded Orderly
  · intro server horderly
    exact horderly.coherent
  · intro server event next horderly happart hstep
    exact horderly.step happart hstep
  · intro server event next horderly hoverlaps hstep
    exact Overlapping.not_coherent horderly (not_not.mp hoverlaps) hstep
  · exact init_orderly

/-- `start` twice, `stop` during `start`, and `start` during `stop`, where a connection of
the first listener stays open for a while. -/
theorem overlapping_calls_leak :
    (∃ server, run step init [.start true, .start true, .listening 0, .listening 1, .started 0,
        .started 1, .stop, .stopped 0] = some server ∧
      server.Listens 0 ∧ server.socketServer = none ∧ server.isRunning = false) ∧
    (∃ server, run step init [.start true, .stop, .listening 0, .started 0] = some server ∧
      server.stops 0 = none ∧ server.Listens 0 ∧ server.isRunning = true) ∧
    (∃ server, run step init [.start true, .listening 0, .started 0, .connection 0, .stop,
        .start true, .listening 1, .started 1, .socketClosed 0, .loopEnded 0, .stopped 0, .stop] =
        some server ∧
      server.lastStop = some 1 ∧ server.stops 1 = none ∧ server.Listens 1) ∧
    ¬ ∀ events, Throughout step Coherent init events := by
  refine ⟨⟨_, rfl, rfl, rfl, rfl⟩, ⟨_, rfl, rfl, rfl, rfl⟩, ⟨_, rfl, rfl, rfl, rfl⟩, ?_⟩
  intro hall
  obtain ⟨-, halong⟩ := hall [.start true, .stop]
  obtain ⟨-, halong⟩ := halong _ rfl
  obtain ⟨hcoherent, -⟩ := halong _ rfl
  exact (hcoherent.stopped 0 rfl rfl).1 0 rfl

end IBridgerServer

end Ibridger.Js
