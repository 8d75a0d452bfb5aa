import Ibridger.Cpp.ServerCycles

/-! # The handler threads that a server keeps

The accept loop adds each thread that it spawns to `handler_threads_`. A handler
that ends takes its connection out of the table, but its thread stays in the
vector until a `stop` joins it.
-/

namespace Ibridger.Cpp.Server

open Transition

variable {server next first last : Server}

/-- No `stop` is under way. -/
def NotStopping (server : Server) : Prop := server.caller = .idle ∨ server.caller = .spawning

theorem NotStopping.congr (hnot : server.NotStopping) (hcaller : next.caller = server.caller) :
    next.NotStopping := by
  unfold NotStopping
  rw [hcaller]
  exact hnot

/-- Only the accept loop changes the vector, by the thread of one more connection. -/
theorem NotStopping.step (hnot : server.NotStopping) {event : ServerEvent} (hevent : event ≠ .stop)
    (hstep : server.step event = some next) :
    next.NotStopping ∧ next.handlerThreads.length =
      server.handlerThreads.length + [event].count .insert := by
  cases event with
  | start outcome =>
      obtain ⟨-, rfl | ⟨-, rfl⟩⟩ := step_start hstep
      · exact ⟨hnot, rfl⟩
      · exact ⟨.inr rfl, rfl⟩
  | stop => exact absurd rfl hevent
  | proceed =>
      have hproceed : server.proceed = some next := hstep
      rcases hnot with hidle | hspawning
      · rw [proceed, hidle] at hproceed
        cases hproceed
      · rw [proceed, hspawning] at hproceed
        cases hproceed
        exact ⟨.inl rfl, rfl⟩
  | test =>
      obtain ⟨-, rfl⟩ := test_eq hstep
      exact ⟨hnot.congr rfl, rfl⟩
  | accept err =>
      obtain ⟨-, ⟨-, rfl⟩ | ⟨-, rfl⟩⟩ := accept_eq hstep
      · exact ⟨hnot.congr rfl, rfl⟩
      · exact ⟨hnot.congr rfl, rfl⟩
  | checkLimit =>
      obtain ⟨conn, -, ⟨-, rfl⟩ | ⟨-, rfl⟩⟩ := checkLimit_eq hstep
      · exact ⟨hnot.congr rfl, rfl⟩
      · exact ⟨hnot.congr rfl, rfl⟩
  | insert =>
      obtain ⟨conn, -, rfl⟩ := insert_eq hstep
      refine ⟨hnot.congr rfl, ?_⟩
      dsimp only
      rw [List.length_append]
      rfl
  | leave h =>
      obtain ⟨framed, -, rfl⟩ := leave_eq hstep
      exact ⟨hnot.congr rfl, rfl⟩
  | removeConnection h =>
      obtain ⟨framed, -, rfl⟩ := removeConnection_eq hstep
      exact ⟨hnot.congr rfl, rfl⟩

/-- Until a `stop`, the vector holds a thread for each connection that was served. -/
theorem NotStopping.run (hnot : first.NotStopping) {events : List ServerEvent}
    (hstop : .stop ∉ events) (hrun : run Server.step first events = some last) :
    last.handlerThreads.length = first.handlerThreads.length + events.count .insert := by
  induction events generalizing first with
  | nil =>
      cases hrun
      rfl
  | cons event rest ih =>
      obtain ⟨next, hnext, hrest⟩ := run_cons_eq_some.mp hrun
      rw [List.mem_cons, not_or] at hstop
      obtain ⟨hnotNext, hlength⟩ := hnot.step (Ne.symm hstop.1) hnext
      have htail := ih hnotNext hstop.2 hrest
      rw [← List.singleton_append, List.count_append]
      omega

/-- Before a `stop`, the threads held are within any bound exactly when no more
connections have been served since the `start`. -/
theorem threads_bounded_iff (config : ServerConfig) (slack : Nat) {events : List ServerEvent}
    (hreach : Reachable step (init config) first) (hidle : first.caller = .idle)
    (hstopped : first.running = false) (hstop : .stop ∉ events)
    (hrun : run step first events = some last) :
    last.handlerThreads.length ≤ config.maxConnections + slack ↔
      events.count .insert ≤ config.maxConnections + slack := by
  have hinv : Tabled config.maxConnections first ∧ Cycled first := by
    refine hreach.invariant (fun server => Tabled config.maxConnections server ∧ Cycled server)
      ?_ ⟨Tabled.init config, Cycled.init config⟩
    rintro state event next ⟨htabled, hcycled⟩ hstep
    exact ⟨htabled.step hstep, hcycled.step hstep⟩
  have hnone : first.handlerThreads = [] :=
    (hinv.2.stopped_of_idle hinv.1 hidle hstopped).handlerThreads_eq
  have hlength := NotStopping.run (.inl hidle) hstop hrun
  rw [hlength, hnone, List.length_nil, Nat.zero_add]

/-- A client connects and disconnects, and then another connects. -/
def twoInTurn : List ServerEvent :=
  [.start .listening, .proceed, .test, .accept none, .checkLimit, .insert, .leave 0,
    .removeConnection 0, .test, .accept none, .checkLimit, .insert]

/-- A server with one place holds a thread for each of the two. -/
theorem threads_bounded_two :
    ∃ last, run step (init { maxConnections := 1 }) twoInTurn = some last ∧
      last.handlerThreads = [0, 1] ∧
      (last.handlerThreads.length ≤ 1 + 0 ↔ twoInTurn.count .insert ≤ 1 + 0) :=
  ⟨_, rfl, rfl,
    threads_bounded_iff { maxConnections := 1 } 0 (.refl _) rfl rfl (by decide) rfl⟩

/-! ## Threads accumulate -/

/-- The server runs and has no connections. -/
structure Unoccupied (server : Server) : Prop where
  running_eq : server.running = true
  acceptThread_eq : server.acceptThread = some .testing
  activeConnections_eq : server.activeConnections = []

/-- A client connects and disconnects. -/
theorem Unoccupied.serves (hunoccupied : server.Unoccupied)
    (hlimit : 0 < server.config.maxConnections) :
    ∃ next, Reachable step server next ∧ next.Unoccupied ∧ next.config = server.config ∧
      next.handlerThreads.length = server.handlerThreads.length + 1 := by
  obtain ⟨hrunning, hthread, hactive⟩ := hunoccupied
  refine ⟨{ server with
      acceptThread := some .testing
      accepted := server.accepted + 1
      handlers := server.handlers ++ [⟨server.accepted, .finished⟩]
      handlerThreads := server.handlerThreads ++ [server.handlers.length] },
    ⟨[.test, .accept none, .checkLimit, .insert, .leave server.handlers.length,
      .removeConnection server.handlers.length], ?_⟩, ⟨hrunning, rfl, hactive⟩, rfl, by simp⟩
  simp [step, test, accept, checkLimit, insert, leave, removeConnection, hthread, hrunning,
    hactive, Nat.not_le.mpr hlimit]

/-- With each client gone before the next one comes, the server has served any number. -/
theorem serves_any_number {config : ServerConfig} (hlimit : 0 < config.maxConnections)
    (count : Nat) :
    ∃ server, Reachable step (init config) server ∧ server.Unoccupied ∧
      server.handlerThreads.length = count := by
  suffices ∃ server, Reachable step (init config) server ∧ server.Unoccupied ∧
      server.config = config ∧ server.handlerThreads.length = count by
    obtain ⟨server, hreach, hunoccupied, -, hlength⟩ := this
    exact ⟨server, hreach, hunoccupied, hlength⟩
  induction count with
  | zero => exact ⟨_, ⟨[.start .listening, .proceed], rfl⟩, ⟨rfl, rfl, rfl⟩, rfl, rfl⟩
  | succ count ih =>
      obtain ⟨server, hreach, hunoccupied, hconfig, hlength⟩ := ih
      obtain ⟨next, hnext, hagain, hsame, hmore⟩ := hunoccupied.serves (by rwa [hconfig])
      exact ⟨next, hreach.trans hnext, hagain, hsame.trans hconfig, by rw [hmore, hlength]⟩

/-- No constant bounds the threads that a running server holds, not even where it
has no connection left. -/
theorem threads_accumulate :
    ¬ ∃ slack, ∀ server, Reachable step (init {}) server → server.isRunning = true →
      server.activeConnections = [] →
      server.handlerThreads.length ≤ ({} : ServerConfig).maxConnections + slack := by
  rintro ⟨slack, hbound⟩
  obtain ⟨server, hreach, hunoccupied, hlength⟩ :=
    @serves_any_number {} (by decide) (({} : ServerConfig).maxConnections + slack + 1)
  have hle := hbound server hreach hunoccupied.running_eq hunoccupied.activeConnections_eq
  omega

end Ibridger.Cpp.Server
