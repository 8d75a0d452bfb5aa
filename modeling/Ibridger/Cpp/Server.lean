import Ibridger.Cpp.Error
import Ibridger.Foundation.Runs
import Mathlib.Logic.Function.Basic

/-! # The C++ server

`Server` of `server.cpp`: the thread that calls `start` and `stop`, the accept
loop, and a thread for each connection. A step is a critical section on
`connections_mutex_`, or what a thread does up to its next critical section or
its next call that can block. `start` and `stop` are called one at a time.

What a handler does on its connection is in `Cpp.Session`; here its loop may
end at any time. An `accept` may give a connection or fail at any time, whether
or not the listener has been closed.
-/

namespace Ibridger.Cpp

open Transition

structure ServerConfig where
  maxConnections : Nat := 64
deriving DecidableEq

/-- Where the thread that runs `accept_loop` is. -/
inductive AcceptLoop where
  /-- At the head of the loop, before it reads `running_`. -/
  | testing
  | accepting
  /-- A connection has been accepted, and the limit is to be checked. -/
  | checking (conn : Nat)
  /-- The connection is to be inserted and to get its handler. -/
  | inserting (conn : Nat)
  | exited
deriving DecidableEq

/-- The accepted connection that the loop has in its hands. -/
def AcceptLoop.held : AcceptLoop → Option Nat
  | .checking conn => some conn
  | .inserting conn => some conn
  | .testing | .accepting | .exited => none

inductive HandlerPhase where
  | serving
  /-- The loop is over, and `remove_connection` is to take the mutex. -/
  | leaving
  | finished
deriving DecidableEq

/-- A thread that runs `handle_connection`. -/
structure Handler where
  framed : Nat
  phase : HandlerPhase
deriving DecidableEq

/-- Where the thread is that calls `start` and `stop`. -/
inductive Caller where
  | idle
  /-- `start` has set `running_` and is to spawn the accept thread. -/
  | spawning
  /-- `stop` has cleared `running_`. -/
  | closingListener
  | joiningAccept
  | snapshotting
  | closing (snapshot : List Nat)
  | takingThreads
  | joining (threads : List Nat)
deriving DecidableEq

structure Server where
  config : ServerConfig
  running : Bool
  caller : Caller
  /-- `none` where `accept_thread_` is not joinable. -/
  acceptThread : Option AcceptLoop
  /-- How many connections have been accepted; they are numbered in this order. -/
  accepted : Nat
  /-- Whether the server has closed the connection. -/
  closed : Nat → Bool
  activeConnections : List Nat
  /-- All handler threads ever spawned. -/
  handlers : List Handler
  /-- `handler_threads_`, as indices into the handlers. -/
  handlerThreads : List Nat

/-- What `TransportFactory::create` and `listen` do. -/
inductive StartOutcome where
  | noTransport
  | listenFailed (err : ErrorCode)
  | listening
deriving DecidableEq

inductive ServerEvent where
  | start (outcome : StartOutcome)
  | stop
  /-- The next step of the `start` or `stop` that is under way. -/
  | proceed
  /-- The accept loop reads `running_`. -/
  | test
  /-- `transport_->accept()` returns. -/
  | accept (err : Option ErrorCode)
  | checkLimit
  | insert
  /-- A handler's `recv` or `send` fails. -/
  | leave (handler : Nat)
  | removeConnection (handler : Nat)
deriving DecidableEq

namespace Server

def init (config : ServerConfig) : Server where
  config := config
  running := false
  caller := .idle
  acceptThread := none
  accepted := 0
  closed := fun _ => false
  activeConnections := []
  handlers := []
  handlerThreads := []

def isRunning (server : Server) : Bool := server.running

/-! ## Starting and stopping -/

/-- `start` up to where it spawns the accept thread. -/
def start (server : Server) (outcome : StartOutcome) : Option ErrorCode × Server :=
  if server.running then (some (.ibridger .alreadyConnected), server)
  else
    match outcome with
    | .noTransport => (some (.ibridger .internal), server)
    | .listenFailed err => (some err, server)
    | .listening => (none, { server with running := true, caller := .spawning })

/-- `running_.exchange(false)`, and the return of a `stop` that finds it false. -/
def stop (server : Server) : Server :=
  if server.running then { server with running := false, caller := .closingListener }
  else server

def finished (server : Server) (h : Nat) : Bool :=
  server.handlers[h]?.all fun handler => handler.phase = .finished

/-- The rest of `start` and `stop`. A join waits until the thread has finished. -/
def proceed (server : Server) : Option Server :=
  match server.caller with
  | .idle => none
  | .spawning => some { server with caller := .idle, acceptThread := some .testing }
  | .closingListener => some { server with caller := .joiningAccept }
  | .joiningAccept =>
      match server.acceptThread with
      | none => some { server with caller := .snapshotting }
      | some .exited => some { server with caller := .snapshotting, acceptThread := none }
      | some _ => none
  | .snapshotting => some { server with caller := .closing server.activeConnections }
  | .closing [] => some { server with caller := .takingThreads }
  | .closing (conn :: rest) =>
      some { server with
        caller := .closing rest
        closed := Function.update server.closed conn true }
  | .takingThreads =>
      some { server with caller := .joining server.handlerThreads, handlerThreads := [] }
  | .joining [] => some { server with caller := .idle }
  | .joining (h :: rest) =>
      if server.finished h then some { server with caller := .joining rest } else none

/-! ## The accept loop -/

def test (server : Server) : Option Server :=
  match server.acceptThread with
  | some .testing =>
      some { server with
        acceptThread := some (if server.running then .accepting else .exited) }
  | _ => none

def accept (server : Server) (err : Option ErrorCode) : Option Server :=
  match server.acceptThread with
  | some .accepting =>
      match err with
      -- `break`
      | some _ => some { server with acceptThread := some .exited }
      | none =>
          some { server with
            acceptThread := some (.checking server.accepted)
            accepted := server.accepted + 1 }
  | _ => none

/-- The first critical section of the loop. -/
def checkLimit (server : Server) : Option Server :=
  match server.acceptThread with
  | some (.checking conn) =>
      if server.config.maxConnections ≤ server.activeConnections.length then
        -- `continue`
        some { server with
          acceptThread := some .testing
          closed := Function.update server.closed conn true }
      else some { server with acceptThread := some (.inserting conn) }
  | _ => none

/-- The second critical section of the loop. -/
def insert (server : Server) : Option Server :=
  match server.acceptThread with
  | some (.inserting conn) =>
      some { server with
        acceptThread := some .testing
        activeConnections := server.activeConnections ++ [conn]
        handlers := server.handlers ++ [⟨conn, .serving⟩]
        handlerThreads := server.handlerThreads ++ [server.handlers.length] }
  | _ => none

/-! ## The handlers -/

/-- The loop of `handle_connection` ends. -/
def leave (server : Server) (h : Nat) : Option Server :=
  match server.handlers[h]? with
  | some ⟨framed, .serving⟩ =>
      some { server with handlers := server.handlers.set h ⟨framed, .leaving⟩ }
  | _ => none

/-- `remove_connection`, after which the thread finishes. -/
def removeConnection (server : Server) (h : Nat) : Option Server :=
  match server.handlers[h]? with
  | some ⟨framed, .leaving⟩ =>
      some { server with
        handlers := server.handlers.set h ⟨framed, .finished⟩
        activeConnections := server.activeConnections.erase framed }
  | _ => none

def step (server : Server) : ServerEvent → Option Server
  | .start outcome => if server.caller = .idle then some (server.start outcome).2 else none
  | .stop => if server.caller = .idle then some server.stop else none
  | .proceed => server.proceed
  | .test => server.test
  | .accept err => server.accept err
  | .checkLimit => server.checkLimit
  | .insert => server.insert
  | .leave h => server.leave h
  | .removeConnection h => server.removeConnection h

/-! ## What each step does -/

theorem start_eq (server : Server) (outcome : StartOutcome) :
    (server.start outcome).2 = server ∨
      server.running = false ∧
        (server.start outcome).2 = { server with running := true, caller := .spawning } := by
  unfold start
  split
  · exact .inl rfl
  next hrunning =>
    cases outcome with
    | noTransport => exact .inl rfl
    | listenFailed err => exact .inl rfl
    | listening => exact .inr ⟨Bool.eq_false_iff.mpr hrunning, rfl⟩

/-- `start` and `stop` are entered when neither runs. -/
theorem step_start {server next : Server} {outcome : StartOutcome}
    (hstep : server.step (.start outcome) = some next) :
    server.caller = .idle ∧ (next = server ∨
      server.running = false ∧ next = { server with running := true, caller := .spawning }) := by
  obtain ⟨hidle, hnext⟩ := Option.ite_none_right_eq_some.mp hstep
  cases hnext
  exact ⟨hidle, start_eq server outcome⟩

theorem step_stop {server next : Server} (hstep : server.step .stop = some next) :
    server.caller = .idle ∧ (next = server ∨
      server.running = true ∧
        next = { server with running := false, caller := .closingListener }) := by
  obtain ⟨hidle, hnext⟩ := Option.ite_none_right_eq_some.mp hstep
  cases hnext
  refine ⟨hidle, ?_⟩
  unfold stop
  split
  next hrunning => exact .inr ⟨hrunning, rfl⟩
  · exact .inl rfl

/-- The connections and the handlers are none of the caller's business. -/
theorem proceed_eq {server next : Server} (hproceed : server.proceed = some next) :
    next = { server with
      caller := next.caller
      acceptThread := next.acceptThread
      handlerThreads := next.handlerThreads
      closed := next.closed } := by
  unfold proceed at hproceed
  split at hproceed
  · cases hproceed
  · cases hproceed
    rfl
  · cases hproceed
    rfl
  · split at hproceed
    · cases hproceed
      rfl
    · cases hproceed
      rfl
    · cases hproceed
  · cases hproceed
    rfl
  · cases hproceed
    rfl
  · cases hproceed
    rfl
  · cases hproceed
    rfl
  · cases hproceed
    rfl
  · split at hproceed
    · cases hproceed
      rfl
    · cases hproceed

theorem test_eq {server next : Server} (htest : server.test = some next) :
    server.acceptThread = some .testing ∧
      next = { server with
        acceptThread := some (if server.running then .accepting else .exited) } := by
  unfold test at htest
  split at htest
  next hthread => exact ⟨hthread, (Option.some_inj.mp htest).symm⟩
  · cases htest

theorem accept_eq {server next : Server} {err : Option ErrorCode}
    (haccept : server.accept err = some next) :
    server.acceptThread = some .accepting ∧
      (err ≠ none ∧ next = { server with acceptThread := some .exited } ∨
        err = none ∧ next = { server with
          acceptThread := some (.checking server.accepted)
          accepted := server.accepted + 1 }) := by
  unfold accept at haccept
  split at haccept
  next hthread =>
    refine ⟨hthread, ?_⟩
    cases err with
    | some code => exact .inl ⟨Option.some_ne_none code, (Option.some_inj.mp haccept).symm⟩
    | none => exact .inr ⟨rfl, (Option.some_inj.mp haccept).symm⟩
  · cases haccept

theorem checkLimit_eq {server next : Server} (hcheck : server.checkLimit = some next) :
    ∃ conn, server.acceptThread = some (.checking conn) ∧
      (server.config.maxConnections ≤ server.activeConnections.length ∧
          next = { server with
            acceptThread := some .testing
            closed := Function.update server.closed conn true } ∨
        server.activeConnections.length < server.config.maxConnections ∧
          next = { server with acceptThread := some (.inserting conn) }) := by
  unfold checkLimit at hcheck
  split at hcheck
  next conn hthread =>
    refine ⟨conn, hthread, ?_⟩
    split at hcheck
    next hfull => exact .inl ⟨hfull, (Option.some_inj.mp hcheck).symm⟩
    next hroom => exact .inr ⟨Nat.lt_of_not_le hroom, (Option.some_inj.mp hcheck).symm⟩
  · cases hcheck

theorem insert_eq {server next : Server} (hinsert : server.insert = some next) :
    ∃ conn, server.acceptThread = some (.inserting conn) ∧
      next = { server with
        acceptThread := some .testing
        activeConnections := server.activeConnections ++ [conn]
        handlers := server.handlers ++ [⟨conn, .serving⟩]
        handlerThreads := server.handlerThreads ++ [server.handlers.length] } := by
  unfold insert at hinsert
  split at hinsert
  next conn hthread => exact ⟨conn, hthread, (Option.some_inj.mp hinsert).symm⟩
  · cases hinsert

theorem leave_eq {server next : Server} {h : Nat} (hleave : server.leave h = some next) :
    ∃ framed, server.handlers[h]? = some ⟨framed, .serving⟩ ∧
      next = { server with handlers := server.handlers.set h ⟨framed, .leaving⟩ } := by
  unfold leave at hleave
  split at hleave
  next framed hhandler => exact ⟨framed, hhandler, (Option.some_inj.mp hleave).symm⟩
  · cases hleave

theorem removeConnection_eq {server next : Server} {h : Nat}
    (hremove : server.removeConnection h = some next) :
    ∃ framed, server.handlers[h]? = some ⟨framed, .leaving⟩ ∧
      next = { server with
        handlers := server.handlers.set h ⟨framed, .finished⟩
        activeConnections := server.activeConnections.erase framed } := by
  unfold removeConnection at hremove
  split at hremove
  next framed hhandler => exact ⟨framed, hhandler, (Option.some_inj.mp hremove).symm⟩
  · cases hremove

end Server

end Ibridger.Cpp
