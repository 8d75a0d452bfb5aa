import Ibridger.Cpp.ClientState

/-! # The threads of the C++ client and its mutex

`Client` takes a stretch of code under `mutex_` as one step. Here the mutex is
part of the state: threads lock it, run the code behind the lock, and unlock it,
at the places where `client.cpp` does. A thread may use the client again from a
callback, so it has a stack of calls of the client's functions. `mutex_` is not
recursive: a thread that locks it while it holds it waits for itself.
-/

namespace Ibridger.Cpp

open Transition Wire

/-- A public function of the client. -/
inductive ClientFunction where
  | connect
  | disconnect
  | isConnected
  | call (service method : String) (payload : List UInt8)
deriving DecidableEq

/-- Where a thread stands in a public function. -/
inductive Point where
  /-- At the lock of its first line. -/
  | entering
  | entered
  /-- At an unlock: in the loop of `attempt_reconnect`, in `handle_disconnect`, or
  at the end of the function. -/
  | leaving
  /-- In `sleep_for`. -/
  | sleeping
  /-- In `cb()` of `handle_disconnect`. -/
  | notifying
  /-- At the lock behind one of these two. -/
  | relocking
  | relocked
  /-- In `rc.on_reconnect()`. -/
  | reconnected
  /-- Behind a successful `attempt_reconnect`. -/
  | restored
deriving DecidableEq

/-- The `unique_lock` or `lock_guard` of the function owns the mutex. -/
def Point.holds : Point → Bool
  | .entered | .leaving | .relocked | .reconnected | .restored => true
  | .entering | .sleeping | .notifying | .relocking => false

/-- Where a lock leads. -/
def Point.lock : Point → Option Point
  | .entering => some .entered
  | .relocking => some .relocked
  | _ => none

/-- Where the end of a sleep or of a callback leads. -/
def Point.resume : Point → Option Point
  | .sleeping => some .relocking
  | .notifying => some .relocking
  | .reconnected => some .restored
  | _ => none

/-- A call of a public function; a `call` has the call's number. -/
structure Activation where
  number : Nat
  function : ClientFunction
  point : Point
deriving DecidableEq

def Activation.holds (activation : Activation) : Bool := activation.point.holds

namespace Client

/-- The call of `on_reconnect`, where it is set. -/
def reconnected (client : Client) (i : Nat) : Client :=
  if client.config.reconnect.any ReconnectConfig.onReconnect then
    { client with callbacks := client.callbacks ++ [⟨.onReconnect, i, true⟩] }
  else client

variable (format : EnvelopeFormat)

/-- `call` behind a successful `attempt_reconnect`. -/
def proceed (client : Client) (i : Nat) (resend : Option ErrorCode) (traffic : Traffic) :
    Option Client :=
  match client.codec, resend, (client.calls i).request with
  | some c, none, _ => start format client i c traffic
  | some c, some _, some request =>
      exchange format (client.offer c traffic) i c request .resend
  | _, _, _ => none

end Client

/-- What an activation that holds the mutex does until its next unlock or callback. -/
def Activation.body (format : EnvelopeFormat) (activation : Activation) (client : Client)
    (outcome : ConnectOutcome) (traffic : Traffic) : Option (Client × Point) :=
  match activation.point, activation.function with
  | .entered, .connect => some ((client.connectLocked outcome).2, .leaving)
  | .entered, .disconnect => some (client.disconnect, .leaving)
  | .entered, .isConnected => some (client, .leaving)
  | .entered, .call service method payload =>
      (client.step format (.call activation.number service method payload traffic)).map
        fun client => (client, .leaving)
  | .relocked, .call _ _ _ =>
      match (client.calls activation.number).phase with
      | .sleeping attempt _ resend =>
          match client.connectLocked outcome with
          | (some _, client) =>
              some (client.attemptReconnect activation.number (attempt + 1) resend, .leaving)
          | (none, client) =>
              some (client.reconnected activation.number,
                if client.config.reconnect.any ReconnectConfig.onReconnect then .reconnected
                else .restored)
      | .notifying after => some (client.resume activation.number after, .leaving)
      | _ => none
  | .restored, .call _ _ _ =>
      match (client.calls activation.number).phase with
      | .sleeping _ _ resend =>
          (client.proceed format activation.number resend traffic).map
            fun client => (client, .leaving)
      | _ => none
  | _, _ => none

namespace Client

/-! ## The pieces of a step -/

/-- The callback that a call makes next, where it is in `handle_disconnect`. -/
def disconnectNotice (client : Client) (i : Nat) : List Callback :=
  match (client.calls i).phase with
  | .notifying _ => if client.config.onDisconnect then [⟨.onDisconnect, i, false⟩] else []
  | _ => []

variable {format : EnvelopeFormat}

/-- A successful attempt of `attempt_reconnect`, with `call` behind it. -/
theorem wake_eq_proceed {client connected : Client} {outcome : ConnectOutcome}
    (hconnect : client.connectLocked outcome = (none, connected)) (i attempt : Nat)
    (resend : Option ErrorCode) (traffic : Traffic) :
    wake format client i attempt resend outcome traffic =
      (connected.reconnected i).proceed format i resend traffic := by
  unfold wake
  rw [hconnect]
  rfl

theorem setPhase_notice (client : Client) (i : Nat) {phase : CallPhase}
    (hphase : ∀ after, phase ≠ .notifying after) :
    (client.setPhase i phase).disconnectNotice i = [] := by
  unfold disconnectNotice
  rw [setPhase_calls, if_pos rfl]
  split
  next after hafter => exact (hphase after hafter).elim
  next => rfl

theorem attemptReconnect_callbacks {client : Client} {i : Nat}
    (hnone : client.config.reconnect = none → client.disconnectNotice i = []) (attempt : Nat)
    (resend : Option ErrorCode) :
    (client.attemptReconnect i attempt resend).callbacks =
      client.callbacks ++ (client.attemptReconnect i attempt resend).disconnectNotice i := by
  cases hconfig : client.config.reconnect with
  | none =>
      unfold attemptReconnect
      rw [hconfig]
      dsimp only
      rw [hnone hconfig, List.append_nil]
  | some config =>
      rw [attemptReconnect_eq hconfig, setPhase_notice client i (by intro after; split <;> simp),
        List.append_nil]
      rfl

theorem resume_callbacks (client : Client) (i : Nat) (after : AfterDisconnect) :
    (client.resume i after).callbacks =
      client.callbacks ++ (client.resume i after).disconnectNotice i := by
  have hreturned : ∀ result, (client.setPhase i (.returned result)).callbacks =
      client.callbacks ++ (client.setPhase i (.returned result)).disconnectNotice i := by
    intro result
    rw [setPhase_notice client i (by simp), List.append_nil]
    rfl
  cases after with
  | send err =>
      unfold resume
      dsimp only
      split
      next hreconnect =>
        apply attemptReconnect_callbacks
        intro hnone
        simp [hnone] at hreconnect
      next => exact hreturned _
  | resend err => exact hreturned _
  | recv err => exact hreturned _

theorem handleDisconnect_notice (client : Client) (i : Nat) (after : AfterDisconnect) :
    (client.handleDisconnect i after).callbacks =
      client.callbacks ++ (client.handleDisconnect i after).disconnectNotice i := by
  unfold disconnectNotice
  rw [handleDisconnect_calls, if_pos rfl, handleDisconnect_eq]
  dsimp only
  split <;> simp

theorem Exchanged.callbacks_eq {client next : Client} {i c : Nat} {request : Envelope}
    {after : ErrorCode → AfterDisconnect}
    (hexchanged : Exchanged format client i c request after next) :
    next.callbacks = client.callbacks ++ next.disconnectNotice i := by
  cases hexchanged with
  | unsent => exact handleDisconnect_notice _ i _
  | lost => exact handleDisconnect_notice _ i _
  | answered =>
      rw [setPhase_notice _ i (by simp), List.append_nil]
      rfl

theorem connectLocked_callbacks (client : Client) (outcome : ConnectOutcome) :
    (client.connectLocked outcome).2.callbacks = client.callbacks := by
  unfold connectLocked
  split
  · rfl
  · split <;> rfl

theorem failed_callbacks {client failed : Client} {i attempt : Nat} {delay : Int} {err : ErrorCode}
    {resend : Option ErrorCode} {outcome : ConnectOutcome}
    (hphase : (client.calls i).phase = .sleeping attempt delay resend)
    (hconnect : client.connectLocked outcome = (some err, failed)) :
    (failed.attemptReconnect i (attempt + 1) resend).callbacks =
      client.callbacks ++
        (failed.attemptReconnect i (attempt + 1) resend).disconnectNotice i := by
  have hcallbacks := connectLocked_callbacks client outcome
  have hcalls := connectLocked_calls client outcome
  rw [hconnect] at hcallbacks hcalls
  dsimp only at hcallbacks hcalls
  rw [← hcallbacks]
  apply attemptReconnect_callbacks
  intro _
  rw [disconnectNotice, hcalls, hphase]

/-- No call starts to wait in `handle_disconnect` without an exchange. -/
theorem Waits.not_notifying {before behind : CallPhase} (hwaits : Waits before behind)
    (after : AfterDisconnect) : behind ≠ .notifying after := by
  cases hwaits <;> simp

theorem call_callbacks {client next : Client} {i : Nat} {service method : String}
    {payload : List UInt8} {traffic : Traffic}
    (hstep : client.step format (.call i service method payload traffic) = some next) :
    next.callbacks = client.callbacks ++ next.disconnectNotice i := by
  cases step_moves hstep with
  | entered _ _ _ _ _ hcodec hwaits =>
      rw [setPhase_notice _ i hwaits.not_notifying, List.append_nil]
      rfl
  | began _ _ _ _ _ _ _ _ hexchanged => exact hexchanged.callbacks_eq

theorem proceed_callbacks {client next : Client} {i : Nat} {resend : Option ErrorCode}
    {traffic : Traffic} (hproceed : client.proceed format i resend traffic = some next) :
    next.callbacks = client.callbacks ++ next.disconnectNotice i := by
  unfold proceed at hproceed
  split at hproceed
  · exact (exchange_exchanged hproceed).callbacks_eq
  · exact (exchange_exchanged hproceed).callbacks_eq
  · cases hproceed

end Client

structure ClientThreads where
  client : Client
  /-- The thread that holds `mutex_`. -/
  owner : Option Nat
  /-- The functions that a thread is in, the innermost first. -/
  active : Nat → List Activation
  /-- How many functions have been called. -/
  begun : Nat
  /-- The callbacks that have been called. -/
  invoked : List Callback

inductive LockEvent where
  /-- A thread calls a function, from a callback or from outside the client. -/
  | begin (t : Nat) (function : ClientFunction)
  | lock (t : Nat)
  /-- A thread runs the code behind a lock, or behind `attempt_reconnect`. -/
  | run (t : Nat) (outcome : ConnectOutcome) (traffic : Traffic)
  | unlock (t : Nat)
  /-- The sleep or the callback that a thread is in is over. -/
  | resume (t : Nat)
deriving DecidableEq

namespace ClientThreads

def init (config : ClientConfig) : ClientThreads where
  client := .init config
  owner := none
  active := fun _ => []
  begun := 0
  invoked := []

def setActive (threads : ClientThreads) (t : Nat) (stack : List Activation) : ClientThreads :=
  { threads with active := Function.update threads.active t stack }

/-- Record the call of a callback, and whether its thread holds the mutex. -/
def invoke (threads : ClientThreads) (t : Nat) (kind : CallbackKind) (i : Nat) : ClientThreads :=
  { threads with invoked := threads.invoked ++ [⟨kind, i, threads.owner = some t⟩] }

/-- A thread runs the user's code: outside the client, or in a callback. -/
def inUserCode (threads : ClientThreads) (t : Nat) : Bool :=
  match threads.active t with
  | [] => true
  | activation :: _ =>
      activation.point = .reconnected ||
        activation.point = .notifying && threads.client.config.onDisconnect

/-- An unlock, with what follows it up to the next lock. -/
def release (threads : ClientThreads) (t : Nat) (activation : Activation)
    (rest : List Activation) : ClientThreads :=
  let free := { threads with owner := none }
  match activation.function, (threads.client.calls activation.number).phase with
  | .call _ _ _, .sleeping _ _ _ =>
      free.setActive t ({ activation with point := .sleeping } :: rest)
  | .call _ _ _, .notifying _ =>
      let notifying := free.setActive t ({ activation with point := .notifying } :: rest)
      if threads.client.config.onDisconnect then
        notifying.invoke t .onDisconnect activation.number
      else notifying
  | _, _ => free.setActive t rest

/-- Behind the code that an activation has run, with the callback that it calls. -/
def ran (threads : ClientThreads) (t : Nat) (activation : Activation) (rest : List Activation)
    (client : Client) (point : Point) : ClientThreads :=
  let next :=
    { threads.setActive t ({ activation with point := point } :: rest) with client := client }
  if point = .reconnected then next.invoke t .onReconnect activation.number else next

variable (format : EnvelopeFormat)

def step (threads : ClientThreads) : LockEvent → Option ClientThreads
  | .begin t function =>
      if threads.inUserCode t then
        some { threads.setActive t (⟨threads.begun, function, .entering⟩ :: threads.active t) with
          begun := threads.begun + 1 }
      else none
  | .lock t =>
      match threads.active t, threads.owner with
      | activation :: rest, none =>
          activation.point.lock.map fun point =>
            { threads.setActive t ({ activation with point := point } :: rest) with
              owner := some t }
      | _, _ => none
  | .run t outcome traffic =>
      match threads.active t with
      | [] => none
      | activation :: rest =>
          (activation.body format threads.client outcome traffic).map fun (client, point) =>
            threads.ran t activation rest client point
  | .unlock t =>
      match threads.active t with
      | [] => none
      | activation :: rest =>
          if activation.point = .leaving then some (threads.release t activation rest) else none
  | .resume t =>
      match threads.active t with
      | [] => none
      | activation :: rest =>
          activation.point.resume.map fun point =>
            threads.setActive t ({ activation with point := point } :: rest)

variable {format}

/-! ## What a step can do -/

variable (format) in
/-- What a step does to the thread that takes it. -/
inductive Moves (threads : ClientThreads) : LockEvent → ClientThreads → Prop where
  | began (t : Nat) (function : ClientFunction) (huser : threads.inUserCode t = true) :
      Moves threads (.begin t function)
        { threads.setActive t (⟨threads.begun, function, .entering⟩ :: threads.active t) with
          begun := threads.begun + 1 }
  | locked {t : Nat} {activation : Activation} {rest : List Activation} {point : Point}
      (hactive : threads.active t = activation :: rest) (howner : threads.owner = none)
      (hpoint : activation.point.lock = some point) :
      Moves threads (.lock t)
        { threads.setActive t ({ activation with point := point } :: rest) with owner := some t }
  | ran {t : Nat} {outcome : ConnectOutcome} {traffic : Traffic} {activation : Activation}
      {rest : List Activation} {client : Client} {point : Point}
      (hactive : threads.active t = activation :: rest)
      (hbody : activation.body format threads.client outcome traffic = some (client, point)) :
      Moves threads (.run t outcome traffic) (threads.ran t activation rest client point)
  | released {t : Nat} {activation : Activation} {rest : List Activation}
      (hactive : threads.active t = activation :: rest) (hpoint : activation.point = .leaving) :
      Moves threads (.unlock t) (threads.release t activation rest)
  | resumed {t : Nat} {activation : Activation} {rest : List Activation} {point : Point}
      (hactive : threads.active t = activation :: rest)
      (hpoint : activation.point.resume = some point) :
      Moves threads (.resume t)
        (threads.setActive t ({ activation with point := point } :: rest))

theorem step_moves {threads next : ClientThreads} {event : LockEvent}
    (hstep : threads.step format event = some next) : Moves format threads event next := by
  cases event with
  | begin t function =>
      simp only [step] at hstep
      split at hstep
      next huser =>
        cases hstep
        exact .began t function huser
      next => cases hstep
  | lock t =>
      simp only [step] at hstep
      split at hstep
      next activation rest hactive howner =>
        obtain ⟨point, hpoint, rfl⟩ := Option.map_eq_some_iff.mp hstep
        exact .locked hactive howner hpoint
      next => cases hstep
  | run t outcome traffic =>
      simp only [step] at hstep
      split at hstep
      next => cases hstep
      next activation rest hactive =>
        obtain ⟨⟨client, point⟩, hbody, rfl⟩ := Option.map_eq_some_iff.mp hstep
        exact .ran hactive hbody
  | unlock t =>
      simp only [step] at hstep
      split at hstep
      next => cases hstep
      next activation rest hactive =>
        split at hstep
        next hpoint =>
          cases hstep
          exact .released hactive hpoint
        next => cases hstep
  | resume t =>
      simp only [step] at hstep
      split at hstep
      next => cases hstep
      next activation rest hactive =>
        obtain ⟨point, hpoint, rfl⟩ := Option.map_eq_some_iff.mp hstep
        exact .resumed hactive hpoint

/-! ## What the code behind a lock does -/

/-- The callback that an activation calls behind its unlock. -/
def notice (activation : Activation) (client : Client) : List Callback :=
  match activation.function with
  | .call _ _ _ => client.disconnectNotice activation.number
  | _ => []

variable (format) in
/-- The code behind a lock is a step of the client, or no change of it, or the first or
the second half of a step that reconnects. -/
inductive Ran (activation : Activation) (client : Client) (outcome : ConnectOutcome)
    (traffic : Traffic) : Client → Point → Prop where
  | stepped (event : ClientEvent) {next : Client}
      (hpoint : activation.point = .entered ∨ activation.point = .relocked)
      (hstep : client.step format event = some next)
      (hcallbacks : next.callbacks = client.callbacks ++ notice activation next) :
      Ran activation client outcome traffic next .leaving
  | asked (hpoint : activation.point = .entered) (hnotice : notice activation client = []) :
      Ran activation client outcome traffic client .leaving
  | reconnected {service method : String} {payload : List UInt8} {attempt : Nat} {delay : Int}
      {resend : Option ErrorCode} {connected : Client} (hpoint : activation.point = .relocked)
      (hcall : activation.function = .call service method payload)
      (hphase : (client.calls activation.number).phase = .sleeping attempt delay resend)
      (hconnect : client.connectLocked outcome = (none, connected)) :
      Ran activation client outcome traffic (connected.reconnected activation.number)
        (if connected.config.reconnect.any ReconnectConfig.onReconnect then .reconnected
        else .restored)
  | proceeded {attempt : Nat} {delay : Int} {resend : Option ErrorCode} {next : Client}
      (hpoint : activation.point = .restored)
      (hphase : (client.calls activation.number).phase = .sleeping attempt delay resend)
      (hproceed : client.proceed format activation.number resend traffic = some next)
      (hcallbacks : next.callbacks = client.callbacks ++ notice activation next) :
      Ran activation client outcome traffic next .leaving

theorem body_ran {activation : Activation} {client next : Client} {outcome : ConnectOutcome}
    {traffic : Traffic} {point : Point}
    (hbody : activation.body format client outcome traffic = some (next, point)) :
    Ran format activation client outcome traffic next point := by
  unfold Activation.body at hbody
  split at hbody
  case h_1 hpoint hfunction =>
    cases hbody
    apply Ran.stepped (.connect outcome) (.inl hpoint) rfl
    rw [Client.connectLocked_callbacks, notice, hfunction, List.append_nil]
  case h_2 hpoint hfunction =>
    cases hbody
    apply Ran.stepped .disconnect (.inl hpoint) rfl
    rw [Client.disconnect_eq, notice, hfunction, List.append_nil]
  case h_3 hpoint hfunction =>
    cases hbody
    apply Ran.asked hpoint
    rw [notice, hfunction]
  case h_4 service method payload hpoint hfunction =>
    obtain ⟨stepped, hstep, heq⟩ := Option.map_eq_some_iff.mp hbody
    cases heq
    apply Ran.stepped _ (.inl hpoint) hstep
    rw [notice, hfunction]
    exact Client.call_callbacks hstep
  case h_5 service method payload hpoint hfunction =>
    split at hbody
    next attempt delay resend hphase =>
      split at hbody
      next err failed hconnect =>
        cases hbody
        apply Ran.stepped (.wake activation.number outcome traffic) (.inr hpoint)
        · dsimp only [Client.step]
          rw [hphase]
          dsimp only [Client.wake]
          rw [hconnect]
        · rw [notice, hfunction]
          exact Client.failed_callbacks hphase hconnect
      next connected hconnect =>
        cases hbody
        exact .reconnected hpoint hfunction hphase hconnect
    next after hphase =>
      cases hbody
      apply Ran.stepped (.notified activation.number) (.inr hpoint)
      · dsimp only [Client.step]
        rw [hphase]
      · rw [notice, hfunction]
        exact Client.resume_callbacks client activation.number after
    next => cases hbody
  case h_6 service method payload hpoint hfunction =>
    split at hbody
    next attempt delay resend hphase =>
      obtain ⟨proceeded, hproceed, heq⟩ := Option.map_eq_some_iff.mp hbody
      cases heq
      apply Ran.proceeded hpoint hphase hproceed
      rw [notice, hfunction]
      exact Client.proceed_callbacks hproceed
    next => cases hbody
  case h_7 => cases hbody

/-- Only an activation that holds the mutex runs, and it holds it then. -/
theorem body_holds {activation : Activation} {client next : Client} {outcome : ConnectOutcome}
    {traffic : Traffic} {point : Point}
    (hbody : activation.body format client outcome traffic = some (next, point)) :
    activation.holds = true ∧ point.holds = true := by
  unfold Activation.holds
  cases body_ran hbody with
  | stepped _ hpoint =>
      rcases hpoint with hpoint | hpoint
      all_goals
        rw [hpoint]
        exact ⟨rfl, rfl⟩
  | asked hpoint =>
      rw [hpoint]
      exact ⟨rfl, rfl⟩
  | reconnected hpoint =>
      rw [hpoint]
      refine ⟨rfl, ?_⟩
      split <;> rfl
  | proceeded hpoint =>
      rw [hpoint]
      exact ⟨rfl, rfl⟩

/-! ## Who holds the mutex -/

theorem lock_holds {point behind : Point} (hlock : point.lock = some behind) :
    point.holds = false ∧ behind.holds = true := by
  cases point <;> cases hlock <;> exact ⟨rfl, rfl⟩

theorem resume_holds {point behind : Point} (hresume : point.resume = some behind) :
    behind.holds = point.holds := by
  cases point <;> cases hresume <;> rfl

@[simp] theorem holds_at (activation : Activation) (point : Point) :
    ({ activation with point := point } : Activation).holds = point.holds := rfl

section RanFrame

variable (threads : ClientThreads) (t : Nat) (activation : Activation) (rest : List Activation)
  (client : Client) (point : Point)

theorem ran_client : (threads.ran t activation rest client point).client = client := by
  unfold ran
  dsimp only
  split
  · rfl
  · rfl

theorem ran_owner : (threads.ran t activation rest client point).owner = threads.owner := by
  unfold ran
  dsimp only
  split
  · rfl
  · rfl

theorem ran_active : (threads.ran t activation rest client point).active =
    Function.update threads.active t ({ activation with point := point } :: rest) := by
  unfold ran
  dsimp only
  split
  · rfl
  · rfl

end RanFrame

/-- What an unlock leaves of the stack: the activation waits without the mutex, or it
has returned. -/
inductive Left (activation : Activation) (rest : List Activation) : List Activation → Prop where
  | returned : Left activation rest rest
  | waits {point : Point} (hpoint : point = .sleeping ∨ point = .notifying) :
      Left activation rest ({ activation with point := point } :: rest)

/-- What an unlock does. -/
structure Released (threads : ClientThreads) (t : Nat) (activation : Activation)
    (rest : List Activation) (next : ClientThreads) : Prop where
  client_eq : next.client = threads.client
  owner_eq : next.owner = none
  active_eq : ∃ left, Left activation rest left ∧
    next.active = Function.update threads.active t left
  invoked_eq : next.invoked = threads.invoked ++ notice activation threads.client

theorem release_released (threads : ClientThreads) (t : Nat) (activation : Activation)
    (rest : List Activation) :
    Released threads t activation rest (threads.release t activation rest) := by
  unfold release
  dsimp only
  split
  next hcall hphase =>
    exact ⟨rfl, rfl, ⟨_, .waits (.inl rfl), rfl⟩, by
      simp [notice, Client.disconnectNotice, hcall, hphase, setActive]⟩
  next hcall hphase =>
    split
    next hset =>
      exact ⟨rfl, rfl, ⟨_, .waits (.inr rfl), rfl⟩, by
        simp [notice, Client.disconnectNotice, hcall, hphase, hset, invoke, setActive]⟩
    next hunset =>
      exact ⟨rfl, rfl, ⟨_, .waits (.inr rfl), rfl⟩, by
        simp [notice, Client.disconnectNotice, hcall, hphase, hunset, setActive]⟩
  next _ hnotifying =>
    refine ⟨rfl, rfl, ⟨_, .returned, rfl⟩, ?_⟩
    have hnone : notice activation threads.client = [] := by
      unfold notice Client.disconnectNotice
      split
      next hcall =>
        split
        next hphase => exact (hnotifying _ _ _ _ hcall hphase).elim
        next => rfl
      next => rfl
    rw [hnone, List.append_nil]
    rfl

/-- The threads hold what the mutex says they hold: its owner in one activation, the
others in none. -/
def Exclusive (threads : ClientThreads) : Prop :=
  ∀ t, (threads.active t).countP Activation.holds = if threads.owner = some t then 1 else 0

theorem init_exclusive (config : ClientConfig) : Exclusive (init config) := fun _ => rfl

namespace Exclusive

variable {threads next : ClientThreads} {t : Nat} {activation : Activation}
  {rest : List Activation}

/-- An activation that holds the mutex is its owner's, and the only one. -/
theorem of_holds (hexclusive : Exclusive threads) (hactive : threads.active t = activation :: rest)
    (hholds : activation.holds = true) :
    threads.owner = some t ∧ rest.countP Activation.holds = 0 := by
  have hcount := hexclusive t
  rw [hactive, List.countP_cons_of_pos hholds] at hcount
  split at hcount
  next howner => exact ⟨howner, by omega⟩
  next => omega

/-- All that hold the mutex are one activation. -/
theorem unique (hexclusive : Exclusive threads) (hactive : threads.active t = activation :: rest)
    (hholds : activation.holds = true) {u : Nat} {other : Activation}
    (hother : other ∈ threads.active u) (hotherHolds : other.holds = true) :
    u = t ∧ other = activation := by
  obtain ⟨howner, hrest⟩ := hexclusive.of_holds hactive hholds
  have hcount := hexclusive u
  have hpos := List.countP_pos_iff.mpr ⟨other, hother, hotherHolds⟩
  split at hcount
  next hu =>
    cases howner.symm.trans hu
    rw [hactive] at hother
    rcases List.mem_cons.mp hother with heq | hmem
    · exact ⟨rfl, heq⟩
    · exact absurd hotherHolds (List.countP_eq_zero.mp hrest other hmem)
  next => omega

/-- While nobody owns the mutex, no activation holds it. -/
theorem of_free (hexclusive : Exclusive threads) (howner : threads.owner = none) {u : Nat}
    {other : Activation} (hother : other ∈ threads.active u) : other.holds = false := by
  have hcount := hexclusive u
  rw [howner, if_neg (by simp)] at hcount
  simpa using List.countP_eq_zero.mp hcount other hother

/-- The stack of one thread and the owner change together. -/
theorem update (hexclusive : Exclusive threads) {stack : List Activation}
    (hactive : next.active = Function.update threads.active t stack)
    (hcount : stack.countP Activation.holds = if next.owner = some t then 1 else 0)
    (hothers : ∀ u, u ≠ t → (next.owner = some u ↔ threads.owner = some u)) :
    Exclusive next := by
  intro u
  rw [hactive]
  by_cases hu : u = t
  · subst hu
    rwa [Function.update_self]
  · rw [Function.update_of_ne hu, hexclusive u]
    simp only [hothers u hu]

theorem step (hexclusive : Exclusive threads) {event : LockEvent}
    (hstep : threads.step format event = some next) : Exclusive next := by
  cases step_moves hstep with
  | began t function huser =>
      apply hexclusive.update rfl
      · rw [List.countP_cons_of_neg (by simp [Activation.holds, Point.holds])]
        exact hexclusive t
      · exact fun _ _ => Iff.rfl
  | @locked t activation rest point hactive howner hpoint =>
      obtain ⟨hfree, hholds⟩ := lock_holds hpoint
      have hcount := hexclusive t
      rw [hactive, howner, List.countP_cons_of_neg (by simp [Activation.holds, hfree])] at hcount
      apply hexclusive.update rfl
      · rw [List.countP_cons_of_pos (by rwa [holds_at]), if_pos rfl, hcount]
        rfl
      · intro u hu
        simp [howner, Ne.symm hu]
  | @ran t outcome traffic activation rest client point hactive hbody =>
      obtain ⟨hheld, hholds⟩ := body_holds hbody
      obtain ⟨howner, hrest⟩ := hexclusive.of_holds hactive hheld
      apply hexclusive.update (ran_active ..)
      · rw [List.countP_cons_of_pos (by rwa [holds_at]), ran_owner, howner, if_pos rfl, hrest]
      · intro u _
        rw [ran_owner]
  | @released t activation rest hactive hpoint =>
      have hheld : activation.holds = true := by simp [Activation.holds, hpoint, Point.holds]
      obtain ⟨howner, hrest⟩ := hexclusive.of_holds hactive hheld
      obtain ⟨-, hfree, ⟨left, hleft, hnext⟩, -⟩ := release_released threads t activation rest
      apply hexclusive.update hnext
      · rw [hfree, if_neg (by simp)]
        cases hleft with
        | returned => exact hrest
        | waits hwaits =>
            rw [List.countP_cons_of_neg (by
              rcases hwaits with rfl | rfl <;> simp [Activation.holds, Point.holds])]
            exact hrest
      · intro u hu
        simp [hfree, howner, Ne.symm hu]
  | @resumed t activation rest point hactive hpoint =>
      have hcount := hexclusive t
      have hsame : ({ activation with point := point } : Activation).holds = activation.holds :=
        resume_holds hpoint
      rw [hactive, List.countP_cons] at hcount
      apply hexclusive.update rfl
      · simp only [List.countP_cons, hsame]
        exact hcount
      · exact fun _ _ => Iff.rfl

end Exclusive

theorem run_exclusive {config : ClientConfig} {threads : ClientThreads}
    (hreach : Reachable (step format) (init config) threads) : Exclusive threads :=
  hreach.invariant Exclusive (fun _ _ _ hexclusive hstep => hexclusive.step hstep)
    (init_exclusive config)

end ClientThreads

end Ibridger.Cpp
