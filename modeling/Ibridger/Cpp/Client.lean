import Ibridger.Cpp.Dispatcher
import Ibridger.Cpp.FrameStream
import Ibridger.Foundation.Runs
import Mathlib.Logic.Function.Basic

/-! # The C++ client

`Client` of `client.cpp`, used by any number of threads. A step is a stretch of
code that one thread runs while it holds `mutex_`: between two steps the mutex is
free. A `call` gives the mutex up while it sleeps in `attempt_reconnect` and while
`handle_disconnect` runs the user's callback; `connect` and `disconnect` are one
step each, and a callback that calls them takes such steps.
-/

namespace Ibridger.Cpp

open Wire

structure ReconnectConfig where
  maxAttempts : Int := -1
  /-- In milliseconds. -/
  baseDelay : Int := 200
  maxDelay : Int := 10000
  /-- Whether `on_reconnect` is set. -/
  onReconnect : Bool := false
deriving DecidableEq

/-- How many attempts `attempt_reconnect` makes; `int` bounds an unlimited number. -/
def ReconnectConfig.limit (config : ReconnectConfig) : Nat :=
  if config.maxAttempts < 0 then 2147483647 else config.maxAttempts.toNat

/-- The sleep before an attempt. The product is a `long long`. -/
def ReconnectConfig.delay (config : ReconnectConfig) (attempt : Nat) : Int :=
  min ((config.baseDelay * 2 ^ min attempt 30).bmod (2 ^ 64)) config.maxDelay

structure ClientConfig where
  /-- Whether `on_disconnect` is set. -/
  onDisconnect : Bool := false
  reconnect : Option ReconnectConfig := none
deriving DecidableEq

/-- One `codec_->send`: the call it is made for, the connection, the request, the
bytes that went out and the error returned. -/
structure Write where
  call : Nat
  conn : Nat
  request : Envelope
  written : List UInt8
  error : Option ErrorCode
deriving DecidableEq

/-- Why `call` runs `handle_disconnect`: its first send, its second send or its
receive failed. -/
inductive AfterDisconnect where
  | send (err : ErrorCode)
  | resend (err : ErrorCode)
  | recv (err : ErrorCode)
deriving DecidableEq

/-- Where a call has given up the mutex, or what it has returned. -/
inductive CallPhase where
  | idle
  /-- Before an attempt of `attempt_reconnect`; `resend` is the error of the
  first send where there was one. -/
  | sleeping (attempt : Nat) (delay : Int) (resend : Option ErrorCode)
  | notifying (after : AfterDisconnect)
  | returned (result : Except ErrorCode Envelope)

structure Call where
  service : String
  method : String
  payload : List UInt8
  phase : CallPhase
  request : Option Envelope
  /-- Whether the call got as far as `codec_->recv`. -/
  reachedRecv : Bool

def Call.idle : Call where
  service := ""
  method := ""
  payload := []
  phase := .idle
  request := none
  reachedRecv := false

/-- A connection that the client has opened. -/
structure Link where
  conn : UnixSocketConnection
  /-- The bytes that have come from the peer. -/
  arrived : List UInt8

inductive CallbackKind where
  | onDisconnect
  | onReconnect
deriving DecidableEq

/-- A call of a user callback, and whether its thread holds `mutex_`. -/
structure Callback where
  kind : CallbackKind
  call : Nat
  lockHeld : Bool
deriving DecidableEq

structure Client where
  config : ClientConfig
  /-- Whether `transport_` is set. -/
  transport : Bool
  framed : Option Nat
  codec : Option Nat
  nextRequestId : UInt64
  /-- How many request ids have been taken. -/
  taken : Nat
  /-- How many connections have been opened. -/
  opened : Nat
  links : Nat → Link
  calls : Nat → Call
  writes : List Write
  callbacks : List Callback

/-- What `transport_->connect` does, or that there is no transport to be had. -/
inductive ConnectOutcome where
  | noTransport
  | failed (err : ErrorCode)
  | connected
deriving DecidableEq

/-- The answers to the system calls that a step makes on its connection. -/
structure Traffic where
  sends : List SendOutcome := []
  reads : List ReadOutcome := []
deriving DecidableEq

inductive ClientEvent where
  | connect (outcome : ConnectOutcome)
  | disconnect
  | call (i : Nat) (service method : String) (payload : List UInt8) (traffic : Traffic)
  /-- The sleep of a call is over. -/
  | wake (i : Nat) (outcome : ConnectOutcome) (traffic : Traffic)
  /-- The callback of a call has returned. -/
  | notified (i : Nat)
deriving DecidableEq

namespace Client

def init (config : ClientConfig) : Client where
  config := config
  transport := false
  framed := none
  codec := none
  nextRequestId := 1
  taken := 0
  opened := 0
  links := fun c => ⟨.ofFd c c, []⟩
  calls := fun _ => .idle
  writes := []
  callbacks := []

def setLink (client : Client) (c : Nat) (link : Link) : Client :=
  { client with links := Function.update client.links c link }

def setCall (client : Client) (i : Nat) (call : Call) : Client :=
  { client with calls := Function.update client.calls i call }

def setPhase (client : Client) (i : Nat) (phase : CallPhase) : Client :=
  client.setCall i { client.calls i with phase := phase }

def isConnected (client : Client) : Bool :=
  client.framed.any fun c => (client.links c).conn.connected

def connectLocked (client : Client) (outcome : ConnectOutcome) : Option ErrorCode × Client :=
  if client.codec.isSome then (some (.ibridger .alreadyConnected), client)
  else
    match outcome with
    | .noTransport => (some (.ibridger .internal), { client with transport := false })
    | .failed err => (some err, { client with transport := false })
    | .connected =>
        (none, { client with
          transport := true
          framed := some client.opened
          codec := some client.opened
          opened := client.opened + 1 })

/-- `framed_->close()`, where `framed_` is set. -/
def closeFramed (client : Client) : Client :=
  match client.framed with
  | none => client
  | some c =>
      client.setLink c { client.links c with conn := (client.links c).conn.close }

def disconnect (client : Client) : Client :=
  { client.closeFramed with framed := none, codec := none, transport := false }

/-- `handle_disconnect` up to the call of `on_disconnect`. -/
def handleDisconnect (client : Client) (i : Nat) (after : AfterDisconnect) : Client :=
  let closed := { client.closeFramed with framed := none, codec := none, transport := false }
  { closed.setPhase i (.notifying after) with
    callbacks :=
      if client.config.onDisconnect then client.callbacks ++ [⟨.onDisconnect, i, false⟩]
      else client.callbacks }

/-- The head of the loop of `attempt_reconnect`, up to its sleep or its end. -/
def attemptReconnect (client : Client) (i attempt : Nat) (resend : Option ErrorCode) : Client :=
  match client.config.reconnect with
  | none => client
  | some config =>
      if attempt < config.limit then
        client.setPhase i (.sleeping attempt (config.delay attempt) resend)
      else
        client.setPhase i (.returned (.error (resend.getD (.ibridger .notConnected))))

variable (format : EnvelopeFormat)

/-- `codec_->send(request)` on a connection. -/
def transmit (client : Client) (i c : Nat) (request : Envelope) :
    Option (Option ErrorCode × Client) :=
  match EnvelopeCodec.send format (client.links c).conn request with
  | none => none
  | some (error, conn) =>
      let written := conn.wire.drop (client.links c).conn.wire.length
      some (error,
        { client.setLink c { client.links c with conn := conn } with
          writes := client.writes ++ [⟨i, c, request, written, error⟩] })

/-- `codec_->recv()` on a connection, and what `call` makes of its result. -/
def receive (client : Client) (i c : Nat) (request : Envelope) : Option Client :=
  match EnvelopeCodec.recv format (client.links c).conn with
  | none => none
  | some (result, conn) =>
      let reached := (client.setLink c { client.links c with conn := conn }).setCall i
        { client.calls i with reachedRecv := true }
      match result with
      | .error err => some (reached.handleDisconnect i (.recv err))
      | .ok response =>
          if response.requestId = request.requestId then
            some (reached.setPhase i (.returned (.ok response)))
          else some (reached.setPhase i (.returned (.error (.ibridger .protocolError))))

/-- Send a request and receive its response; `after` says what a failed send is. -/
def exchange (client : Client) (i c : Nat) (request : Envelope)
    (after : ErrorCode → AfterDisconnect) : Option Client :=
  match transmit format client i c request with
  | none => none
  | some (some err, client) => some (client.handleDisconnect i (after err))
  | some (none, client) => client.receive format i c request

/-- What comes for a step on its connection. -/
def offer (client : Client) (c : Nat) (traffic : Traffic) : Client :=
  client.setLink c
    { client.links c with
      conn := { (client.links c).conn with
        sends := (client.links c).conn.sends ++ traffic.sends
        reads := (client.links c).conn.reads ++ traffic.reads }
      arrived := (client.links c).arrived ++ bytesOf traffic.reads }

/-- The request that a call sends. -/
def requestOf (call : Call) (id : UInt64) : Envelope :=
  { Envelope.empty with
    type := .request
    requestId := id
    serviceName := call.service
    methodName := call.method
    payload := call.payload }

/-- `call` from the taking of a request id on. -/
def start (client : Client) (i c : Nat) (traffic : Traffic) : Option Client :=
  let request := requestOf (client.calls i) client.nextRequestId
  exchange format
    ({ client with
        nextRequestId := client.nextRequestId + 1, taken := client.taken + 1 }.setCall i
      { client.calls i with request := some request } |>.offer c traffic) i c request .send

/-- `call` up to the first point where it gives up the mutex. -/
def enter (client : Client) (i : Nat) (traffic : Traffic) : Option Client :=
  match client.codec, client.config.reconnect with
  | some c, _ => start format client i c traffic
  | none, some _ => some (client.attemptReconnect i 0 none)
  | none, none => some (client.setPhase i (.returned (.error (.ibridger .notConnected))))

/-- `attempt_reconnect` after its sleep, and `call` behind it. -/
def wake (client : Client) (i attempt : Nat) (resend : Option ErrorCode)
    (outcome : ConnectOutcome) (traffic : Traffic) : Option Client :=
  match client.connectLocked outcome with
  | (some _, client) => some (client.attemptReconnect i (attempt + 1) resend)
  | (none, client) =>
      let restored :=
        if client.config.reconnect.any ReconnectConfig.onReconnect then
          { client with callbacks := client.callbacks ++ [⟨.onReconnect, i, true⟩] }
        else client
      match restored.codec, resend, (restored.calls i).request with
      | some c, none, _ => start format restored i c traffic
      | some c, some _, some request =>
          exchange format (restored.offer c traffic) i c request .resend
      | _, _, _ => none

/-- `call` behind `handle_disconnect`. -/
def resume (client : Client) (i : Nat) : AfterDisconnect → Client
  | .send err =>
      if client.config.reconnect.isSome then client.attemptReconnect i 0 (some err)
      else client.setPhase i (.returned (.error err))
  | .resend err => client.setPhase i (.returned (.error err))
  | .recv err => client.setPhase i (.returned (.error err))

def step (client : Client) : ClientEvent → Option Client
  | .connect outcome => some (client.connectLocked outcome).2
  | .disconnect => some client.disconnect
  | .call i service method payload traffic =>
      match (client.calls i).phase with
      | .idle =>
          enter format (client.setCall i
            { client.calls i with service := service, method := method, payload := payload })
            i traffic
      | _ => none
  | .wake i outcome traffic =>
      match (client.calls i).phase with
      | .sleeping attempt _ resend => wake format client i attempt resend outcome traffic
      | _ => none
  | .notified i =>
      match (client.calls i).phase with
      | .notifying after => some (client.resume i after)
      | _ => none

end Client

end Ibridger.Cpp
