import Ibridger.Foundation.Rounding
import Ibridger.Foundation.Runs
import Ibridger.Js.Framing
import Ibridger.Wire.Envelope
import Mathlib.Logic.Function.Basic

/-! # The JS client

`IBridgerClient` of `client.ts` with the codec and the connections it opens.
Calls of the user, events of the sockets, timers and continued promises come in
any order; a step is the code that one of them runs without interruption.
-/

namespace Ibridger.Js

open Transition Wire

def DEFAULT_TIMEOUT_MS : Nat := 30000

/-- The options with their defaults. -/
structure ReconnectOptions where
  /-- `none` is `Infinity`. -/
  maxAttempts : Option Nat := none
  baseDelayMs : Nat := 200
  maxDelayMs : Nat := 10000
  /-- Whether `onReconnect` is set. -/
  onReconnect : Bool := false
deriving DecidableEq

def ReconnectOptions.allows (options : ReconnectOptions) (attempt : Nat) : Bool :=
  options.maxAttempts.all fun limit => attempt < limit

def ReconnectOptions.delay (options : ReconnectOptions) (attempt : Nat) : Nat :=
  min (options.baseDelayMs * 2 ^ attempt) options.maxDelayMs

structure ClientConfig where
  defaultTimeout : Option Nat := none
  reconnect : Option ReconnectOptions := none
deriving DecidableEq

structure CallOptions where
  timeout : Option Nat := none
  metadata : Option (List (String × String)) := none
deriving DecidableEq

/-- What a call is rejected with. -/
inductive CallError where
  /-- A plain `Error`. -/
  | error (message : String)
  | transport (error : TransportError)
  | rpc (status : StatusCode) (message : String)
  | timeout (message : String)
  /-- A method of `null` is called. -/
  | typeError
  /-- `Envelope.encode` has thrown. -/
  | unserializable
  /-- `reqType.encode` or `respType.decode` has thrown. -/
  | protobuf (message : String)
deriving DecidableEq

def notConnected : CallError := .error "Not connected"

def alreadyInFlight (method : String) : CallError :=
  .error ("A call is already in flight. method: " ++ method)

def attemptsExhausted : CallError :=
  .error "Connection lost and reconnect attempts exhausted"

/-- A whole number below 10^21 in a template literal: the digits that tell it from the
other doubles, filled up with zeros. -/
def numberText (n : Nat) : String :=
  toString (Rounding.shortest 53 n 20)

def timedOut (timeoutMs : Nat) : CallError :=
  .timeout ("RPC call timed out after " ++ numberText timeoutMs ++ " ms")

/-- `n++` on a number: from 2^53 on the sum is rounded back to `n`. -/
def increment (n : Nat) : Nat :=
  if n < 2 ^ 53 then n + 1 else n

/-- `Number(long)`: the nearest double, ties to even. -/
def numberOfLong (long : UInt64) : Nat :=
  let value := long.toNat
  if value ≤ 2 ^ 53 then value
  else
    let unit := 2 ^ (value.log2 - 52)
    let quotient := value / unit
    let twice := 2 * (value % unit)
    if twice < unit ∨ (twice = unit ∧ quotient % 2 = 0) then quotient * unit
    else (quotient + 1) * unit

/-- The number of the enum value. -/
def statusNumber : StatusCode → Int
  | .ok => 0
  | .unknownError => 1
  | .notFound => 2
  | .invalidArgument => 3
  | .internal => 4
  | .timeout => 5
  | .other value => value

/-- What a call awaits, or how it has settled. -/
inductive CallPhase (Value : Type) where
  | idle
  /-- `waitForReconnect` polls. -/
  | waiting
  /-- `waitForReconnect` has resolved. -/
  | starting
  | sending (conn id timeoutMs : Nat) (send : FrameSend)
  | receiving (read id timeoutMs : Nat)
  /-- What it awaits inside `try` was rejected. -/
  | failing (error : CallError)
  | settled (result : Except CallError Value)

structure Call (Value : Type) where
  service : String
  method : String
  /-- What `reqType.encode` gives, or the message of what it throws. -/
  encoded : Except String (List UInt8)
  options : CallOptions
  phase : CallPhase Value
  /-- The envelope that the call has created. -/
  envelope : Option Envelope
  /-- The connection whose codec is to send it. -/
  conn : Option Nat

def Call.idle {Value : Type} : Call Value where
  service := ""
  method := ""
  encoded := .ok []
  options := {}
  phase := .idle
  envelope := none
  conn := none

/-- A `recvFrame` of the codec, the call it was made for and its connection. -/
structure Read where
  call : Nat
  conn : Nat
  frame : FrameRead
deriving DecidableEq

inductive ConnectOutcome where
  | pending
  | connected
  | failed (message : String)
deriving DecidableEq

/-- A call of `connect`, by the user or by a reconnect loop. -/
structure Connect where
  loop : Option Nat
  outcome : ConnectOutcome
deriving DecidableEq

/-- The function that `scheduleReconnect` starts. -/
inductive ReconnectLoop where
  | sleeping (attempt delay : Nat)
  | connecting (attempt : Nat)
  | ended
deriving DecidableEq

structure Client (Value : Type) where
  config : ClientConfig
  codec : Option Nat
  nextRequestId : Nat
  callInFlight : Bool
  reconnecting : Bool
  /-- How often `onDisconnect` was called. -/
  disconnects : Nat
  /-- How many connections have been opened. -/
  opened : Nat
  conns : Nat → UnixSocketConnection
  connects : List Connect
  loops : List ReconnectLoop
  reads : List Read
  calls : Nat → Call Value

inductive ClientEvent where
  /-- The user calls `connect`, `disconnect` or `call`. -/
  | connect
  | disconnect
  | call (i : Nat) (service method : String) (encoded : Except String (List UInt8))
      (options : CallOptions)
  /-- The socket of a `connect` is connected; `throws` says what `onReconnect` does. -/
  | connected (k : Nat) (throws : Bool)
  | connectFailed (k : Nat) (message : String)
  /-- The events of a connection's socket. -/
  | data (c : Nat) (chunk : List UInt8)
  | close (c : Nat)
  | error (c : Nat) (message : String) (code : Option String)
  | written (c send : Nat) (failure : Option (String × Option String))
  /-- The timers. -/
  | sleepOver (l : Nat)
  | poll (i : Nat)
  | timeout (i : Nat)
  /-- A promise has settled that a call or a `recvFrame` awaits. -/
  | resume (i : Nat)
  | read (r : Nat)

/-- The methods that an `EnvelopeCodec` has. -/
def EnvelopeCodec.methods : List String := ["send", "recv"]

namespace Client

variable {Value : Type} (format : EnvelopeFormat)
  (decode : Nat → List UInt8 → Except String Value)

def init (config : ClientConfig) : Client Value where
  config := config
  codec := none
  nextRequestId := 1
  callInFlight := false
  reconnecting := false
  disconnects := 0
  opened := 0
  conns := fun _ => .fromSocket
  connects := []
  loops := []
  reads := []
  calls := fun _ => .idle

def setConn (client : Client Value) (c : Nat) (conn : UnixSocketConnection) : Client Value :=
  { client with conns := Function.update client.conns c conn }

def setCall (client : Client Value) (i : Nat) (call : Call Value) : Client Value :=
  { client with calls := Function.update client.calls i call }

def setPhase (client : Client Value) (i : Nat) (phase : CallPhase Value) : Client Value :=
  client.setCall i { client.calls i with phase := phase }

/-! ## Connecting and disconnecting -/

def isConnected (client : Client Value) : Bool :=
  client.codec.isSome

/-- The connection of the codec, if the codec has a method `close`. -/
def codecAsCloseable (client : Client Value) : Option Nat :=
  if "close" ∈ EnvelopeCodec.methods then client.codec else none

def disconnect (client : Client Value) : Client Value :=
  match client.codecAsCloseable with
  | none => { client with codec := none }
  | some c => { client.setConn c (client.conns c).close with codec := none }

/-- `connect` up to its `await`. -/
def connect (client : Client Value) (loop : Option Nat) : Client Value :=
  if client.codec.isSome then
    { client with connects := client.connects ++ [⟨loop, .failed "Already connected"⟩] }
  else { client with connects := client.connects ++ [⟨loop, .pending⟩] }

/-- The head of the `for` loop, up to the `await` of `sleep`. -/
def attempt (client : Client Value) (options : ReconnectOptions) (l attempt : Nat) :
    Client Value :=
  if options.allows attempt then
    { client with loops := client.loops.set l (.sleeping attempt (options.delay attempt)) }
  else { client with reconnecting := false, loops := client.loops.set l .ended }

def scheduleReconnect (client : Client Value) (options : ReconnectOptions) : Client Value :=
  if client.reconnecting then client
  else
    { client with reconnecting := true, loops := client.loops ++ [ReconnectLoop.ended] }.attempt options
      client.loops.length 0

/-- What `connect` sets `onDisconnect` of the connection to. -/
def onDisconnect (client : Client Value) : Client Value :=
  match client.config.reconnect with
  | none => { client with codec := none, disconnects := client.disconnects + 1 }
  | some options =>
      { client with codec := none, disconnects := client.disconnects + 1 }.scheduleReconnect options

/-- The `catch` of an iteration. -/
def retry (client : Client Value) (l : Nat) : Client Value :=
  match client.config.reconnect, client.loops[l]? with
  | some options, some (.connecting attempt) => client.attempt options l (attempt + 1)
  | _, _ => client

/-- The loop behind a `connect` that has succeeded. -/
def reconnected (client : Client Value) (l : Nat) (throws : Bool) : Client Value :=
  if throws ∧ client.config.reconnect.any ReconnectOptions.onReconnect then
    { client with reconnecting := false }.retry l
  else { client with reconnecting := false, loops := client.loops.set l .ended }

def connected (client : Client Value) (k : Nat) (throws : Bool) : Option (Client Value) :=
  match client.connects[k]? with
  | some ⟨loop, .pending⟩ =>
      let next := { client with
        connects := client.connects.set k ⟨loop, .connected⟩
        codec := some client.opened
        opened := client.opened + 1 }
      match loop with
      | none => some next
      | some l => some (next.reconnected l throws)
  | _ => none

def connectFailed (client : Client Value) (k : Nat) (message : String) :
    Option (Client Value) :=
  match client.connects[k]? with
  | some ⟨loop, .pending⟩ =>
      let failed := { client with
        connects := client.connects.set k ⟨loop, .failed message⟩ }
      match loop with
      | none => some failed
      | some l => some (failed.retry l)
  | _ => none

def sleepOver (client : Client Value) (l : Nat) : Option (Client Value) :=
  match client.loops[l]? with
  | some (.sleeping attempt _) =>
      let connecting := { client with
        loops := client.loops.set l (.connecting attempt) }.connect (some l)
      if client.codec.isSome then some (connecting.retry l) else some connecting
  | _ => none

/-! ## Calls -/

def requestEnvelope (call : Call Value) (id : Nat) (payload : List UInt8) : Envelope where
  type := .request
  requestId := UInt64.ofNat id
  serviceName := call.service
  methodName := call.method
  payload := payload
  status := .ok
  errorMessage := ""
  metadata := call.options.metadata.getD []

def timeoutMs (client : Client Value) (call : Call Value) : Nat :=
  (call.options.timeout.or client.config.defaultTimeout).getD DEFAULT_TIMEOUT_MS

/-- The call settles outside of the `try`. -/
def settle (client : Client Value) (i : Nat) (result : Except CallError Value) : Client Value :=
  client.setPhase i (.settled result)

/-- The call settles behind the `finally`. -/
def finish (client : Client Value) (i : Nat) (result : Except CallError Value) : Client Value :=
  { client.settle i result with callInFlight := false }

def sending (client : Client Value) (i c id timeoutMs : Nat) :
    FrameSend × UnixSocketConnection → Client Value
  | (send, conn) => (client.setConn c conn).setPhase i (.sending c id timeoutMs send)

/-- The id is taken, and the codec of connection `c` is to send the envelope. -/
def request (client : Client Value) (i c : Nat) (payload : List UInt8) : Client Value :=
  let id := client.nextRequestId
  let envelope := requestEnvelope (client.calls i) id payload
  let taken :=
    { client.setCall i { client.calls i with envelope := some envelope, conn := some c } with
      nextRequestId := increment id, callInFlight := true }
  match format.serialize envelope with
  | none => taken.setPhase i (.failing .unserializable)
  | some bytes =>
      taken.sending i c id (client.timeoutMs (client.calls i)) (sendFrame (client.conns c) bytes)

/-- `call` behind `waitForReconnect`, up to the `await` of `send`. -/
def start (client : Client Value) (i : Nat) : Client Value :=
  match client.codec with
  | none => client.settle i (.error notConnected)
  | some c =>
      if client.callInFlight then
        client.settle i (.error (alreadyInFlight (client.calls i).method))
      else
        match (client.calls i).encoded with
        | .error message => client.settle i (.error (.protobuf message))
        | .ok payload => client.request format i c payload

def call (client : Client Value) (i : Nat) (service method : String)
    (encoded : Except String (List UInt8)) (options : CallOptions) : Option (Client Value) :=
  match (client.calls i).phase with
  | .idle =>
      let called := client.setCall i
        { service := service, method := method, encoded := encoded, options := options
          phase := .starting, envelope := none, conn := none }
      if client.codec.isNone ∧ client.config.reconnect.isSome then
        some (called.setPhase i .waiting)
      else some (called.start format i)
  | _ => none

/-- A tick of the interval of `waitForReconnect`. -/
def poll (client : Client Value) (i : Nat) : Option (Client Value) :=
  match (client.calls i).phase with
  | .waiting =>
      if client.codec.isSome then some (client.setPhase i .starting)
      else if client.reconnecting then some client
      else some (client.settle i (.error attemptsExhausted))
  | _ => none

/-- `this.codec.recv()` and its timer. -/
def receive (client : Client Value) (i id timeoutMs : Nat) : Client Value :=
  match client.codec with
  | none => client.finish i (.error .typeError)
  | some c =>
      { (client.setConn c (recvFrame (client.conns c)).2).setPhase i
          (.receiving client.reads.length id timeoutMs) with
        reads := client.reads ++ [⟨i, c, (recvFrame (client.conns c)).1⟩] }

/-- `call` behind the `await` of `recv`. -/
def respond (id : Nat) (parse : List UInt8 → Except String Value) (response : Envelope) :
    Except CallError Value :=
  if numberOfLong response.requestId ≠ id then
    .error (.error ("Protocol error: expected request_id " ++ numberText id ++ ", got " ++
      numberText (numberOfLong response.requestId)))
  else if response.status ≠ .ok then
    .error (.rpc response.status
      (if response.errorMessage = "" then
        "RPC failed with status " ++ toString (statusNumber response.status)
      else response.errorMessage))
  else
    match parse response.payload with
    | .ok value => .ok value
    | .error message => .error (.protobuf message)

/-- What `codec.recv` and the rest of `call` make of a settled `recvFrame`. -/
def received (i id : Nat) : Except TransportError (List UInt8) → Except CallError Value
  | .error error => .error (.transport error)
  | .ok frame =>
      match format.parse frame with
      | .error message =>
          .error (.transport ⟨"Failed to decode Envelope: " ++ message, "EBADMSG"⟩)
      | .ok response => respond id (decode i) response

def resume (client : Client Value) (i : Nat) : Option (Client Value) :=
  match (client.calls i).phase with
  | .starting => some (client.start format i)
  | .sending _ id timeoutMs (.settled (.ok ())) => some (client.receive i id timeoutMs)
  | .sending _ _ _ (.settled (.error error)) => some (client.finish i (.error (.transport error)))
  | .sending c id timeoutMs send =>
      (send.resume (client.conns c)).map (client.sending i c id timeoutMs)
  | .receiving r id _ =>
      match client.reads[r]? with
      | some ⟨_, _, .settled result⟩ => some (client.finish i (received format decode i id result))
      | _ => none
  | .failing error => some (client.finish i (.error error))
  | _ => none

def read (client : Client Value) (r : Nat) : Option (Client Value) :=
  match client.reads[r]? with
  | none => none
  | some read =>
      (read.frame.resume (client.conns read.conn)).map fun (frame, conn) =>
        { client.setConn read.conn conn with
          reads := client.reads.set r { read with frame := frame } }

/-- The timer of `withTimeout`, which a settled promise clears. -/
def timeout (client : Client Value) (i : Nat) : Option (Client Value) :=
  match (client.calls i).phase with
  | .receiving r _ timeoutMs =>
      match client.reads[r]? with
      | some ⟨_, _, .settled _⟩ => none
      | _ => some (client.setPhase i (.failing (timedOut timeoutMs)))
  | _ => none

def step (client : Client Value) : ClientEvent → Option (Client Value)
  | .connect => some (client.connect none)
  | .disconnect => some client.disconnect
  | .call i service method encoded options =>
      client.call format i service method encoded options
  | .connected k throws => client.connected k throws
  | .connectFailed k message => client.connectFailed k message
  | .data c chunk =>
      if c < client.opened ∧ (client.conns c).socket = .live then
        some (client.setConn c ((client.conns c).onData chunk))
      else none
  | .close c =>
      if c < client.opened ∧ (client.conns c).socket ≠ .closed then
        some (client.setConn c (client.conns c).onClose).onDisconnect
      else none
  | .error c message code =>
      if c < client.opened ∧ (client.conns c).socket = .live then
        some (client.setConn c ((client.conns c).onError message code)).onDisconnect
      else none
  | .written c send failure =>
      if c < client.opened ∧ (client.conns c).sends[send]? = some .pending then
        some (client.setConn c ((client.conns c).onWritten send failure))
      else none
  | .sleepOver l => client.sleepOver l
  | .poll i => client.poll i
  | .timeout i => client.timeout i
  | .resume i => client.resume format decode i
  | .read r => client.read r

end Client

end Ibridger.Js
