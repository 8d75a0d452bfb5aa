import Ibridger.Cpp.Error
import Ibridger.Foundation.Runs
import Ibridger.Foundation.SocketFiles

/-! # The C++ Unix socket transport

`listen`, `connect` and `close` of `UnixSocketTransport` in `unix_socket_transport.cpp`,
by any number of transports. A step goes from one system call to the next where others
can come in between. Directories stay as they are; how the kernel finds the entry
that a path names is a parameter.
-/

namespace Ibridger.Cpp

open Transition

/-- How the kernel resolves paths. -/
structure Paths (Place : Type) where
  resolve : List UInt8 → Except Errno Place
  resolve_nil : resolve [] = .error .ENOENT

/-- What a socket is bound to: a directory entry, or the abstract name that `bind`
takes an empty `sun_path` of this length for. -/
inductive SocketName (Place : Type) where
  | abstract
  | file (place : Place)
deriving DecidableEq

/-- `sizeof(addr.sun_path)`. -/
def sunPathSize : Nat := 108

/-- The C string that `endpoint.c_str()` points to. -/
def cStr (endpoint : List UInt8) : List UInt8 := endpoint.takeWhile (· ≠ 0)

/-- What `strncpy` leaves in `addr.sun_path`. -/
def sunPath (endpoint : List UInt8) : List UInt8 := (cStr endpoint).take (sunPathSize - 1)

namespace Paths

variable {Place : Type} (paths : Paths Place)

/-- The name that `::bind` and `::connect` use. -/
def address (endpoint : List UInt8) : Except Errno (SocketName Place) :=
  if sunPath endpoint = [] then .ok .abstract else (paths.resolve (sunPath endpoint)).map .file

/-- The name that `::unlink` removes. -/
def unlinked (endpoint : List UInt8) : Except Errno (SocketName Place) :=
  (paths.resolve (cStr endpoint)).map .file

end Paths

/-- Where a transport is: outside, in `listen` behind its `::unlink`, or in `close`
behind its `::close`. -/
inductive TransportPhase where
  | idle
  | binding (endpoint : List UInt8)
  | removing
deriving DecidableEq

structure UnixSocketTransport where
  serverFd : Option Nat
  endpoint : List UInt8
  phase : TransportPhase
deriving DecidableEq

namespace UnixSocketTransport

variable {Place : Type} [DecidableEq Place] (paths : Paths Place)

def fresh : UnixSocketTransport where
  serverFd := none
  endpoint := []
  phase := .idle

/-- `::unlink(endpoint.c_str())`. -/
def unlink (files : SocketFiles (SocketName Place)) (endpoint : List UInt8) :
    SocketFiles (SocketName Place) :=
  match paths.unlinked endpoint with
  | .error _ => files
  | .ok name => files.unlink name

/-- `::close` of a socket. The abstract name goes with it. -/
def closeFd (files : SocketFiles (SocketName Place)) (s : Nat) : SocketFiles (SocketName Place) :=
  if files.entry .abstract = some s then (files.shut s).unlink .abstract else files.shut s

/-- `listen` up to its `::unlink`; `error` is that of `::socket`. -/
def beginListen (files : SocketFiles (SocketName Place)) (transport : UnixSocketTransport)
    (endpoint : List UInt8) (error : Option Errno) :
    Option ErrorCode × SocketFiles (SocketName Place) × UnixSocketTransport :=
  match error with
  | some err => (some (.system err), files, { transport with serverFd := none })
  | none =>
      (none, unlink paths files.socket endpoint,
        { transport with serverFd := some files.opened, phase := .binding endpoint })

/-- The rest of `listen`; `error` is that of `::listen`. -/
def finishListen (files : SocketFiles (SocketName Place)) (transport : UnixSocketTransport)
    (s : Nat) (endpoint : List UInt8) (error : Option Errno) :
    Option ErrorCode × SocketFiles (SocketName Place) × UnixSocketTransport :=
  match paths.address endpoint with
  | .error err =>
      (some (.system err), closeFd files s, { transport with serverFd := none, phase := .idle })
  | .ok name =>
      match files.bind name s, error with
      | none, _ =>
          (some (.system .EADDRINUSE), closeFd files s,
            { transport with serverFd := none, phase := .idle })
      | some bound, some err =>
          (some (.system err), closeFd bound s, { transport with serverFd := none, phase := .idle })
      | some bound, none =>
          (none, bound.listen s, { transport with endpoint := endpoint, phase := .idle })

/-- `close` up to its `::unlink`. -/
def beginClose (files : SocketFiles (SocketName Place)) (transport : UnixSocketTransport) :
    SocketFiles (SocketName Place) × UnixSocketTransport :=
  (match transport.serverFd with
    | none => files
    | some s => closeFd files s,
    { transport with serverFd := none, phase := .removing })

/-- The rest of `close`. -/
def finishClose (files : SocketFiles (SocketName Place)) (transport : UnixSocketTransport) :
    SocketFiles (SocketName Place) × UnixSocketTransport :=
  if transport.endpoint = [] then (files, { transport with phase := .idle })
  else (unlink paths files transport.endpoint, { transport with endpoint := [], phase := .idle })

/-- `listen` where nothing comes in between. -/
def listen (files : SocketFiles (SocketName Place)) (transport : UnixSocketTransport)
    (endpoint : List UInt8) (socketError listenError : Option Errno) :
    Option ErrorCode × SocketFiles (SocketName Place) × UnixSocketTransport :=
  match beginListen paths files transport endpoint socketError with
  | (some err, begun) => (some err, begun)
  | (none, begun, listening) =>
      finishListen paths begun listening files.opened endpoint listenError

/-- `close` where nothing comes in between. -/
def close (files : SocketFiles (SocketName Place)) (transport : UnixSocketTransport) :
    SocketFiles (SocketName Place) × UnixSocketTransport :=
  let (begun, closing) := beginClose files transport
  finishClose paths begun closing

/-- The error of `::connect` where no socket listens under the name. -/
def connectError (files : SocketFiles (SocketName Place)) : SocketName Place → Errno
  | .abstract => .ECONNREFUSED
  | .file place => if files.entry (.file place) = none then .ENOENT else .ECONNREFUSED

/-- `connect`, with the socket that it reaches. -/
def connectTo (files : SocketFiles (SocketName Place)) (endpoint : List UInt8) :
    Except ErrorCode Nat :=
  match paths.address endpoint with
  | .error err => .error (.system err)
  | .ok name =>
      match files.reached name with
      | none => .error (.system (connectError files name))
      | some s => .ok s

end UnixSocketTransport

/-- The transports of all processes. -/
structure Transports (Place : Type) where
  files : SocketFiles (SocketName Place)
  transport : Nat → UnixSocketTransport

inductive TransportEvent where
  | beginListen (i : Nat) (endpoint : List UInt8) (error : Option Errno)
  | finishListen (i : Nat) (error : Option Errno)
  | beginClose (i : Nat)
  | finishClose (i : Nat)
deriving DecidableEq

namespace Transports

open UnixSocketTransport

variable {Place : Type} [DecidableEq Place] (paths : Paths Place)

def init : Transports Place where
  files := .empty
  transport := fun _ => .fresh

def set (system : Transports Place) (i : Nat)
    (next : SocketFiles (SocketName Place) × UnixSocketTransport) : Transports Place where
  files := next.1
  transport := Function.update system.transport i next.2

/-- A step of one transport. -/
def step (system : Transports Place) : TransportEvent → Option (Transports Place)
  | .beginListen i endpoint error =>
      if (system.transport i).phase = .idle then
        some (system.set i (beginListen paths system.files (system.transport i) endpoint error).2)
      else none
  | .finishListen i error =>
      match (system.transport i).phase, (system.transport i).serverFd with
      | .binding endpoint, some s =>
          some (system.set i
            (finishListen paths system.files (system.transport i) s endpoint error).2)
      | _, _ => none
  | .beginClose i =>
      if (system.transport i).phase = .idle then
        some (system.set i (beginClose system.files (system.transport i)))
      else none
  | .finishClose i =>
      if (system.transport i).phase = .removing then
        some (system.set i (finishClose paths system.files (system.transport i)))
      else none

end Transports

end Ibridger.Cpp
