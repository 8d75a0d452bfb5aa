import Mathlib.Data.List.Basic
import Ibridger.Cpp.Error
import Mathlib.Algebra.Ring.Nat

/-! # The Windows named pipe connection

`NamedPipeConnection` of `named_pipe_transport.cpp` as it is compiled on
Windows, with the answers of the coming `WriteFile` and `ReadFile` calls and
the arguments of the `CloseHandle` calls made so far. `GetLastError` values are
modelled by the same nonzero codes as `errno`.
-/

namespace Ibridger.Cpp

namespace Errno

def ERROR_BROKEN_PIPE : Errno := ⟨109, by decide⟩

def ERROR_PIPE_NOT_CONNECTED : Errno := ⟨233, by decide⟩

end Errno

structure NamedPipeConnection where
  /-- `handle_`, with `none` for the null pointer. -/
  handle : Option Nat
  id : Nat
  connected : Bool
  writes : List SendOutcome
  reads : List ReadOutcome
  wire : List UInt8
  closed : List (Option Nat)
deriving DecidableEq

namespace NamedPipeConnection

/-- A connection built on an open pipe handle. -/
def ofHandle (handle id : Nat) : NamedPipeConnection where
  handle := some handle
  id := id
  connected := true
  writes := []
  reads := []
  wire := []
  closed := []

/-- The loop of `send`. The length passed to `WriteFile` is cut to a `DWORD`,
and a write of no bytes is tried again. -/
def sendLoop (conn : NamedPipeConnection) (data : List UInt8) (total : Nat) :
    List SendOutcome → Option ((Nat × Option ErrorCode) × NamedPipeConnection)
  | [] =>
      if total < data.length then none else some ((total, none), { conn with writes := [] })
  | outcome :: rest =>
      if total < data.length then
        match outcome with
        | .failed code =>
            some ((total, some (.system code)), { conn with connected := false, writes := rest })
        | .accepted count =>
            let written := min count ((data.length - total) % 2 ^ 32)
            { conn with wire := conn.wire ++ (data.drop total).take written }.sendLoop
              data (total + written) rest
      else some ((total, none), { conn with writes := outcome :: rest })

def send (conn : NamedPipeConnection) (data : List UInt8) :
    Option ((Nat × Option ErrorCode) × NamedPipeConnection) :=
  match conn.handle with
  | none => some ((0, some .notSupported), conn)
  | some _ => conn.sendLoop data 0 conn.writes

def recv (conn : NamedPipeConnection) (len : Nat) :
    Option ((List UInt8 × Option ErrorCode) × NamedPipeConnection) :=
  match conn.handle with
  | none => some (([], some .notSupported), conn)
  | some _ =>
      match conn.reads with
      | [] => none
      | .failed code :: rest =>
          if code = .ERROR_BROKEN_PIPE ∨ code = .ERROR_PIPE_NOT_CONNECTED then
            some (([], none), { conn with connected := false, reads := rest })
          else some (([], some (.system code)), { conn with connected := false, reads := rest })
      | .got bytes :: rest =>
          if bytes.take (len % 2 ^ 32) = [] then
            some (([], none), { conn with
              connected := false, reads := unread (bytes.drop (len % 2 ^ 32)) rest })
          else
            some ((bytes.take (len % 2 ^ 32), none),
              { conn with reads := unread (bytes.drop (len % 2 ^ 32)) rest })

def close (conn : NamedPipeConnection) : NamedPipeConnection :=
  if conn.connected then
    { conn with connected := false, closed := conn.closed ++ [conn.handle], handle := none }
  else conn

end NamedPipeConnection

end Ibridger.Cpp
