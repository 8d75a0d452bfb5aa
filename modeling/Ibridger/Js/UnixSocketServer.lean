import Ibridger.Foundation.SocketFiles

/-! # The JS Unix socket server

`listen` and `close` of `UnixSocketServer` in `unix-socket-server.ts`, over the name that
its path has. `net.Server` unlinks the path of a Unix socket when it closes its handle,
and calls back once its connections have ended.
-/

namespace Ibridger.Js

structure UnixSocketServer where
  /-- Whether `this.server` is set. -/
  created : Bool
  /-- The socket of `this.server`, while its handle is open. -/
  handle : Option Nat
  /-- In `server.listen`, before the bind. -/
  binding : Bool
  /-- The calls of `server.close` that are to call back. -/
  closing : Nat
deriving DecidableEq

namespace UnixSocketServer

variable {Name : Type} [DecidableEq Name] (name : Name)

def fresh : UnixSocketServer where
  created := false
  handle := none
  binding := false
  closing := 0

/-- `listen` up to the bind. -/
def beginListen (files : SocketFiles Name) (server : UnixSocketServer) :
    SocketFiles Name × UnixSocketServer :=
  (files.socket.unlink name,
    { server with created := true, handle := some files.opened, binding := true })

/-- The bind of `listen`, for the new socket. -/
def finishListen (files : SocketFiles Name) (server : UnixSocketServer) (s : Nat) :
    SocketFiles Name × UnixSocketServer :=
  match files.bind name s with
  | none => (files.shut s, { server with handle := none, binding := false })
  | some bound => (bound.listen s, { server with binding := false })

/-- `close` up to its callback. -/
def close (files : SocketFiles Name) (server : UnixSocketServer) :
    SocketFiles Name × UnixSocketServer :=
  if server.created then
    (match server.handle with
      | none => files
      | some s => (files.unlink name).shut s,
      { server with handle := none, closing := server.closing + 1 })
  else (files, server)

/-- The callback of `server.close`. -/
def closed (files : SocketFiles Name) (server : UnixSocketServer) :
    SocketFiles Name × UnixSocketServer :=
  (files.unlink name, { server with closing := server.closing - 1 })

end UnixSocketServer

end Ibridger.Js
