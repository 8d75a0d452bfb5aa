import Mathlib.Logic.Function.Basic

/-! # Sockets and their names

A server binds a socket to a name and listens on it, and clients that connect to the
name reach the socket. The name outlives the socket until it is unlinked. Unlinking
takes the name whoever it belongs to.
-/

universe uName

/-- The names that are in use, and the sockets behind them. -/
structure SocketFiles (Name : Type uName) where
  entry : Name → Option Nat
  listening : Nat → Bool
  /-- How many sockets have been opened. -/
  opened : Nat

namespace SocketFiles

variable {Name : Type uName}

def empty : SocketFiles Name where
  entry := fun _ => none
  listening := fun _ => false
  opened := 0

/-- The socket that a client reaches under a name. -/
def reached (files : SocketFiles Name) (name : Name) : Option Nat :=
  (files.entry name).filter files.listening

/-- A new socket, with the number `files.opened`. -/
def socket (files : SocketFiles Name) : SocketFiles Name :=
  { files with opened := files.opened + 1 }

def listen (files : SocketFiles Name) (s : Nat) : SocketFiles Name :=
  { files with listening := Function.update files.listening s true }

/-- The socket is closed. Its name stays. -/
def shut (files : SocketFiles Name) (s : Nat) : SocketFiles Name :=
  { files with listening := Function.update files.listening s false }

theorem reached_eq_some {files : SocketFiles Name} {name : Name} {s : Nat} :
    files.reached name = some s ↔ files.entry name = some s ∧ files.listening s = true := by
  rw [reached, Option.filter_eq_some_iff]

theorem listen_listening (files : SocketFiles Name) (s other : Nat) :
    (files.listen s).listening other = if other = s then true else files.listening other :=
  Function.update_apply _ _ _ _

theorem shut_listening (files : SocketFiles Name) (s other : Nat) :
    (files.shut s).listening other = if other = s then false else files.listening other :=
  Function.update_apply _ _ _ _

variable [DecidableEq Name]

def unlink (files : SocketFiles Name) (name : Name) : SocketFiles Name :=
  { files with entry := Function.update files.entry name none }

/-- A name is given to one socket only. -/
def bind (files : SocketFiles Name) (name : Name) (s : Nat) : Option (SocketFiles Name) :=
  match files.entry name with
  | none => some { files with entry := Function.update files.entry name (some s) }
  | some _ => none

theorem bind_eq_some {files bound : SocketFiles Name} {name : Name} {s : Nat} :
    files.bind name s = some bound ↔
      files.entry name = none ∧
        bound = { files with entry := Function.update files.entry name (some s) } := by
  unfold bind
  split
  next hfree => simp [hfree, eq_comm]
  next hused => simp [hused]

theorem unlink_entry (files : SocketFiles Name) (name other : Name) :
    (files.unlink name).entry other = if other = name then none else files.entry other :=
  Function.update_apply _ _ _ _

end SocketFiles
