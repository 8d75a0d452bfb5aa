import Mathlib.Data.List.Basic

/-! # Error codes and system call outcomes

The error codes that the C++ sources return, and what the operating system may
answer to a `::send` or a `::read`. A `std::error_code` is an
`Option ErrorCode`, with `none` for the default-constructed success value.
-/

namespace Ibridger.Cpp

/-- The value of `errno` after a failed system call. -/
structure Errno where
  code : Nat
  nonzero : code ≠ 0
deriving DecidableEq

namespace Errno

def EINTR : Errno := ⟨4, by decide⟩

def ENOENT : Errno := ⟨2, by decide⟩

def EBADF : Errno := ⟨9, by decide⟩

def EMFILE : Errno := ⟨24, by decide⟩

def EPIPE : Errno := ⟨32, by decide⟩

def EADDRINUSE : Errno := ⟨98, by decide⟩

def ECONNRESET : Errno := ⟨104, by decide⟩

def ECONNREFUSED : Errno := ⟨111, by decide⟩

end Errno

/-- `common::Error`, without `ok`, which is the success value. -/
inductive Error where
  | notConnected
  | alreadyConnected
  | alreadyRegistered
  | serviceNotFound
  | methodNotFound
  | protocolError
  | frameTooLarge
  | serializationError
  | timeout
  | internal
deriving DecidableEq, Repr

/-- `IbridgerErrorCategory::message`. -/
def Error.message : Error → String
  | .notConnected => "not connected"
  | .alreadyConnected => "already connected"
  | .alreadyRegistered => "service already registered"
  | .serviceNotFound => "service not found"
  | .methodNotFound => "method not found"
  | .protocolError => "protocol error"
  | .frameTooLarge => "frame too large"
  | .serializationError => "serialization error"
  | .timeout => "operation timed out"
  | .internal => "internal error"

inductive ErrorCode where
  /-- A code of `std::system_category`. -/
  | system (errno : Errno)
  /-- `std::errc::connection_reset`. -/
  | connectionReset
  /-- `std::errc::not_supported`. -/
  | notSupported
  | ibridger (error : Error)
deriving DecidableEq

/-- What one `::send` of a nonempty buffer does: it accepts at most `count` of
the bytes offered to it, or it fails and accepts none. -/
inductive SendOutcome where
  | accepted (count : Nat)
  | failed (errno : Errno)
deriving DecidableEq

/-- What the descriptor holds for a `::read`: bytes, of which a call takes as
many as it asks for, no bytes at the end of the stream, or a failure. -/
inductive ReadOutcome where
  | got (bytes : List UInt8)
  | failed (errno : Errno)
deriving DecidableEq

/-- The bytes a `::read` has not taken stay in front of what comes later. -/
def unread (bytes : List UInt8) (rest : List ReadOutcome) : List ReadOutcome :=
  if bytes = [] then rest else .got bytes :: rest

@[simp] theorem unread_nil (rest : List ReadOutcome) : unread [] rest = rest := rfl

/-- Nothing stays behind a `::read` that asked for at least what was there. -/
theorem unread_eq_nil {bytes : List UInt8} {len : Nat} {rest : List ReadOutcome}
    (hunread : unread (bytes.drop len) rest = []) : rest = [] ∧ bytes.take len = bytes := by
  unfold unread at hunread
  split at hunread
  next hdrop => exact ⟨hunread, List.take_of_length_le (List.drop_eq_nil_iff.mp hdrop)⟩
  · cases hunread

end Ibridger.Cpp
