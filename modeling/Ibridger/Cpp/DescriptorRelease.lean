import Ibridger.Cpp.NamedPipe
import Ibridger.Cpp.UnixSocket
import Ibridger.Foundation.OwnedHandle

/-! # Release of the descriptor of a connection

The life of a connection object is a sequence of `send`, `recv` and `close`
calls, in any order and with any outcome of the system calls they make, until
its destructor runs. Both connection classes clear `connected` when an
operation fails and release the descriptor only in a `close` that finds
`connected` set: they own their descriptor in the sense of `OwnedHandle`.
-/

namespace Ibridger.Cpp

open Transition OwnedHandle

/-- A call on a connection object. `send` and `recv` come with the answers of
exactly the system calls they make. -/
inductive Operation where
  | send (data : List UInt8) (outcomes : List SendOutcome)
  | recv (len : Nat) (outcomes : List ReadOutcome)
  | close
  | destroy
deriving DecidableEq

/-- What an operation that may fail does to the handle of its object. -/
def Operation.action (operation : Operation) (fatal : Bool) : Action :=
  match operation with
  | .send _ _ => if fatal then .fail else .use
  | .recv _ _ => if fatal then .fail else .use
  | .close => .close
  | .destroy => .close

theorem Operation.action_eq_fail {operation : Operation} {fatal : Bool}
    (hquiet : operation = .close ∨ operation = .destroy → fatal = false) :
    operation.action fatal = .fail ↔ fatal = true := by
  cases operation with
  | send data outcomes => cases fatal <;> simp [action]
  | recv len outcomes => cases fatal <;> simp [action]
  | close => simp [action, hquiet]
  | destroy => simp [action, hquiet]

/-- A connection object and whether its destructor has run. -/
structure Lifetime (Conn : Type) where
  conn : Conn
  destroyed : Bool

/-- An answer after which the Unix socket `send` returns an error. -/
def SendOutcome.fatal : SendOutcome → Bool
  | .accepted _ => false
  | .failed errno => errno ≠ .EINTR

/-- An answer after which the Unix socket `recv` reports an error or the end of
the stream. -/
def ReadOutcome.fatal : ReadOutcome → Bool
  | .got bytes => bytes = []
  | .failed errno => errno ≠ .EINTR

namespace UnixSocketConnection

def withSends (conn : UnixSocketConnection) (outcomes : List SendOutcome) :
    UnixSocketConnection :=
  { conn with sends := outcomes }

def withReads (conn : UnixSocketConnection) (outcomes : List ReadOutcome) :
    UnixSocketConnection :=
  { conn with reads := outcomes }

/-- Run one call to its return, with all of its answers used. -/
def operate (life : Lifetime UnixSocketConnection) (operation : Operation) :
    Option (Lifetime UnixSocketConnection) :=
  if life.destroyed then none
  else
    match operation with
    | .send data outcomes =>
        match (life.conn.withSends outcomes).send data with
        | none => none
        | some (_, next) => if next.sends = [] then some { life with conn := next } else none
    | .recv len outcomes =>
        match (life.conn.withReads outcomes).recv len with
        | none => none
        | some (_, next) => if next.reads = [] then some { life with conn := next } else none
    | .close => some { life with conn := life.conn.close }
    | .destroy => some { conn := life.conn.close, destroyed := true }

/-- The call ends in an error, or in the end of the stream. -/
def fatal : Operation → Bool
  | .send _ outcomes => outcomes.any SendOutcome.fatal
  | .recv _ outcomes => outcomes.any ReadOutcome.fatal
  | .close => false
  | .destroy => false

/-- The flag of the connection and the number of times its descriptor `fd` was
passed to `::close`. -/
def view (fd : Int) (life : Lifetime UnixSocketConnection) : Handle :=
  ⟨life.conn.connected, life.conn.closed.count fd⟩

/-- The descriptor has been passed to `::close` exactly once if the connection
was closed, by whatever path, and not at all while it is connected. -/
def ReleasedOnce (fd : Int) (life : Lifetime UnixSocketConnection) : Prop :=
  life.conn.closed.count fd = if life.conn.connected then 0 else 1

instance (fd : Int) (life : Lifetime UnixSocketConnection) : Decidable (ReleasedOnce fd life) :=
  inferInstanceAs (Decidable (_ = _))

theorem sendLoop_fatal {conn next : UnixSocketConnection} {data : List UInt8} {total : Nat}
    {result : Nat × Option ErrorCode} {outcomes : List SendOutcome}
    (hrun : conn.sendLoop data total outcomes = some (result, next)) (hused : next.sends = []) :
    next.connected = (conn.connected && !outcomes.any SendOutcome.fatal) ∧
      next.closed = conn.closed ∧ next.fd = conn.fd := by
  induction outcomes generalizing conn total with
  | nil =>
      simp only [sendLoop] at hrun
      split at hrun
      · cases hrun
      · cases hrun
        simp
  | cons outcome rest ih =>
      simp only [sendLoop] at hrun
      split at hrun
      · cases outcome with
        | failed errno =>
            simp only at hrun
            split at hrun
            next heintr =>
              obtain ⟨hflag, hclosed, hfd⟩ := ih hrun
              exact ⟨by simp [hflag, SendOutcome.fatal, heintr], hclosed, hfd⟩
            next hother =>
              cases hrun
              simp [SendOutcome.fatal, hother]
        | accepted count =>
            simp only at hrun
            split at hrun
            · cases hrun
              simp only at hused
              simp [hused, SendOutcome.fatal]
            · obtain ⟨hflag, hclosed, hfd⟩ := ih hrun
              exact ⟨by simpa [SendOutcome.fatal] using hflag, hclosed, hfd⟩
      · cases hrun
        cases hused

theorem recvLoop_fatal {conn next : UnixSocketConnection} {len : Nat}
    {result : List UInt8 × Option ErrorCode} {outcomes : List ReadOutcome}
    (hrun : conn.recvLoop len outcomes = some (result, next)) (hused : next.reads = []) :
    next.connected = (conn.connected && !outcomes.any ReadOutcome.fatal) ∧
      next.closed = conn.closed ∧ next.fd = conn.fd := by
  induction outcomes with
  | nil => cases hrun
  | cons outcome rest ih =>
      cases outcome with
      | failed errno =>
          simp only [recvLoop] at hrun
          split at hrun
          next heintr =>
            obtain ⟨hflag, hclosed, hfd⟩ := ih hrun
            exact ⟨by simp [hflag, ReadOutcome.fatal, heintr], hclosed, hfd⟩
          next hother =>
            cases hrun
            simp [ReadOutcome.fatal, hother]
      | got bytes =>
          simp only [recvLoop] at hrun
          split at hrun
          all_goals
            next htake =>
              cases hrun
              obtain ⟨hrest, hall⟩ := unread_eq_nil hused
              rw [hall] at htake
              simp [ReadOutcome.fatal, htake, hrest]

theorem operate_owns (fd : Int) :
    Owns operate (fun life => life.conn.connected = true → life.conn.fd = fd) (view fd)
      (fun operation => operation.action (fatal operation)) := by
  have hclose : ∀ conn : UnixSocketConnection, (conn.connected = true → conn.fd = fd) →
      (conn.close.connected = true → conn.close.fd = fd) ∧
      (⟨conn.close.connected, conn.close.closed.count fd⟩ : Handle) =
        (⟨conn.connected, conn.closed.count fd⟩ : Handle).act .close := by
    intro conn hfd
    cases hflag : conn.connected with
    | true => simp [close, Handle.act, hflag, hfd hflag]
    | false => simp [close, Handle.act, hflag]
  have hboth : ∀ life operation next, (life.conn.connected = true → life.conn.fd = fd) →
      operate life operation = some next →
      (next.conn.connected = true → next.conn.fd = fd) ∧
        view fd next = (view fd life).act (operation.action (fatal operation)) := by
    intro life operation next hfd hnext
    unfold operate at hnext
    split at hnext
    · cases hnext
    cases operation with
    | send data outcomes =>
        cases hsend : (life.conn.withSends outcomes).send data with
        | none => simp [hsend] at hnext
        | some result =>
            simp only [hsend] at hnext
            split at hnext
            next hempty =>
              cases hnext
              obtain ⟨hflag, hclosed, hsame⟩ := sendLoop_fatal hsend hempty
              rw [view, view, Operation.action, Handle.act_use_or_fail]
              simp only [hflag, hclosed, hsame, fatal, withSends]
              exact ⟨fun hlive => hfd (Bool.and_eq_true_iff.mp hlive).1, trivial⟩
            · cases hnext
    | recv len outcomes =>
        cases hrecv : (life.conn.withReads outcomes).recv len with
        | none => simp [hrecv] at hnext
        | some result =>
            simp only [hrecv] at hnext
            split at hnext
            next hempty =>
              cases hnext
              obtain ⟨hflag, hclosed, hsame⟩ := recvLoop_fatal hrecv hempty
              rw [view, view, Operation.action, Handle.act_use_or_fail]
              simp only [hflag, hclosed, hsame, fatal, withReads]
              exact ⟨fun hlive => hfd (Bool.and_eq_true_iff.mp hlive).1, trivial⟩
            · cases hnext
    | close =>
        cases hnext
        exact hclose life.conn hfd
    | destroy =>
        cases hnext
        exact hclose life.conn hfd
  exact ⟨fun life operation next hfd hnext => (hboth life operation next hfd hnext).1,
    fun life operation next hfd hnext => (hboth life operation next hfd hnext).2⟩

end UnixSocketConnection

/-- On a pipe every failed write ends the call; there is no `EINTR`. -/
def SendOutcome.fatalToPipe : SendOutcome → Bool
  | .accepted _ => false
  | .failed _ => true

def ReadOutcome.fatalToPipe : ReadOutcome → Bool
  | .got bytes => bytes = []
  | .failed _ => true

namespace NamedPipeConnection

def withWrites (conn : NamedPipeConnection) (outcomes : List SendOutcome) :
    NamedPipeConnection :=
  { conn with writes := outcomes }

def withReads (conn : NamedPipeConnection) (outcomes : List ReadOutcome) :
    NamedPipeConnection :=
  { conn with reads := outcomes }

def operate (life : Lifetime NamedPipeConnection) (operation : Operation) :
    Option (Lifetime NamedPipeConnection) :=
  if life.destroyed then none
  else
    match operation with
    | .send data outcomes =>
        match (life.conn.withWrites outcomes).send data with
        | none => none
        | some (_, next) => if next.writes = [] then some { life with conn := next } else none
    | .recv len outcomes =>
        match (life.conn.withReads outcomes).recv len with
        | none => none
        | some (_, next) => if next.reads = [] then some { life with conn := next } else none
    | .close => some { life with conn := life.conn.close }
    | .destroy => some { conn := life.conn.close, destroyed := true }

def fatal : Operation → Bool
  | .send _ outcomes => outcomes.any SendOutcome.fatalToPipe
  | .recv _ outcomes => outcomes.any ReadOutcome.fatalToPipe
  | .close => false
  | .destroy => false

def view (handle : Nat) (life : Lifetime NamedPipeConnection) : Handle :=
  ⟨life.conn.connected, life.conn.closed.count (some handle)⟩

/-- `CloseHandle` has been called on the handle exactly once if the connection
was closed, and not at all while it is connected. -/
def ReleasedOnce (handle : Nat) (life : Lifetime NamedPipeConnection) : Prop :=
  life.conn.closed.count (some handle) = if life.conn.connected then 0 else 1

theorem sendLoop_fatal {conn next : NamedPipeConnection} {data : List UInt8} {total : Nat}
    {result : Nat × Option ErrorCode} {outcomes : List SendOutcome}
    (hrun : conn.sendLoop data total outcomes = some (result, next))
    (hused : next.writes = []) :
    next.connected = (conn.connected && !outcomes.any SendOutcome.fatalToPipe) ∧
      next.closed = conn.closed ∧ next.handle = conn.handle := by
  induction outcomes generalizing conn total with
  | nil =>
      simp only [sendLoop] at hrun
      split at hrun
      · cases hrun
      · cases hrun
        simp
  | cons outcome rest ih =>
      simp only [sendLoop] at hrun
      split at hrun
      · cases outcome with
        | failed code =>
            cases hrun
            simp [SendOutcome.fatalToPipe]
        | accepted count =>
            obtain ⟨hflag, hclosed, hhandle⟩ := ih hrun
            exact ⟨by simpa [SendOutcome.fatalToPipe] using hflag, hclosed, hhandle⟩
      · cases hrun
        cases hused

theorem send_fatal {conn next : NamedPipeConnection} {data : List UInt8}
    {result : Nat × Option ErrorCode}
    (hrun : conn.send data = some (result, next)) (hused : next.writes = []) :
    next.connected = (conn.connected && !conn.writes.any SendOutcome.fatalToPipe) ∧
      next.closed = conn.closed ∧ next.handle = conn.handle := by
  unfold send at hrun
  split at hrun
  next hnull =>
    cases hrun
    simp [hused]
  next => exact sendLoop_fatal hrun hused

theorem recv_fatal {conn next : NamedPipeConnection} {len : Nat}
    {result : List UInt8 × Option ErrorCode}
    (hrun : conn.recv len = some (result, next)) (hused : next.reads = []) :
    next.connected = (conn.connected && !conn.reads.any ReadOutcome.fatalToPipe) ∧
      next.closed = conn.closed ∧ next.handle = conn.handle := by
  unfold recv at hrun
  split at hrun
  next hnull =>
    cases hrun
    simp [hused]
  next =>
    split at hrun
    · cases hrun
    next code rest hreads =>
      split at hrun
      all_goals
        cases hrun
        simp [hreads, ReadOutcome.fatalToPipe]
    next bytes rest hreads =>
      split at hrun
      all_goals
        next htake =>
          cases hrun
          obtain ⟨hrest, hall⟩ := unread_eq_nil hused
          rw [hall] at htake
          simp [hreads, ReadOutcome.fatalToPipe, htake, hrest]

theorem operate_owns (handle : Nat) :
    Owns operate (fun life => life.conn.connected = true → life.conn.handle = some handle)
      (view handle) (fun operation => operation.action (fatal operation)) := by
  have hclose : ∀ conn : NamedPipeConnection,
      (conn.connected = true → conn.handle = some handle) →
      (conn.close.connected = true → conn.close.handle = some handle) ∧
      (⟨conn.close.connected, conn.close.closed.count (some handle)⟩ : Handle) =
        (⟨conn.connected, conn.closed.count (some handle)⟩ : Handle).act .close := by
    intro conn hopen
    cases hflag : conn.connected with
    | true => simp [close, Handle.act, hflag, hopen hflag]
    | false => simp [close, Handle.act, hflag]
  have hboth : ∀ life operation next,
      (life.conn.connected = true → life.conn.handle = some handle) →
      operate life operation = some next →
      (next.conn.connected = true → next.conn.handle = some handle) ∧
        view handle next = (view handle life).act (operation.action (fatal operation)) := by
    intro life operation next hopen hnext
    unfold operate at hnext
    split at hnext
    · cases hnext
    cases operation with
    | send data outcomes =>
        cases hsend : (life.conn.withWrites outcomes).send data with
        | none => simp [hsend] at hnext
        | some result =>
            simp only [hsend] at hnext
            split at hnext
            next hempty =>
              cases hnext
              obtain ⟨hflag, hclosed, hsame⟩ := send_fatal hsend hempty
              rw [view, view, Operation.action, Handle.act_use_or_fail]
              simp only [hflag, hclosed, hsame, fatal, withWrites]
              exact ⟨fun hlive => hopen (Bool.and_eq_true_iff.mp hlive).1, trivial⟩
            · cases hnext
    | recv len outcomes =>
        cases hrecv : (life.conn.withReads outcomes).recv len with
        | none => simp [hrecv] at hnext
        | some result =>
            simp only [hrecv] at hnext
            split at hnext
            next hempty =>
              cases hnext
              obtain ⟨hflag, hclosed, hsame⟩ := recv_fatal hrecv hempty
              rw [view, view, Operation.action, Handle.act_use_or_fail]
              simp only [hflag, hclosed, hsame, fatal, withReads]
              exact ⟨fun hlive => hopen (Bool.and_eq_true_iff.mp hlive).1, trivial⟩
            · cases hnext
    | close =>
        cases hnext
        exact hclose life.conn hopen
    | destroy =>
        cases hnext
        exact hclose life.conn hopen
  exact ⟨fun life operation next hopen hnext => (hboth life operation next hopen hnext).1,
    fun life operation next hopen hnext => (hboth life operation next hopen hnext).2⟩

end NamedPipeConnection

/-! ## Exactly once -/

/-- A connection releases its descriptor exactly once, in every state of its
life, precisely when no `send` or `recv` that is called while it is connected
runs into a fatal answer. The same holds of the named pipe and its handle. -/
theorem releasedOnce_iff_quiet (fd : Int) (handle id : Nat) (operations : List Operation) :
    (Throughout UnixSocketConnection.operate (UnixSocketConnection.ReleasedOnce fd)
          ⟨.ofFd fd id, false⟩ operations ↔
        Guarded UnixSocketConnection.operate
          (fun life operation => life.conn.connected = true →
            UnixSocketConnection.fatal operation = false)
          ⟨.ofFd fd id, false⟩ operations) ∧
    (Throughout NamedPipeConnection.operate (NamedPipeConnection.ReleasedOnce handle)
          ⟨.ofHandle handle id, false⟩ operations ↔
        Guarded NamedPipeConnection.operate
          (fun life operation => life.conn.connected = true →
            NamedPipeConnection.fatal operation = false)
          ⟨.ofHandle handle id, false⟩ operations) := by
  constructor
  · have hquiet : ∀ operation, operation.action (UnixSocketConnection.fatal operation) ≠ .fail ↔
        UnixSocketConnection.fatal operation = false := by
      intro operation
      rw [Ne, Operation.action_eq_fail, Bool.not_eq_true]
      rintro (rfl | rfl) <;> rfl
    have hexact := (UnixSocketConnection.operate_owns fd).throughout_balanced_iff
      ⟨.ofFd fd id, false⟩ operations
      (fun _ => rfl) rfl
    simp only [hquiet] at hexact
    exact hexact
  · have hquiet : ∀ operation, operation.action (NamedPipeConnection.fatal operation) ≠ .fail ↔
        NamedPipeConnection.fatal operation = false := by
      intro operation
      rw [Ne, Operation.action_eq_fail, Bool.not_eq_true]
      rintro (rfl | rfl) <;> rfl
    have hexact := (NamedPipeConnection.operate_owns handle).throughout_balanced_iff
      ⟨.ofHandle handle id, false⟩
      operations (fun _ => rfl) rfl
    simp only [hquiet] at hexact
    exact hexact

/-- Whatever fails, the descriptor is never passed to `::close` twice. -/
theorem closed_at_most_once {fd : Int} {id : Nat} {operations : List Operation}
    {life : Lifetime UnixSocketConnection}
    (hrun : run UnixSocketConnection.operate ⟨.ofFd fd id, false⟩ operations = some life) :
    life.conn.closed.count fd ≤ 1 := by
  have hfirst : (UnixSocketConnection.view fd ⟨.ofFd fd id, false⟩).AtMostOnce := Nat.le_refl 0
  have honce : life.conn.closed.count fd ≤ if life.conn.connected then 0 else 1 :=
    (UnixSocketConnection.operate_owns fd).atMostOnce (fun _ => rfl) hfirst hrun
  split at honce <;> omega

/-- A peer that has gone away: the `send` fails, and neither `close` nor the
destructor passes the descriptor to `::close`. -/
theorem not_releasedOnce_after_failed_send :
    ¬ ∀ (fd : Int) (id : Nat) (operations : List Operation),
      Throughout UnixSocketConnection.operate (UnixSocketConnection.ReleasedOnce fd)
        ⟨.ofFd fd id, false⟩ operations := by
  intro hall
  obtain ⟨-, halong⟩ := hall 3 1 [.send [1] [.failed .EPIPE], .close, .destroy]
  obtain ⟨-, halong⟩ := halong _ rfl
  obtain ⟨-, halong⟩ := halong _ rfl
  obtain ⟨hleak, -⟩ := halong _ rfl
  exact absurd hleak (by decide)

end Ibridger.Cpp
