import Ibridger.Cpp.Endpoints
import Ibridger.Js.UnixSocketServer

/-! # Servers that follow each other on one path

Transports of both SDKs listen on one path and close. The steps of their system calls
come in any order, as when an old server shuts down while its replacement starts.
`close` unlinks whatever is at the path.
-/

namespace Ibridger.Protocol

open Transition

/-- An endpoint that `::bind` and `::unlink` find under one name. -/
structure SocketPath {Place : Type} (paths : Cpp.Paths Place) where
  endpoint : List UInt8
  place : Place
  address_eq : paths.address endpoint = .ok (.file place)
  unlinked_eq : paths.unlinked endpoint = .ok (.file place)

/-- The name that the path has. -/
def SocketPath.name {Place : Type} {paths : Cpp.Paths Place} (path : SocketPath paths) :
    Cpp.SocketName Place :=
  .file path.place

/-- A server transport of one of the SDKs. -/
inductive Party where
  | cpp (i : Nat)
  | js (i : Nat)
deriving DecidableEq

/-- What a step does with the path and with the socket of its transport. -/
inductive Act where
  | nothing
  /-- The path is unlinked for a new socket. -/
  | took
  /-- The new socket got the path, and listens. -/
  | bound (s : Nat)
  /-- The new socket got the path, but does not listen. -/
  | stranded (s : Nat)
  | refused
  /-- The transport closes its socket. -/
  | shut
  /-- The transport unlinks the path because it closes. -/
  | removed
  | shutRemoved
deriving DecidableEq

structure Servers (Place : Type) where
  files : SocketFiles (Cpp.SocketName Place)
  cpp : Nat → Cpp.UnixSocketTransport
  js : Nat → Js.UnixSocketServer
  /-- The socket of the latest `listen` of a transport that got the path. -/
  latest : Party → Option Nat
  /-- The socket that got the path last, until a `listen` takes the path or the
  transport of the socket removes it. -/
  maker : Option Nat
  /-- The socket of the last successful `listen`, until a `listen` takes the path or
  the transport of the socket closes. -/
  holder : Option Nat

inductive RestartEvent where
  | cppBeginListen (i : Nat) (error : Option Cpp.Errno)
  | cppFinishListen (i : Nat) (error : Option Cpp.Errno)
  | cppBeginClose (i : Nat)
  | cppFinishClose (i : Nat)
  | jsBeginListen (i : Nat)
  | jsFinishListen (i : Nat)
  | jsClose (i : Nat)
  | jsClosed (i : Nat)
deriving DecidableEq

/-- The transport that takes a step. -/
def RestartEvent.party : RestartEvent → Party
  | .cppBeginListen i _ | .cppFinishListen i _ | .cppBeginClose i | .cppFinishClose i => .cpp i
  | .jsBeginListen i | .jsFinishListen i | .jsClose i | .jsClosed i => .js i

namespace Servers

variable {Place : Type} [DecidableEq Place] {paths : Cpp.Paths Place} (path : SocketPath paths)

def init : Servers Place where
  files := .empty
  cpp := fun _ => .fresh
  js := fun _ => .fresh
  latest := fun _ => none
  maker := none
  holder := none

/-- The transport has closed its socket. -/
def noteShut (servers : Servers Place) (x : Party) : Servers Place :=
  { servers with
    holder := if servers.holder = servers.latest x then none else servers.holder }

/-- The transport has unlinked the path. -/
def noteRemoved (servers : Servers Place) (x : Party) : Servers Place :=
  { servers with maker := if servers.maker = servers.latest x then none else servers.maker }

def note (servers : Servers Place) (x : Party) : Act → Servers Place
  | .nothing => servers
  | .refused => servers
  | .took => { servers with maker := none, holder := none }
  | .bound s =>
      { servers with
        latest := Function.update servers.latest x (some s), maker := some s, holder := some s }
  | .stranded s =>
      { servers with latest := Function.update servers.latest x (some s), maker := some s }
  | .shut => servers.noteShut x
  | .removed => servers.noteRemoved x
  | .shutRemoved => (servers.noteShut x).noteRemoved x

def setCpp (servers : Servers Place) (i : Nat)
    (next : SocketFiles (Cpp.SocketName Place) × Cpp.UnixSocketTransport) : Servers Place :=
  { servers with files := next.1, cpp := Function.update servers.cpp i next.2 }

def setJs (servers : Servers Place) (i : Nat)
    (next : SocketFiles (Cpp.SocketName Place) × Js.UnixSocketServer) : Servers Place :=
  { servers with files := next.1, js := Function.update servers.js i next.2 }

/-- A step of one transport. -/
def move (servers : Servers Place) : RestartEvent → Option (Servers Place)
  | .cppBeginListen i error =>
      if (servers.cpp i).phase = .idle then
        some (servers.setCpp i
          (Cpp.UnixSocketTransport.beginListen paths servers.files (servers.cpp i) path.endpoint
            error).2)
      else none
  | .cppFinishListen i error =>
      match (servers.cpp i).phase, (servers.cpp i).serverFd with
      | .binding _, some s =>
          some (servers.setCpp i
            (Cpp.UnixSocketTransport.finishListen paths servers.files (servers.cpp i) s
              path.endpoint error).2)
      | _, _ => none
  | .cppBeginClose i =>
      if (servers.cpp i).phase = .idle then
        some (servers.setCpp i (Cpp.UnixSocketTransport.beginClose servers.files (servers.cpp i)))
      else none
  | .cppFinishClose i =>
      if (servers.cpp i).phase = .removing then
        some (servers.setCpp i
          (Cpp.UnixSocketTransport.finishClose paths servers.files (servers.cpp i)))
      else none
  | .jsBeginListen i =>
      if (servers.js i).binding then none
      else
        some (servers.setJs i
          (Js.UnixSocketServer.beginListen path.name servers.files (servers.js i)))
  | .jsFinishListen i =>
      match (servers.js i).binding, (servers.js i).handle with
      | true, some s =>
          some (servers.setJs i
            (Js.UnixSocketServer.finishListen path.name servers.files (servers.js i) s))
      | _, _ => none
  | .jsClose i =>
      if (servers.js i).binding then none
      else some (servers.setJs i (Js.UnixSocketServer.close path.name servers.files (servers.js i)))
  | .jsClosed i =>
      if (servers.js i).binding ∨ (servers.js i).closing = 0 then none
      else some (servers.setJs i (Js.UnixSocketServer.closed path.name servers.files (servers.js i)))

/-- The socket that a transport has. -/
def fd (servers : Servers Place) : Party → Option Nat
  | .cpp i => (servers.cpp i).serverFd
  | .js i => (servers.js i).handle

/-- What becomes of the path and of the socket when a `listen` binds. -/
def bindAct (servers : Servers Place) (x : Party) (error : Option Cpp.Errno) : Act :=
  match servers.fd x, servers.files.entry path.name, error with
  | none, _, _ => .nothing
  | some _, some _, _ => .refused
  | some s, none, none => .bound s
  | some s, none, some _ => .stranded s

def actOf (servers : Servers Place) : RestartEvent → Act
  | .cppBeginListen _ error => if error = none then .took else .nothing
  | .cppFinishListen i error => servers.bindAct path (.cpp i) error
  | .cppBeginClose _ => .shut
  | .cppFinishClose i => if (servers.cpp i).endpoint = [] then .nothing else .removed
  | .jsBeginListen _ => .took
  | .jsFinishListen i => servers.bindAct path (.js i) none
  | .jsClose i =>
      if (servers.js i).created ∧ (servers.js i).handle.isSome then .shutRemoved else .nothing
  | .jsClosed _ => .removed

/-- A step, with the record of whose path it is. -/
def step (servers : Servers Place) (event : RestartEvent) : Option (Servers Place) :=
  (servers.move path event).map fun next => next.note event.party (servers.actOf path event)

/-! ## What a step does -/

def inListen : Cpp.TransportPhase → Bool
  | .binding _ => true
  | .idle | .removing => false

/-- A transport is in `listen`, before the bind. -/
def binding (servers : Servers Place) : Party → Bool
  | .cpp i => inListen (servers.cpp i).phase
  | .js i => (servers.js i).binding

/-- What an act does to the entry of the path, to the sockets that listen, to how many
there are, to the socket of the transport and to whether it is binding. -/
inductive Effect (entry : Option Nat) (listening : Nat → Bool) (opened : Nat)
    (fd : Option Nat) (binding : Bool) :
    Act → Option Nat → (Nat → Bool) → Nat → Option Nat → Bool → Prop where
  | nothing {fd' : Option Nat} (hfd : fd' = fd ∨ fd' = none) :
      Effect entry listening opened fd binding .nothing entry listening opened fd' binding
  | took (hfree : binding = false) :
      Effect entry listening opened fd binding .took none listening (opened + 1) (some opened) true
  | bound {s : Nat} (hfd : fd = some s) (hbinding : binding = true) (hentry : entry = none) :
      Effect entry listening opened fd binding (.bound s) (some s)
        (Function.update listening s true) opened fd false
  | stranded {s : Nat} (hfd : fd = some s) (hbinding : binding = true) (hentry : entry = none) :
      Effect entry listening opened fd binding (.stranded s) (some s)
        (Function.update listening s false) opened none false
  | refused {s : Nat} (hfd : fd = some s) (hbinding : binding = true) :
      Effect entry listening opened fd binding .refused entry
        (Function.update listening s false) opened none false
  | idled (hfd : fd = none) (hfree : binding = false) :
      Effect entry listening opened fd binding .shut entry listening opened none false
  | shut {s : Nat} (hfd : fd = some s) (hfree : binding = false) :
      Effect entry listening opened fd binding .shut entry (Function.update listening s false)
        opened none false
  | removed (hfree : binding = false) :
      Effect entry listening opened fd binding .removed none listening opened fd binding
  | shutRemoved {s : Nat} (hfd : fd = some s) (hfree : binding = false) :
      Effect entry listening opened fd binding .shutRemoved none
        (Function.update listening s false) opened none false

/-- The effect that is seen in equal names and sockets. -/
theorem Effect.of_files {entry : Option Nat} {listening : Nat → Bool} {opened : Nat}
    {fd fd' : Option Nat} {binding binding' : Bool} {act : Act} {entry' seen : Option Nat}
    {listening' seenListening : Nat → Bool} {opened' seenOpened : Nat}
    (heffect : Effect entry listening opened fd binding act entry' listening' opened' fd' binding')
    (hentry : seen = entry') (hlistening : seenListening = listening')
    (hopened : seenOpened = opened') :
    Effect entry listening opened fd binding act seen seenListening seenOpened fd' binding' := by
  subst hentry hlistening hopened
  exact heffect

/-- A step of one transport is its act. -/
structure Moved (servers next : Servers Place) (event : RestartEvent) : Prop where
  effect : Effect (servers.files.entry path.name) servers.files.listening servers.files.opened
    (servers.fd event.party) (servers.binding event.party) (servers.actOf path event)
    (next.files.entry path.name) next.files.listening next.files.opened (next.fd event.party)
    (next.binding event.party)
  others : ∀ y, y ≠ event.party →
    next.fd y = servers.fd y ∧ next.binding y = servers.binding y
  latest_eq : next.latest = servers.latest
  maker_eq : next.maker = servers.maker
  holder_eq : next.holder = servers.holder

/-- The C++ transports listen on the path, if they have listened. -/
def OnPath (servers : Servers Place) : Prop :=
  ∀ i, (servers.cpp i).endpoint = [] ∨ (servers.cpp i).endpoint = path.endpoint

section Move

variable {path} {servers next : Servers Place} {i : Nat}

omit [DecidableEq Place] in
theorem moved_of_cpp {event : RestartEvent} (hparty : event.party = .cpp i)
    {after : SocketFiles (Cpp.SocketName Place) × Cpp.UnixSocketTransport}
    (heffect : Effect (servers.files.entry path.name) servers.files.listening servers.files.opened
      (servers.fd (.cpp i)) (servers.binding (.cpp i)) (servers.actOf path event)
      (after.1.entry path.name) after.1.listening after.1.opened after.2.serverFd
      (inListen after.2.phase)) :
    Moved path servers (servers.setCpp i after) event := by
  have hself : (servers.setCpp i after).cpp i = after.2 := Function.update_self ..
  have hfd : (servers.setCpp i after).fd (.cpp i) = after.2.serverFd := by rw [fd, hself]
  have hbinding : (servers.setCpp i after).binding (.cpp i) = inListen after.2.phase := by
    rw [binding, hself]
  refine ⟨?_, ?_, rfl, rfl, rfl⟩
  · rw [hparty, hfd, hbinding]
    exact heffect
  · intro y hy
    rw [hparty] at hy
    cases y with
    | cpp j =>
        have hother : (servers.setCpp i after).cpp j = servers.cpp j := by
          apply Function.update_of_ne
          rintro rfl
          exact hy rfl
        rw [fd, fd, binding, binding, hother]
        exact ⟨rfl, rfl⟩
    | js j => exact ⟨rfl, rfl⟩

omit [DecidableEq Place] in
theorem moved_of_js {event : RestartEvent} (hparty : event.party = .js i)
    {after : SocketFiles (Cpp.SocketName Place) × Js.UnixSocketServer}
    (heffect : Effect (servers.files.entry path.name) servers.files.listening servers.files.opened
      (servers.fd (.js i)) (servers.binding (.js i)) (servers.actOf path event)
      (after.1.entry path.name) after.1.listening after.1.opened after.2.handle
      after.2.binding) :
    Moved path servers (servers.setJs i after) event := by
  have hself : (servers.setJs i after).js i = after.2 := Function.update_self ..
  have hfd : (servers.setJs i after).fd (.js i) = after.2.handle := by rw [fd, hself]
  have hbinding : (servers.setJs i after).binding (.js i) = after.2.binding := by
    rw [binding, hself]
  refine ⟨?_, ?_, rfl, rfl, rfl⟩
  · rw [hparty, hfd, hbinding]
    exact heffect
  · intro y hy
    rw [hparty] at hy
    cases y with
    | cpp j => exact ⟨rfl, rfl⟩
    | js j =>
        have hother : (servers.setJs i after).js j = servers.js j := by
          apply Function.update_of_ne
          rintro rfl
          exact hy rfl
        rw [fd, fd, binding, binding, hother]
        exact ⟨rfl, rfl⟩

theorem closeFd_frame (files : SocketFiles (Cpp.SocketName Place)) (s : Nat) (place : Place) :
    (Cpp.UnixSocketTransport.closeFd files s).entry (.file place) = files.entry (.file place) ∧
      (Cpp.UnixSocketTransport.closeFd files s).listening =
        Function.update files.listening s false ∧
      (Cpp.UnixSocketTransport.closeFd files s).opened = files.opened := by
  refine ⟨?_, ?_, ?_⟩
  · rw [Cpp.Transports.closeFd_entry, if_neg (fun h => (by cases h.1))]
  all_goals
    unfold Cpp.UnixSocketTransport.closeFd
    split <;> rfl

theorem cppBeginListen_moved {error : Option Cpp.Errno}
    (hphase : (servers.cpp i).phase = .idle) :
    Moved path servers
      (servers.setCpp i (Cpp.UnixSocketTransport.beginListen paths servers.files (servers.cpp i)
        path.endpoint error).2) (.cppBeginListen i error) := by
  apply moved_of_cpp rfl
  have hfree : servers.binding (.cpp i) = false := by rw [binding, hphase, inListen]
  unfold Cpp.UnixSocketTransport.beginListen actOf
  cases error with
  | some err =>
      dsimp only
      rw [if_neg (by simp), hphase, hfree, inListen]
      exact .nothing (.inr rfl)
  | none =>
      dsimp only
      rw [Cpp.Transports.unlink_of_unlinked path.unlinked_eq, SocketFiles.unlink_entry,
        SocketPath.name, if_pos rfl, if_pos rfl]
      exact .took hfree

/-- What both languages do when they bind. -/
theorem bind_effect {s : Nat} {bound : SocketFiles (Cpp.SocketName Place)}
    (hbind : servers.files.bind path.name s = some bound) :
    servers.files.entry path.name = none ∧ bound.entry path.name = some s ∧
      bound.listening = servers.files.listening ∧ bound.opened = servers.files.opened := by
  obtain ⟨hfree, rfl⟩ := SocketFiles.bind_eq_some.mp hbind
  exact ⟨hfree, Function.update_self .., rfl, rfl⟩

theorem bind_eq_none {s : Nat} (hbind : servers.files.bind path.name s = none) :
    ∃ other, servers.files.entry path.name = some other := by
  unfold SocketFiles.bind at hbind
  split at hbind
  · cases hbind
  next other hother => exact ⟨other, hother⟩

theorem cppFinishListen_moved {error : Option Cpp.Errno} {endpoint : List UInt8} {s : Nat}
    (hphase : (servers.cpp i).phase = .binding endpoint)
    (hserver : (servers.cpp i).serverFd = some s) :
    Moved path servers
      (servers.setCpp i (Cpp.UnixSocketTransport.finishListen paths servers.files (servers.cpp i) s
        path.endpoint error).2) (.cppFinishListen i error) := by
  apply moved_of_cpp rfl
  have hfd : servers.fd (.cpp i) = some s := hserver
  have hbinding : servers.binding (.cpp i) = true := by rw [binding, hphase, inListen]
  have haddress : paths.address path.endpoint = .ok path.name := path.address_eq
  unfold Cpp.UnixSocketTransport.finishListen actOf bindAct
  rw [haddress]
  dsimp only
  cases hbind : servers.files.bind path.name s with
  | none =>
      obtain ⟨other, hother⟩ := bind_eq_none hbind
      obtain ⟨hentry, hlistening, hopened⟩ := closeFd_frame servers.files s path.place
      dsimp only
      rw [hfd, hbinding, hother]
      apply (Effect.refused rfl rfl).of_files (hentry.trans hother) hlistening hopened
  | some bound =>
      obtain ⟨hfree, hentry, hlistening, hopened⟩ := bind_effect hbind
      cases error with
      | none =>
          dsimp only
          rw [hfd, hbinding, hfree, hserver]
          apply (Effect.bound rfl rfl rfl).of_files hentry _ hopened
          rw [SocketFiles.listen, hlistening]
      | some err =>
          obtain ⟨hkept, hshut, hsame⟩ := closeFd_frame bound s path.place
          dsimp only
          rw [hfd, hbinding, hfree]
          apply (Effect.stranded rfl rfl rfl).of_files (hkept.trans hentry) _ (hsame.trans hopened)
          rw [hshut, hlistening]

theorem cppBeginClose_moved (hphase : (servers.cpp i).phase = .idle) :
    Moved path servers
      (servers.setCpp i (Cpp.UnixSocketTransport.beginClose servers.files (servers.cpp i)))
      (.cppBeginClose i) := by
  apply moved_of_cpp rfl
  have hfree : servers.binding (.cpp i) = false := by rw [binding, hphase, inListen]
  have hfd : servers.fd (.cpp i) = (servers.cpp i).serverFd := rfl
  unfold Cpp.UnixSocketTransport.beginClose actOf
  dsimp only
  rw [hfree, hfd, inListen]
  cases hserver : (servers.cpp i).serverFd with
  | none => exact .idled rfl rfl
  | some s =>
      obtain ⟨hentry, hlistening, hopened⟩ := closeFd_frame servers.files s path.place
      exact (Effect.shut rfl rfl).of_files hentry hlistening hopened

theorem cppFinishClose_moved (honPath : OnPath path servers)
    (hphase : (servers.cpp i).phase = .removing) :
    Moved path servers
      (servers.setCpp i (Cpp.UnixSocketTransport.finishClose paths servers.files (servers.cpp i)))
      (.cppFinishClose i) := by
  apply moved_of_cpp rfl
  have hfree : servers.binding (.cpp i) = false := by rw [binding, hphase, inListen]
  have hfd : servers.fd (.cpp i) = (servers.cpp i).serverFd := rfl
  unfold Cpp.UnixSocketTransport.finishClose actOf
  dsimp only
  rw [hfree, hfd]
  by_cases hendpoint : (servers.cpp i).endpoint = []
  · rw [if_pos hendpoint, if_pos hendpoint]
    exact .nothing (.inl rfl)
  · have hon := (honPath i).resolve_left hendpoint
    rw [if_neg hendpoint, if_neg hendpoint, hon,
      Cpp.Transports.unlink_of_unlinked path.unlinked_eq]
    apply (Effect.removed rfl).of_files _ rfl rfl
    rw [SocketFiles.unlink_entry, SocketPath.name, if_pos rfl]

theorem jsBeginListen_moved (hfree : (servers.js i).binding = false) :
    Moved path servers
      (servers.setJs i (Js.UnixSocketServer.beginListen path.name servers.files (servers.js i)))
      (.jsBeginListen i) := by
  apply moved_of_js rfl
  apply (Effect.took hfree).of_files _ rfl rfl
  exact Function.update_self ..

theorem jsFinishListen_moved {s : Nat} (hbinding : (servers.js i).binding = true)
    (hhandle : (servers.js i).handle = some s) :
    Moved path servers
      (servers.setJs i (Js.UnixSocketServer.finishListen path.name servers.files (servers.js i) s))
      (.jsFinishListen i) := by
  apply moved_of_js rfl
  have hfd : servers.fd (.js i) = some s := hhandle
  have hlistens : servers.binding (.js i) = true := hbinding
  unfold Js.UnixSocketServer.finishListen actOf bindAct
  cases hbind : servers.files.bind path.name s with
  | none =>
      obtain ⟨other, hother⟩ := bind_eq_none hbind
      dsimp only
      rw [hfd, hlistens, hother]
      exact (Effect.refused rfl rfl).of_files hother rfl rfl
  | some bound =>
      obtain ⟨hfree, hentry, hlistening, hopened⟩ := bind_effect hbind
      dsimp only
      rw [hfd, hlistens, hfree, hhandle]
      apply (Effect.bound rfl rfl rfl).of_files hentry _ hopened
      rw [SocketFiles.listen, hlistening]

theorem jsClose_moved (hfree : (servers.js i).binding = false) :
    Moved path servers
      (servers.setJs i (Js.UnixSocketServer.close path.name servers.files (servers.js i)))
      (.jsClose i) := by
  apply moved_of_js rfl
  have hidle : servers.binding (.js i) = false := hfree
  have hfd : servers.fd (.js i) = (servers.js i).handle := rfl
  unfold Js.UnixSocketServer.close actOf
  by_cases hcreated : (servers.js i).created = true
  · cases hhandle : (servers.js i).handle with
    | none =>
        simp only [hcreated, if_true, Option.isSome_none, Bool.false_eq_true, and_false, if_false,
          hidle, hfree, hfd, hhandle]
        exact .nothing (.inl rfl)
    | some s =>
        simp only [hcreated, if_true, Option.isSome_some, and_self, hidle, hfree, hfd, hhandle]
        apply (Effect.shutRemoved rfl rfl).of_files _ rfl rfl
        exact Function.update_self ..
  · simp only [hcreated, Bool.false_eq_true, if_false, false_and, hidle, hfree, hfd]
    exact .nothing (.inl rfl)

theorem jsClosed_moved (hfree : (servers.js i).binding = false) :
    Moved path servers
      (servers.setJs i (Js.UnixSocketServer.closed path.name servers.files (servers.js i)))
      (.jsClosed i) := by
  apply moved_of_js rfl
  apply (Effect.removed hfree).of_files _ rfl rfl
  exact Function.update_self ..

/-- What any step does with the path. -/
theorem move_moved {event : RestartEvent} (honPath : OnPath path servers)
    (hmove : servers.move path event = some next) : Moved path servers next event := by
  cases event with
  | cppBeginListen i error =>
      obtain ⟨hphase, hnext⟩ := Option.ite_none_right_eq_some.mp hmove
      cases hnext
      exact cppBeginListen_moved hphase
  | cppFinishListen i error =>
      simp only [move] at hmove
      split at hmove
      next hphase hserver =>
        cases hmove
        exact cppFinishListen_moved hphase hserver
      next => cases hmove
  | cppBeginClose i =>
      obtain ⟨hphase, hnext⟩ := Option.ite_none_right_eq_some.mp hmove
      cases hnext
      exact cppBeginClose_moved hphase
  | cppFinishClose i =>
      obtain ⟨hphase, hnext⟩ := Option.ite_none_right_eq_some.mp hmove
      cases hnext
      exact cppFinishClose_moved honPath hphase
  | jsBeginListen i =>
      obtain ⟨hfree, hnext⟩ := Option.ite_none_left_eq_some.mp hmove
      cases hnext
      exact jsBeginListen_moved (by simpa using hfree)
  | jsFinishListen i =>
      simp only [move] at hmove
      split at hmove
      next hbinding hhandle =>
        cases hmove
        exact jsFinishListen_moved hbinding hhandle
      next => cases hmove
  | jsClose i =>
      obtain ⟨hfree, hnext⟩ := Option.ite_none_left_eq_some.mp hmove
      cases hnext
      exact jsClose_moved (by simpa using hfree)
  | jsClosed i =>
      obtain ⟨hfree, hnext⟩ := Option.ite_none_left_eq_some.mp hmove
      cases hnext
      exact jsClosed_moved (by simpa using fun h => hfree (.inl h))

end Move

end Servers

end Ibridger.Protocol
