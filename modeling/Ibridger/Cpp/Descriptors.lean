import Ibridger.Cpp.Handles
import Mathlib.Data.Finset.Filter

/-! # The descriptors of a process

The transports of `unix_socket_transport.cpp` in one process and the connections that they
have made, with the descriptors that `::socket` and `::accept` have opened and `::close`
has not closed. The kernel may give out any number that is not open, so also one that has
just been closed. What `listen` and `close` do to the file of the endpoint is left to
`UnixSocketTransport`.
-/

namespace Ibridger.Cpp

open Transition

/-- `server_fd_` and `next_id_` of a transport; `none` is `-1`. -/
structure ServerSocket where
  serverFd : Option Nat
  nextId : Nat
deriving DecidableEq

abbrev Descriptors : Type := Handles ServerSocket UnixSocketConnection

/-- A call on transport `i` or on connection `c`, with what its system calls come to. -/
inductive DescriptorEvent where
  /-- `error` is that of `::bind` or `::listen`. -/
  | listen (i : Nat) (socket : Except Errno Nat) (error : Option Errno)
  | accept (i : Nat) (result : Except Errno Nat)
  /-- `error` is that of `::connect`. -/
  | connect (i : Nat) (socket : Except Errno Nat) (error : Option Errno)
  | close (i : Nat)
  | operate (c : Nat) (operation : Operation)

/-- The object that the call is made on: a transport on the left, a connection on the right. -/
def DescriptorEvent.object : DescriptorEvent → Nat ⊕ Nat
  | .listen i _ _ | .accept i _ | .connect i _ _ | .close i => .inl i
  | .operate c _ => .inr c

/-- The descriptor that the kernel opens in the call. -/
def DescriptorEvent.given : DescriptorEvent → Option Nat
  | .listen _ result _ | .accept _ result | .connect _ result _ => result.toOption
  | .close _ | .operate _ _ => none

namespace Descriptors

/-- `fd_`, where it is not `-1` and the object is there. -/
def fdOf (life : Lifetime UnixSocketConnection) : Option Nat :=
  if life.destroyed ∨ life.conn.fd < 0 then none else some life.conn.fd.toNat

def cls : HandleClass ServerSocket UnixSocketConnection where
  server := ServerSocket.serverFd
  holds := fdOf
  connected := UnixSocketConnection.connected

def init : Descriptors where
  opened := ∅
  transports := fun _ => ⟨none, 1⟩
  conns := []

/-- `server_fd_` is set. -/
def setServer (process : Descriptors) (i : Nat) (fd : Option Nat) (opened : Finset Nat) :
    Descriptors :=
  process.setTransport i { process.transports i with serverFd := fd } opened

/-- `std::make_unique<UnixSocketConnection>(fd, next_id_++)`. -/
def connection (process : Descriptors) (i fd : Nat) : Descriptors :=
  process.makeConnection i
    { process.transports i with nextId := (process.transports i).nextId + 1 }
    (.ofFd fd (process.transports i).nextId) (insert fd process.opened)

/-- What an operation on a connection has passed to `::close`. -/
def closedBy (before after : Lifetime UnixSocketConnection) : List Int :=
  after.conn.closed.drop before.conn.closed.length

/-- What is left open behind it. -/
def leftOpen (opened : Finset Nat) (before after : Lifetime UnixSocketConnection) : Finset Nat :=
  opened.filter fun fd : Nat => (fd : Int) ∉ closedBy before after

def step (process : Descriptors) : DescriptorEvent → Option Descriptors
  | .listen i (.error _) _ => some (setServer process i none process.opened)
  | .listen i (.ok fd) error =>
      if fd ∈ process.opened then none
      else
        match error with
        | some _ => some (setServer process i none process.opened)
        | none => some (setServer process i (some fd) (insert fd process.opened))
  | .accept _ (.error _) => some process
  | .accept i (.ok fd) =>
      if fd ∈ process.opened ∨ (process.transports i).serverFd = none then none
      else some (connection process i fd)
  | .connect _ (.error _) _ => some process
  | .connect i (.ok fd) error =>
      if fd ∈ process.opened then none
      else
        match error with
        | some _ => some process
        | none => some (connection process i fd)
  | .close i =>
      match (process.transports i).serverFd with
      | none => some process
      | some fd => some (setServer process i none (process.opened.erase fd))
  | .operate c operation =>
      match process.conns[c]? with
      | none => none
      | some life =>
          (UnixSocketConnection.operate life operation).map fun after =>
            process.setConnection c after (leftOpen process.opened life after)

/-- The arguments of the `::close` calls that a call makes. -/
def closings (process : Descriptors) : DescriptorEvent → List Int
  | .listen _ (.ok fd) (some _) | .connect _ (.ok fd) (some _) => [fd]
  | .close i => (process.transports i).serverFd.toList.map Int.ofNat
  | .operate c operation =>
      match process.conns[c]? with
      | none => []
      | some life =>
          match UnixSocketConnection.operate life operation with
          | none => []
          | some after => closedBy life after
  | .listen _ _ _ | .accept _ _ | .connect _ _ _ => []

/-- The call leaves a descriptor open that no object is going to close: a transport that
listens is told to listen, or a `send` or `recv` that finds its connection connected ends in
an error or at the end of the stream. -/
def Leaks (process : Descriptors) : DescriptorEvent → Prop
  | .listen i _ _ => (process.transports i).serverFd ≠ none
  | .operate c operation => ∃ life, process.conns[c]? = some life ∧
      life.conn.connected = true ∧ UnixSocketConnection.fatal operation = true
  | .accept _ _ | .connect _ _ _ | .close _ => False

/-- What the call closes is what its object holds, or what the kernel has given out in it. -/
def ClosesOwn (process : Descriptors) (event : DescriptorEvent) : Prop :=
  ∀ fd ∈ closings process event, ∃ number : Nat, fd = number ∧
    (event.given = some number ∨ (process.table cls).held event.object = some number)

end Descriptors

namespace UnixSocketConnection

/-- A `send` or `recv` leaves the descriptor alone, and a close lets it go. -/
theorem operate_cases {life after : Lifetime UnixSocketConnection} {operation : Operation}
    (hoperate : operate life operation = some after) :
    life.destroyed = false ∧
      ((after.destroyed = false ∧ after.conn.fd = life.conn.fd ∧
          after.conn.closed = life.conn.closed ∧
          after.conn.connected = (life.conn.connected && !fatal operation)) ∨
        fatal operation = false ∧ after.conn = life.conn.close) := by
  unfold operate at hoperate
  split at hoperate
  · cases hoperate
  next hlives =>
    refine ⟨Bool.eq_false_iff.mpr hlives, ?_⟩
    cases operation with
    | send data outcomes =>
        cases hsend : (life.conn.withSends outcomes).send data with
        | none => simp [hsend] at hoperate
        | some result =>
            simp only [hsend] at hoperate
            split at hoperate
            next hused =>
              cases hoperate
              obtain ⟨hflag, hclosed, hfd⟩ := sendLoop_fatal hsend hused
              exact .inl ⟨Bool.eq_false_iff.mpr hlives, hfd, hclosed, hflag⟩
            · cases hoperate
    | recv len outcomes =>
        cases hrecv : (life.conn.withReads outcomes).recv len with
        | none => simp [hrecv] at hoperate
        | some result =>
            simp only [hrecv] at hoperate
            split at hoperate
            next hused =>
              cases hoperate
              obtain ⟨hflag, hclosed, hfd⟩ := recvLoop_fatal hrecv hused
              exact .inl ⟨Bool.eq_false_iff.mpr hlives, hfd, hclosed, hflag⟩
            · cases hoperate
    | close =>
        cases hoperate
        exact .inr ⟨rfl, rfl⟩
    | destroy =>
        cases hoperate
        exact .inr ⟨rfl, rfl⟩

end UnixSocketConnection

namespace Descriptors

variable {process next : Descriptors} {life after : Lifetime UnixSocketConnection} {i fd : Nat}

/-! ## Operations on a connection -/

theorem fdOf_ofFd (fd id : Nat) : fdOf ⟨.ofFd fd id, false⟩ = some fd := by
  simp [fdOf, UnixSocketConnection.ofFd]

theorem fdOf_eq_some (hheld : fdOf life ≠ none) :
    ∃ number : Nat, life.conn.fd = number ∧ fdOf life = some number := by
  rw [fdOf] at hheld ⊢
  split at hheld
  next => exact absurd rfl hheld
  next hopen => exact ⟨life.conn.fd.toNat, by omega, if_neg hopen⟩

theorem leftOpen_of_nil (opened : Finset Nat) (hclosed : closedBy life after = []) :
    leftOpen opened life after = opened := by
  rw [leftOpen, hclosed]
  exact Finset.filter_true_of_mem fun _ _ => List.not_mem_nil

theorem leftOpen_of_one (opened : Finset Nat) (hclosed : closedBy life after = [(fd : Int)]) :
    leftOpen opened life after = opened.erase fd := by
  ext other
  rw [leftOpen, hclosed, Finset.mem_filter, Finset.mem_erase, List.mem_singleton, and_comm,
    Int.ofNat_inj]

/-- What an operation closes is the descriptor of the connection. -/
theorem operated {operation : Operation} (opened : Finset Nat)
    (hheld : life.conn.connected = true → fdOf life ≠ none)
    (hoperate : UnixSocketConnection.operate life operation = some after) :
    (∀ fd ∈ closedBy life after, ∃ number : Nat, fd = number ∧ fdOf life = some number) ∧
      Handles.Operated cls life after (UnixSocketConnection.fatal operation) opened
        (leftOpen opened life after) := by
  have hnothing : closedBy life after = [] →
      ∀ fd ∈ closedBy life after, ∃ number : Nat, fd = number ∧ fdOf life = some number := by
    intro hnone fd hmem
    rw [hnone] at hmem
    cases hmem
  obtain ⟨hlives, ⟨hafter, hsame, hclosed, hconnected⟩ | ⟨hquiet, hclose⟩⟩ :=
    UnixSocketConnection.operate_cases hoperate
  · have hnone : closedBy life after = [] := by rw [closedBy, hclosed, List.drop_length]
    rw [leftOpen_of_nil _ hnone]
    refine ⟨hnothing hnone, .kept ?_ hconnected⟩
    change fdOf after = fdOf life
    rw [fdOf, fdOf, hafter, hlives, hsame]
  cases hlive : life.conn.connected with
  | true =>
      obtain ⟨number, hnumber, hholds⟩ := fdOf_eq_some (hheld hlive)
      rw [UnixSocketConnection.close, if_pos hlive] at hclose
      have hone : closedBy life after = [(number : Int)] := by
        rw [closedBy, hclose, List.drop_left, hnumber]
      have hgone : fdOf after = none := by
        rw [fdOf, hclose]
        exact if_pos (.inr (Int.negSucc_lt_zero 0))
      rw [leftOpen_of_one _ hone]
      refine ⟨?_, .closed number hlive hholds hgone ?_ hquiet⟩
      · intro fd hmem
        rw [hone, List.mem_singleton] at hmem
        exact ⟨number, hmem, hholds⟩
      · change after.conn.connected = false
        rw [hclose]
  | false =>
      rw [UnixSocketConnection.close, hlive] at hclose
      have hnone : closedBy life after = [] := by
        rw [closedBy, hclose]
        exact List.drop_length
      have hconnected : after.conn.connected = false := by
        rw [hclose]
        exact hlive
      rw [leftOpen_of_nil _ hnone]
      refine ⟨hnothing hnone, ?_⟩
      -- the object may be gone, and with it the number that it would not have closed
      by_cases hdestroyed : after.destroyed = true
      · exact .lost hlive (if_pos (.inl hdestroyed)) hconnected
      · refine .kept ?_ ?_
        · change fdOf after = fdOf life
          rw [fdOf, fdOf, hlives, Bool.eq_false_iff.mpr hdestroyed, hclose]
          rfl
        · change after.conn.connected = (life.conn.connected && _)
          rw [hconnected, hlive, Bool.false_and]

/-! ## Runs -/

theorem connection_turn (hnew : fd ∉ process.opened) :
    HandleTable.Turn (process.table cls) False ((connection process i fd).table cls) :=
  Handles.makeConnection_turn hnew rfl (fdOf_ofFd ..) rfl

theorem connection_upright (hupright : process.Upright cls) (i fd : Nat) :
    (connection process i fd).Upright cls := by
  have hholds : cls.holds ⟨.ofFd fd (process.transports i).nextId, false⟩ = some fd :=
    fdOf_ofFd ..
  refine Handles.makeConnection_upright hupright ?_
  rw [hholds]
  exact Option.some_ne_none _

theorem step_turn {event : DescriptorEvent} (hupright : process.Upright cls)
    (hstep : step process event = some next) :
    next.Upright cls ∧ ClosesOwn process event ∧
      HandleTable.Turn (process.table cls) (Leaks process event) (next.table cls) := by
  have hnothing : closings process event = [] → ClosesOwn process event := by
    intro hclosings fd hmem
    rw [hclosings] at hmem
    cases hmem
  -- a descriptor that the call opens and closes again
  have hagain : ∀ fd : Nat, closings process event = [(fd : Int)] → event.given = some fd →
      ClosesOwn process event := by
    intro fd hclosings hgiven closed hmem
    rw [hclosings, List.mem_singleton] at hmem
    exact ⟨fd, hmem, .inl hgiven⟩
  cases event with
  | listen i socket error =>
      have hleaks : Leaks process (.listen i socket error) ↔
          (process.table cls).held (.inl i) ≠ none ∧ (process.table cls).closes (.inl i) = true := by
        rw [Handles.listening_iff]
        rfl
      cases socket with
      | error err =>
          cases hstep
          refine ⟨hupright, hnothing rfl, ?_⟩
          rw [setServer, Handles.setTransport_table]
          exact .drop (Sum.inl i) hleaks
      | ok fd =>
          simp only [step] at hstep
          split at hstep
          · cases hstep
          next hnew =>
            cases error with
            | some err =>
                cases hstep
                refine ⟨hupright, hagain fd rfl rfl, ?_⟩
                rw [setServer, Handles.setTransport_table]
                exact .drop (Sum.inl i) hleaks
            | none =>
                cases hstep
                refine ⟨hupright, hnothing rfl, ?_⟩
                rw [setServer, Handles.setTransport_table]
                exact .give (Sum.inl i) fd hnew hleaks
  | accept i result =>
      cases result with
      | error err =>
          cases hstep
          exact ⟨hupright, hnothing rfl, .same id⟩
      | ok fd =>
          simp only [step] at hstep
          split at hstep
          · cases hstep
          next hnew =>
            cases hstep
            exact ⟨connection_upright hupright i fd, hnothing rfl,
              connection_turn fun hopened => hnew (.inl hopened)⟩
  | connect i socket error =>
      cases socket with
      | error err =>
          cases hstep
          exact ⟨hupright, hnothing rfl, .same id⟩
      | ok fd =>
          simp only [step] at hstep
          split at hstep
          · cases hstep
          next hnew =>
            cases error with
            | some err =>
                cases hstep
                exact ⟨hupright, hagain fd rfl rfl, .same id⟩
            | none =>
                cases hstep
                exact ⟨connection_upright hupright i fd, hnothing rfl, connection_turn hnew⟩
  | close i =>
      simp only [step] at hstep
      split at hstep
      next hnone =>
        cases hstep
        refine ⟨hupright, hnothing ?_, .same id⟩
        rw [closings, hnone]
        rfl
      next fd hfd =>
        cases hstep
        refine ⟨hupright, ?_, ?_⟩
        · intro closed hmem
          rw [closings, hfd] at hmem
          exact ⟨fd, List.mem_singleton.mp hmem, .inr hfd⟩
        · rw [setServer, Handles.setTransport_table]
          exact .shut (Sum.inl i) fd hfd (Handles.closes_of_server hfd) id
  | operate c operation =>
      simp only [step] at hstep
      split at hstep
      · cases hstep
      next life hlife =>
        obtain ⟨after, hoperate, rfl⟩ := Option.map_eq_some_iff.mp hstep
        obtain ⟨hclosed, hoperated⟩ :=
          operated process.opened (hupright life (List.mem_of_getElem? hlife)) hoperate
        obtain ⟨hnext, hturn⟩ := Handles.operated_turn hlife hupright hoperated
        refine ⟨hnext, ?_, ?_⟩
        · intro fd hmem
          simp only [closings, hlife, hoperate] at hmem
          obtain ⟨number, hnumber, hholds⟩ := hclosed fd hmem
          refine ⟨number, hnumber, .inr ?_⟩
          rw [DescriptorEvent.object, Handles.held_conn, hlife]
          exact hholds
        · have hleaks : Leaks process (.operate c operation) ↔
              life.conn.connected = true ∧ UnixSocketConnection.fatal operation = true := by
            rw [Leaks, hlife]
            simp
          rw [hleaks]
          exact hturn

theorem step_turns : HandleTable.Turns step (Handles.Upright cls) (Handles.table cls) Leaks where
  keeps _ _ _ hupright hstep := (step_turn hupright hstep).1
  turns _ _ _ hupright hstep := (step_turn hupright hstep).2.2

theorem init_table : Handles.table cls init = HandleTable.empty := by
  ext1
  · rfl
  · funext owner
    cases owner with
    | inl i => rfl
    | inr c => rfl
  · funext owner
    cases owner with
    | inl i => rfl
    | inr c => rfl

/-- In every run of transports and their connections, whatever numbers the kernel gives out
again, no two objects hold one descriptor, each that is held is open, and a call closes
only what its object holds or what it has itself opened. Every open descriptor has an object
that will close it throughout the run exactly when no transport that listens is told to
listen, and no `send` or `recv` that finds its connection connected ends in an error or at
the end of the stream: each such call leaves one descriptor open for good. -/
theorem descriptors_owned (events : List DescriptorEvent) :
    Throughout step (fun process => (process.table cls).Sound) init events ∧
      Guarded step ClosesOwn init events ∧
      (Throughout step (fun process => (process.table cls).Accounted) init events ↔
        Guarded step (fun process event => ¬ Leaks process event) init events) ∧
      ∀ last, run step init events = some last →
        (last.table cls).lost.card = countAlong step Leaks init events := by
  have hupright : init.Upright cls := fun _ hmem => absurd hmem List.not_mem_nil
  have hsound : (init.table cls).Sound := by
    rw [init_table]
    exact HandleTable.empty_sound
  have hlost : (init.table cls).lost = ∅ := by
    rw [init_table]
    exact HandleTable.empty_lost
  have haccounted := HandleTable.accounted_iff_lost.mpr hlost
  refine ⟨step_turns.throughout_sound init events hupright hsound, ?_,
    step_turns.throughout_accounted_iff init events hupright hsound haccounted, ?_⟩
  · refine Along.of_guarded (Handles.Upright cls) ?_ hupright (guarded_true init events)
    rintro process event next hupright - hstep
    obtain ⟨hnext, hcloses, -⟩ := step_turn hupright hstep
    exact ⟨hnext, hcloses⟩
  · intro last hrun
    rw [step_turns.card_lost hupright hsound hrun, hlost, Finset.card_empty, Nat.zero_add]

end Descriptors

end Ibridger.Cpp
