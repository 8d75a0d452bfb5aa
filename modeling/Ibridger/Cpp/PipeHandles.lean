import Ibridger.Cpp.Handles
import Ibridger.Cpp.UnixSocketTransport
import Mathlib.Data.Finset.Filter

/-! # The pipe handles of a process

The transports of `named_pipe_transport.cpp` in one process, as it is compiled on Windows,
and the connections that they have made. A transport that accepts hands its own handle to
the connection and creates another instance of the pipe for the next one, under the name
in `endpoint_`.
-/

namespace Ibridger.Cpp

open Transition

def Errno.ERROR_PIPE_CONNECTED : Errno := ⟨535, by decide⟩

/-- The number is the one of `ENOENT`. -/
def Errno.ERROR_FILE_NOT_FOUND : Errno := .ENOENT

/-- `\\.\pipe\`. -/
def pipePrefix : List UInt8 := [92, 92, 46, 92, 112, 105, 112, 101, 92]

def normalisePipeName (endpoint : List UInt8) : List UInt8 :=
  if pipePrefix.isPrefixOf endpoint then endpoint else pipePrefix ++ endpoint

/-- `server_handle_`, `endpoint_` and `next_id_` of a transport; `none` is
`INVALID_HANDLE_VALUE`. -/
structure ServerPipe where
  serverHandle : Option Nat
  endpoint : List UInt8
  nextId : Nat
deriving DecidableEq

structure PipeHandles extends Handles ServerPipe NamedPipeConnection where
  /-- The name that the instance of a handle was last created under. -/
  named : Nat → List UInt8

/-- A call on transport `i` or on connection `c`, with what its system calls come to, as far
as it gets to them. -/
inductive PipeEvent where
  | listen (i : Nat) (endpoint : List UInt8) (created : Except Errno Nat)
  | accept (i : Nat) (failed : Option Errno) (created : Except Errno Nat)
  | connect (i : Nat) (endpoint : List UInt8) (wait : Option Errno) (file : Except Errno Nat)
  | close (i : Nat)
  | operate (c : Nat) (operation : Operation)

/-- The object that the call is made on: a transport on the left, a connection on the right. -/
def PipeEvent.object : PipeEvent → Nat ⊕ Nat
  | .listen i _ _ | .accept i _ _ | .connect i _ _ _ | .close i => .inl i
  | .operate c _ => .inr c

namespace PipeHandles

/-- `handle_`, where it is not null and the object is there. -/
def handleOf (life : Lifetime NamedPipeConnection) : Option Nat :=
  if life.destroyed then none else life.conn.handle

def cls : HandleClass ServerPipe NamedPipeConnection where
  server := ServerPipe.serverHandle
  holds := handleOf
  connected := NamedPipeConnection.connected

def init : PipeHandles where
  opened := ∅
  transports := fun _ => ⟨none, [], 1⟩
  conns := []
  named := fun _ => []

/-- `create_pipe_instance` has created the instance of a handle. -/
def create (process : PipeHandles) (handle : Nat) (endpoint : List UInt8) : PipeHandles :=
  { process with named := Function.update process.named handle (cStr endpoint) }

def setTransport (process : PipeHandles) (i : Nat) (transport : ServerPipe)
    (opened : Finset Nat) : PipeHandles :=
  { process with toHandles := process.toHandles.setTransport i transport opened }

/-- `std::make_unique<NamedPipeConnection>(handle, id)`, by transport `i`. -/
def makeConnection (process : PipeHandles) (i : Nat) (transport : ServerPipe)
    (handle id : Nat) (opened : Finset Nat) : PipeHandles :=
  { process with
    toHandles := process.toHandles.makeConnection i transport (.ofHandle handle id) opened }

/-- What an operation on a connection has passed to `CloseHandle`. -/
def closedBy (before after : Lifetime NamedPipeConnection) : List (Option Nat) :=
  after.conn.closed.drop before.conn.closed.length

/-- What is left open behind it. -/
def leftOpen (opened : Finset Nat) (before after : Lifetime NamedPipeConnection) : Finset Nat :=
  opened.filter fun handle : Nat => some handle ∉ closedBy before after

def step (process : PipeHandles) : PipeEvent → Option PipeHandles
  | .listen i endpoint created =>
      let transport :=
        { process.transports i with endpoint := normalisePipeName endpoint }
      match created with
      | .error _ => some (process.setTransport i transport process.opened)
      | .ok handle =>
          if handle ∈ process.opened then none
          else
            some ((process.create handle transport.endpoint).setTransport i
              { transport with serverHandle := some handle } (insert handle process.opened))
  | .accept i failed created =>
      let transport := process.transports i
      match failed.filter (· ≠ .ERROR_PIPE_CONNECTED) with
      | some _ => some process
      | none =>
          -- no client comes to `INVALID_HANDLE_VALUE`
          match transport.serverHandle with
          | none => none
          | some handle =>
              match created with
              | .error _ =>
                  some (process.makeConnection i
                    { transport with serverHandle := none, nextId := transport.nextId + 1 }
                    handle transport.nextId process.opened)
              | .ok fresh =>
                  if fresh ∈ process.opened then none
                  else
                    some ((process.create fresh transport.endpoint).makeConnection i
                      { transport with
                        serverHandle := some fresh, nextId := transport.nextId + 1 }
                      handle transport.nextId (insert fresh process.opened))
  | .connect i _ wait file =>
      let transport := process.transports i
      match wait.filter (· ≠ .ERROR_FILE_NOT_FOUND) with
      | some _ => some process
      | none =>
          match file with
          | .error _ => some process
          | .ok handle =>
              if handle ∈ process.opened then none
              else
                some (process.makeConnection i
                  { transport with nextId := transport.nextId + 1 }
                  handle transport.nextId (insert handle process.opened))
  | .close i =>
      let transport := { process.transports i with endpoint := [] }
      match transport.serverHandle with
      | none => some (process.setTransport i transport process.opened)
      | some handle =>
          some (process.setTransport i { transport with serverHandle := none }
            (process.opened.erase handle))
  | .operate c operation =>
      match process.conns[c]? with
      | none => none
      | some life =>
          (NamedPipeConnection.operate life operation).map fun after =>
            { process with
              toHandles :=
                process.toHandles.setConnection c after (leftOpen process.opened life after) }

/-- The arguments of the `CloseHandle` calls that a call makes. -/
def closings (process : PipeHandles) : PipeEvent → List (Option Nat)
  | .close i =>
      match (process.transports i).serverHandle with
      | none => []
      | some handle => [some handle]
  | .operate c operation =>
      match process.conns[c]? with
      | none => []
      | some life =>
          match NamedPipeConnection.operate life operation with
          | none => []
          | some after => closedBy life after
  | .listen _ _ _ | .accept _ _ _ | .connect _ _ _ _ => []

/-- The call leaves a handle open that no object is going to close: a transport that
listens comes to listen on another instance, or a `send` or `recv` that finds its connection
connected ends in an error or at the end of the stream. -/
def Leaks (process : PipeHandles) : PipeEvent → Prop
  | .listen i _ (.ok _) => (process.transports i).serverHandle ≠ none
  | .operate c operation => ∃ life, process.conns[c]? = some life ∧
      life.conn.connected = true ∧ NamedPipeConnection.fatal operation = true
  | .listen _ _ (.error _) | .accept _ _ _ | .connect _ _ _ _ | .close _ => False

/-- What the call closes is what its object holds. -/
def ClosesOwn (process : PipeHandles) (event : PipeEvent) : Prop :=
  ∀ closed ∈ closings process event,
    closed ≠ none ∧ closed = (process.table cls).held event.object

/-- Every transport that listens does so under the name that it has in `endpoint_`. -/
def Named (process : PipeHandles) : Prop :=
  ∀ i handle, (process.transports i).serverHandle = some handle →
    process.named handle = cStr (process.transports i).endpoint

/-- A `listen` fails under another name than the one that its transport listens under. -/
def Strays (process : PipeHandles) : PipeEvent → Prop
  | .listen i endpoint (.error _) => ∃ handle, (process.transports i).serverHandle = some handle ∧
      process.named handle ≠ cStr (normalisePipeName endpoint)
  | .listen _ _ (.ok _) | .accept _ _ _ | .connect _ _ _ _ | .close _ | .operate _ _ => False

end PipeHandles

namespace NamedPipeConnection

/-- A `send` or `recv` leaves the handle alone, and a close lets it go. -/
theorem operate_cases {life after : Lifetime NamedPipeConnection} {operation : Operation}
    (hoperate : operate life operation = some after) :
    life.destroyed = false ∧
      ((after.destroyed = false ∧ after.conn.handle = life.conn.handle ∧
          after.conn.closed = life.conn.closed ∧
          after.conn.connected = (life.conn.connected && !fatal operation)) ∨
        fatal operation = false ∧ after.conn = life.conn.close) := by
  unfold operate at hoperate
  split at hoperate
  · cases hoperate
  next hlives =>
    refine ⟨Bool.eq_false_iff.mpr hlives, ?_⟩
    cases operation with
    | send data outcomes =>
        cases hsend : (life.conn.withWrites outcomes).send data with
        | none => simp [hsend] at hoperate
        | some result =>
            simp only [hsend] at hoperate
            split at hoperate
            next hused =>
              cases hoperate
              obtain ⟨hflag, hclosed, hhandle⟩ := send_fatal hsend hused
              exact .inl ⟨Bool.eq_false_iff.mpr hlives, hhandle, hclosed, hflag⟩
            · cases hoperate
    | recv len outcomes =>
        cases hrecv : (life.conn.withReads outcomes).recv len with
        | none => simp [hrecv] at hoperate
        | some result =>
            simp only [hrecv] at hoperate
            split at hoperate
            next hused =>
              cases hoperate
              obtain ⟨hflag, hclosed, hhandle⟩ := recv_fatal hrecv hused
              exact .inl ⟨Bool.eq_false_iff.mpr hlives, hhandle, hclosed, hflag⟩
            · cases hoperate
    | close =>
        cases hoperate
        exact .inr ⟨rfl, rfl⟩
    | destroy =>
        cases hoperate
        exact .inr ⟨rfl, rfl⟩

end NamedPipeConnection

namespace PipeHandles

variable {process next : PipeHandles} {life after : Lifetime NamedPipeConnection}

/-! ## Operations on a connection -/

theorem leftOpen_of_nil (opened : Finset Nat) (hclosed : closedBy life after = []) :
    leftOpen opened life after = opened := by
  rw [leftOpen, hclosed]
  exact Finset.filter_true_of_mem fun _ _ => List.not_mem_nil

theorem leftOpen_of_one {handle : Nat} (opened : Finset Nat)
    (hclosed : closedBy life after = [some handle]) :
    leftOpen opened life after = opened.erase handle := by
  ext other
  rw [leftOpen, hclosed, Finset.mem_filter, Finset.mem_erase, List.mem_singleton, and_comm,
    Option.some_inj]

/-- What an operation closes is the handle of the connection. -/
theorem operated {operation : Operation} (opened : Finset Nat)
    (hheld : life.conn.connected = true → handleOf life ≠ none)
    (hoperate : NamedPipeConnection.operate life operation = some after) :
    (∀ closed ∈ closedBy life after, closed ≠ none ∧ closed = handleOf life) ∧
      Handles.Operated cls life after (NamedPipeConnection.fatal operation) opened
        (leftOpen opened life after) := by
  have hnothing : closedBy life after = [] →
      ∀ closed ∈ closedBy life after, closed ≠ none ∧ closed = handleOf life := by
    intro hnone closed hmem
    rw [hnone] at hmem
    cases hmem
  obtain ⟨hlives, ⟨hafter, hsame, hclosed, hconnected⟩ | ⟨hquiet, hclose⟩⟩ :=
    NamedPipeConnection.operate_cases hoperate
  · have hnone : closedBy life after = [] := by rw [closedBy, hclosed, List.drop_length]
    rw [leftOpen_of_nil _ hnone]
    refine ⟨hnothing hnone, .kept ?_ hconnected⟩
    change handleOf after = handleOf life
    rw [handleOf, handleOf, hafter, hlives, hsame]
  have hholds : handleOf life = life.conn.handle := by
    rw [handleOf, hlives]
    rfl
  cases hlive : life.conn.connected with
  | true =>
      obtain ⟨handle, hhandle⟩ := Option.ne_none_iff_exists'.mp (hheld hlive)
      rw [NamedPipeConnection.close, if_pos hlive] at hclose
      have hone : closedBy life after = [some handle] := by
        rw [closedBy, hclose, List.drop_left, ← hholds, hhandle]
      have hgone : handleOf after = none := by
        rw [handleOf, hclose]
        exact ite_self _
      rw [leftOpen_of_one _ hone]
      refine ⟨?_, .closed handle hlive hhandle hgone ?_ hquiet⟩
      · intro closed hmem
        rw [hone, List.mem_singleton] at hmem
        rw [hmem, hhandle]
        exact ⟨Option.some_ne_none _, rfl⟩
      · change after.conn.connected = false
        rw [hclose]
  | false =>
      rw [NamedPipeConnection.close, hlive] at hclose
      have hnone : closedBy life after = [] := by
        rw [closedBy, hclose]
        exact List.drop_length
      have hconnected : after.conn.connected = false := by
        rw [hclose]
        exact hlive
      rw [leftOpen_of_nil _ hnone]
      refine ⟨hnothing hnone, ?_⟩
      -- the object may be gone, and with it the handle that it would not have closed
      by_cases hdestroyed : after.destroyed = true
      · exact .lost hlive (if_pos hdestroyed) hconnected
      · refine .kept ?_ ?_
        · change handleOf after = handleOf life
          rw [handleOf, handleOf, hlives, Bool.eq_false_iff.mpr hdestroyed, hclose]
          rfl
        · change after.conn.connected = (life.conn.connected && _)
          rw [hconnected, hlive, Bool.false_and]

/-! ## Runs -/

/-- What the process has in its table. -/
def table (process : PipeHandles) : HandleTable (Nat ⊕ Nat) := process.toHandles.table cls

def Upright (process : PipeHandles) : Prop := process.toHandles.Upright cls

theorem holds_ofHandle (handle id : Nat) : cls.holds ⟨.ofHandle handle id, false⟩ = some handle :=
  rfl

theorem makeConnection_upright (hupright : process.Upright) (i : Nat) (transport : ServerPipe)
    (handle id : Nat) (opened : Finset Nat) :
    (process.makeConnection i transport handle id opened).Upright := by
  refine Handles.makeConnection_upright hupright ?_
  rw [holds_ofHandle]
  exact Option.some_ne_none _

theorem setTransport_table (process : PipeHandles) (i : Nat) (transport : ServerPipe)
    (opened : Finset Nat) : (process.setTransport i transport opened).table =
      ⟨opened, Function.update process.table.held (.inl i) transport.serverHandle,
        Function.update process.table.closes (.inl i) transport.serverHandle.isSome⟩ :=
  Handles.setTransport_table ..

/-- A transport keeps its handle. -/
theorem setTransport_endpoint (process : PipeHandles) (i : Nat) (endpoint : List UInt8) :
    (process.setTransport i { process.transports i with endpoint := endpoint }
      process.opened).table = process.table := by
  have hheld : process.table.held (.inl i) = (process.transports i).serverHandle := rfl
  have hcloses : process.table.closes (.inl i) = (process.transports i).serverHandle.isSome :=
    rfl
  rw [setTransport_table, ← hheld, Function.update_eq_self, hheld, ← hcloses,
    Function.update_eq_self]
  rfl

theorem step_turn {event : PipeEvent} (hupright : process.Upright)
    (hstep : step process event = some next) :
    next.Upright ∧ ClosesOwn process event ∧
      HandleTable.Turn process.table (Leaks process event) next.table := by
  have hnothing : closings process event = [] → ClosesOwn process event := by
    intro hclosings closed hmem
    rw [hclosings] at hmem
    cases hmem
  cases event with
  | listen i endpoint created =>
      simp only [step] at hstep
      split at hstep
      next err =>
        cases hstep
        refine ⟨hupright, hnothing rfl, ?_⟩
        rw [setTransport_endpoint]
        exact .same id
      next handle =>
        split at hstep
        · cases hstep
        next hnew =>
          cases hstep
          have hleaks : Leaks process (.listen i endpoint (.ok handle)) ↔
              process.table.held (.inl i) ≠ none ∧ process.table.closes (.inl i) = true := by
            rw [table, Handles.listening_iff]
            rfl
          refine ⟨hupright, hnothing rfl, ?_⟩
          rw [setTransport_table]
          exact .give (Sum.inl i) handle hnew hleaks
  | accept i failed created =>
      simp only [step] at hstep
      split at hstep
      · cases hstep
        exact ⟨hupright, hnothing rfl, .same id⟩
      split at hstep
      · cases hstep
      next handle hhandle =>
        split at hstep
        next err =>
          cases hstep
          exact ⟨makeConnection_upright hupright _ _ _ _ _, hnothing rfl,
            Handles.handOver_turn (holds_ofHandle ..) rfl hhandle rfl⟩
        next fresh =>
          split at hstep
          · cases hstep
          next hnew =>
            cases hstep
            exact ⟨@makeConnection_upright (process.create fresh _) hupright _ _ _ _ _,
              hnothing rfl, Handles.handOver_replace (holds_ofHandle ..) rfl hhandle rfl hnew⟩
  | connect i endpoint wait file =>
      simp only [step] at hstep
      split at hstep
      · cases hstep
        exact ⟨hupright, hnothing rfl, .same id⟩
      split at hstep
      · cases hstep
        exact ⟨hupright, hnothing rfl, .same id⟩
      next handle =>
        split at hstep
        · cases hstep
        next hnew =>
          cases hstep
          exact ⟨makeConnection_upright hupright _ _ _ _ _, hnothing rfl,
            Handles.makeConnection_turn hnew rfl (holds_ofHandle ..) rfl⟩
  | close i =>
      simp only [step] at hstep
      split at hstep
      next hnone =>
        cases hstep
        refine ⟨hupright, hnothing ?_, ?_⟩
        · rw [closings, hnone]
        · rw [setTransport_endpoint]
          exact .same id
      next handle hhandle =>
        cases hstep
        refine ⟨hupright, ?_, ?_⟩
        · intro closed hmem
          rw [closings, hhandle, List.mem_singleton] at hmem
          rw [hmem]
          exact ⟨Option.some_ne_none _, hhandle.symm⟩
        · rw [setTransport_table]
          exact .shut (Sum.inl i) handle hhandle (Handles.closes_of_server hhandle) id
  | operate c operation =>
      simp only [step] at hstep
      split at hstep
      · cases hstep
      next life hlife =>
        obtain ⟨after, hoperate, rfl⟩ := Option.map_eq_some_iff.mp hstep
        obtain ⟨hclosed, hoperated⟩ :=
          operated process.opened (hupright life (List.mem_of_getElem? hlife)) hoperate
        obtain ⟨hnext, hturn⟩ := Handles.operated_turn hlife hupright hoperated
        refine ⟨hnext, ?_, ?_⟩
        · intro closed hmem
          simp only [closings, hlife, hoperate] at hmem
          rw [PipeEvent.object, Handles.held_conn, hlife]
          exact hclosed closed hmem
        · have hleaks : Leaks process (.operate c operation) ↔
              life.conn.connected = true ∧ NamedPipeConnection.fatal operation = true := by
            rw [Leaks, hlife]
            simp
          rw [hleaks]
          exact hturn

theorem step_turns : HandleTable.Turns step Upright table Leaks where
  keeps _ _ _ hupright hstep := (step_turn hupright hstep).1
  turns _ _ _ hupright hstep := (step_turn hupright hstep).2.2

theorem init_table : init.table = HandleTable.empty := by
  ext1
  · rfl
  · funext owner
    cases owner with
    | inl i => rfl
    | inr c => rfl
  · funext owner
    cases owner with
    | inl i => rfl
    | inr c => rfl

theorem init_upright : init.Upright := fun _ hmem => absurd hmem List.not_mem_nil

theorem init_sound : init.table.Sound := by
  rw [init_table]
  exact HandleTable.empty_sound

/-- In every run of transports and their connections, whatever numbers Windows gives out
again, no two objects hold one handle, each that is held is open, and a call closes only what
its object holds: accepting moves the handle of a transport to the connection. Every open
handle has an object that will close it throughout the run exactly when no transport that
listens comes to listen on another instance, and no `send` or `recv` that finds its connection
connected ends in an error or at the end of the stream: each such call leaves one handle open
for good. -/
theorem handles_owned (events : List PipeEvent) :
    Throughout step (fun process => process.table.Sound) init events ∧
      Guarded step ClosesOwn init events ∧
      (Throughout step (fun process => process.table.Accounted) init events ↔
        Guarded step (fun process event => ¬ Leaks process event) init events) ∧
      ∀ last, run step init events = some last →
        last.table.lost.card = countAlong step Leaks init events := by
  have hlost : init.table.lost = ∅ := by
    rw [init_table]
    exact HandleTable.empty_lost
  have haccounted := HandleTable.accounted_iff_lost.mpr hlost
  refine ⟨step_turns.throughout_sound init events init_upright init_sound, ?_,
    step_turns.throughout_accounted_iff init events init_upright init_sound haccounted, ?_⟩
  · refine Along.of_guarded Upright ?_ init_upright (guarded_true init events)
    rintro process event next hupright - hstep
    obtain ⟨hnext, hcloses, -⟩ := step_turn hupright hstep
    exact ⟨hnext, hcloses⟩
  · intro last hrun
    rw [step_turns.card_lost init_upright init_sound hrun, hlost, Finset.card_empty,
      Nat.zero_add]

/-! ## Names -/

/-- A transport changes, and names change only for handles that were not open. -/
theorem Named.update (hnamed : process.Named) (hsound : process.table.Sound) {i : Nat}
    {transport : ServerPipe}
    (htransports : next.transports = Function.update process.transports i transport)
    (hnames : ∀ handle ∈ process.opened, next.named handle = process.named handle)
    (hown : ∀ handle, transport.serverHandle = some handle →
      next.named handle = cStr transport.endpoint) : next.Named := by
  intro j handle hhandle
  rw [htransports, Function.update_apply] at hhandle ⊢
  split at hhandle
  next hj =>
    rw [if_pos hj]
    exact hown handle hhandle
  next hj =>
    rw [if_neg hj, hnames handle (hsound.opened (.inl j) handle hhandle)]
    exact hnamed j handle hhandle

/-- `create_pipe_instance` leaves the names of the other open handles alone. -/
theorem create_named {handle other : Nat} (hnew : handle ∉ process.opened)
    (hother : other ∈ process.opened) (endpoint : List UInt8) :
    (process.create handle endpoint).named other = process.named other :=
  Function.update_of_ne (ne_of_mem_of_not_mem hother hnew) ..

theorem create_named_self (process : PipeHandles) (handle : Nat) (endpoint : List UInt8) :
    (process.create handle endpoint).named handle = cStr endpoint :=
  Function.update_self ..

theorem step_named {event : PipeEvent} (hnamed : process.Named) (hsound : process.table.Sound)
    (hquiet : ¬ Strays process event) (hstep : step process event = some next) : next.Named := by
  cases event with
  | listen i endpoint created =>
      simp only [step] at hstep
      split at hstep
      next err =>
        cases hstep
        refine hnamed.update hsound rfl (fun _ _ => rfl) ?_
        intro handle hhandle
        by_contra hne
        exact hquiet ⟨handle, hhandle, hne⟩
      next handle =>
        split at hstep
        · cases hstep
        next hnew =>
          cases hstep
          refine hnamed.update hsound rfl (fun _ hother => create_named hnew hother _) ?_
          intro created hcreated
          cases hcreated
          exact create_named_self ..
  | accept i failed created =>
      simp only [step] at hstep
      split at hstep
      · cases hstep
        exact hnamed
      split at hstep
      · cases hstep
      next handle hhandle =>
        split at hstep
        next err =>
          cases hstep
          refine hnamed.update hsound rfl (fun _ _ => rfl) ?_
          intro held hheld
          cases hheld
        next fresh =>
          split at hstep
          · cases hstep
          next hnew =>
            cases hstep
            refine hnamed.update hsound rfl (fun _ hother => create_named hnew hother _) ?_
            intro created hcreated
            cases hcreated
            exact create_named_self ..
  | connect i endpoint wait file =>
      simp only [step] at hstep
      split at hstep
      · cases hstep
        exact hnamed
      split at hstep
      · cases hstep
        exact hnamed
      next handle =>
        split at hstep
        · cases hstep
        next hnew =>
          cases hstep
          exact hnamed.update hsound rfl (fun _ _ => rfl) (hnamed i)
  | close i =>
      simp only [step] at hstep
      split at hstep
      next hnone =>
        cases hstep
        refine hnamed.update hsound rfl (fun _ _ => rfl) ?_
        intro handle hhandle
        rw [hnone] at hhandle
        cases hhandle
      next handle hhandle =>
        cases hstep
        refine hnamed.update hsound rfl (fun _ _ => rfl) ?_
        intro held hheld
        cases hheld
  | operate c operation =>
      simp only [step] at hstep
      split at hstep
      · cases hstep
      next life hlife =>
        obtain ⟨after, hoperate, rfl⟩ := Option.map_eq_some_iff.mp hstep
        exact hnamed

/-- The transport has taken the name of the `listen` that has failed. -/
theorem step_strays {event : PipeEvent} (hstrays : Strays process event)
    (hstep : step process event = some next) : ¬ next.Named := by
  cases event with
  | listen i endpoint created =>
      cases created with
      | error err =>
          obtain ⟨handle, hhandle, hne⟩ := hstrays
          cases hstep
          have htransport : (process.setTransport i
              { process.transports i with endpoint := normalisePipeName endpoint }
              process.opened).transports i =
                { process.transports i with endpoint := normalisePipeName endpoint } :=
            Function.update_self ..
          intro hnamed
          have hnext := hnamed i handle
          rw [htransport] at hnext
          exact hne (hnext hhandle)
      | ok handle => exact hstrays.elim
  | accept | connect | close | operate => exact hstrays.elim

/-- In a run of transports, each that listens does so under the name that its next instances
are going to be created under, exactly when no `listen` fails under a name other than the one
that its transport already listens under. -/
theorem named_iff (events : List PipeEvent) :
    Throughout step Named init events ↔
      Guarded step (fun process event => ¬ Strays process event) init events := by
  apply throughout_iff_guarded
    (fun process => process.Upright ∧ process.table.Sound ∧ process.Named)
  · exact fun process hprocess => hprocess.2.2
  · rintro process event next ⟨hupright, hsound, hnamed⟩ hquiet hstep
    obtain ⟨hnext, -, hturn⟩ := step_turn hupright hstep
    exact ⟨hnext, hturn.sound hsound, step_named hnamed hsound hquiet hstep⟩
  · rintro process event next - hstrays hstep
    exact step_strays (not_not.mp hstrays) hstep
  · refine ⟨init_upright, init_sound, ?_⟩
    intro i handle hhandle
    cases hhandle

end PipeHandles

end Ibridger.Cpp
