import Ibridger.Cpp.ServerCycles

/-! # Threads inside system calls

What `stop` relies on to wake the threads that it joins. On Linux a `::close` does
not wake a thread that is already inside an `::accept`, a `::read` or a `::send` on
the descriptor; a call that is made on a closed descriptor fails. The threads of the
server only ever `::close`, so those inside a call are left to their peers.
-/

namespace Ibridger.Cpp

open Transition

/-- The calls in which a handler can block. -/
inductive HandlerCall where
  | read
  | send
deriving DecidableEq

/-- The server and the calls that its threads are inside of. -/
structure Threads where
  server : Server
  /-- Whether the listening socket is open. -/
  listening : Bool
  /-- Whether the accept thread is inside of `::accept`. -/
  accepting : Bool
  blocked : Nat → Option HandlerCall

/-- An answer that is `none` is not there yet: the call blocks. -/
inductive ThreadEvent where
  | server (event : ServerEvent)
  | callAccept (answer : Option (Option ErrorCode))
  | call (h : Nat) (call : HandlerCall) (answer : Option Bool)
  /-- The peers and the kernel let a call return that blocks. -/
  | acceptAnswered (err : Option ErrorCode)
  | answered (h : Nat) (ok : Bool)

/-- The threads take the step by themselves. -/
def ThreadEvent.Own : ThreadEvent → Prop
  | .server _ | .callAccept _ | .call _ _ _ => True
  | .acceptAnswered _ | .answered _ _ => False

namespace Threads

def init (config : ServerConfig) : Threads where
  server := .init config
  listening := false
  accepting := false
  blocked := fun _ => none

/-- Whether the listening socket is open behind a step of the server. -/
def listensBehind (threads : Threads) : ServerEvent → Bool
  | .start .listening => threads.listening || !threads.server.running
  | .proceed => threads.listening && threads.server.caller ≠ .closingListener
  | _ => threads.listening

/-- The steps of the server that are about calls: an `accept` returns, or a
handler that is inside of a call ends. -/
def Inside (threads : Threads) : ServerEvent → Bool
  | .accept _ => true
  | .leave h => (threads.blocked h).isSome
  | _ => false

def serverStep (threads : Threads) (event : ServerEvent) : Option Threads :=
  if threads.Inside event then none
  else
    (threads.server.step event).map fun server =>
      { threads with server := server, listening := threads.listensBehind event }

/-- `transport_->accept()`. -/
def callAccept (threads : Threads) (answer : Option (Option ErrorCode)) : Option Threads :=
  if threads.accepting ∨ threads.server.acceptThread ≠ some .accepting then none
  else if threads.listening then
    match answer with
    | none => some { threads with accepting := true }
    | some err => (threads.server.accept err).map fun server => { threads with server := server }
  else
    (threads.server.accept (some (.system .EBADF))).map fun server =>
      { threads with server := server }

def acceptAnswered (threads : Threads) (err : Option ErrorCode) : Option Threads :=
  if threads.accepting then
    (threads.server.accept err).map fun server =>
      { threads with server := server, accepting := false }
  else none

/-- A `::read` or a `::send` of the handler on its connection. -/
def call (threads : Threads) (h : Nat) (call : HandlerCall) (answer : Option Bool) :
    Option Threads :=
  match threads.server.handlers[h]? with
  | some ⟨framed, .serving⟩ =>
      if (threads.blocked h).isSome then none
      else if threads.server.closed framed then
        (threads.server.leave h).map fun server => { threads with server := server }
      else
        match answer with
        | none => some { threads with blocked := Function.update threads.blocked h (some call) }
        | some true => some threads
        | some false =>
            (threads.server.leave h).map fun server => { threads with server := server }
  | _ => none

def answered (threads : Threads) (h : Nat) (ok : Bool) : Option Threads :=
  if (threads.blocked h).isNone then none
  else if ok then some { threads with blocked := Function.update threads.blocked h none }
  else
    (threads.server.leave h).map fun server =>
      { threads with server := server, blocked := Function.update threads.blocked h none }

def step (threads : Threads) : ThreadEvent → Option Threads
  | .server event => threads.serverStep event
  | .callAccept answer => threads.callAccept answer
  | .call h call answer => threads.call h call answer
  | .acceptAnswered err => threads.acceptAnswered err
  | .answered h ok => threads.answered h ok

/-- `stop` waits in a `join` for a thread that is inside of a call. -/
def JoinsBlocked (threads : Threads) : Prop :=
  threads.server.caller = .joiningAccept ∧ threads.accepting = true ∨
    ∃ h rest, threads.server.caller = .joining (h :: rest) ∧ (threads.blocked h).isSome = true

/-- `stop` waits for a thread that is inside of a call, and whatever the threads
go on to do by themselves, it stays there. -/
structure Stuck (threads : Threads) : Prop where
  joins : threads.JoinsBlocked
  stays : ∀ events last, (∀ event ∈ events, ThreadEvent.Own event) →
    run step threads events = some last → last.JoinsBlocked

/-- The descriptor that the step closes has no thread inside of a call on it. -/
def ClosesUnused (threads : Threads) : ThreadEvent → Prop
  | .server .proceed =>
      match threads.server.caller with
      | .closingListener => threads.accepting = false
      | .closing (conn :: _) => ∀ h, threads.server.Handles h conn → threads.blocked h = none
      | _ => True
  | _ => True

/-! ## What a step does -/

/-- Every step is one of the server's, or a call begins or ends. -/
inductive Does (threads : Threads) (event : ThreadEvent) : Threads → Prop where
  | server {serverEvent : ServerEvent} {server : Server} (hevent : event = .server serverEvent)
      (hinside : threads.Inside serverEvent = false)
      (hstep : threads.server.step serverEvent = some server) :
      Does threads event
        { threads with server := server, listening := threads.listensBehind serverEvent }
  | acceptBlocks (hthread : threads.server.acceptThread = some .accepting)
      (hopen : threads.listening = true) :
      Does threads event { threads with accepting := true }
  | acceptReturns {err : Option ErrorCode} {server : Server}
      (hown : event.Own → threads.accepting = false)
      (haccept : threads.server.accept err = some server) :
      Does threads event { threads with server := server, accepting := false }
  | callBlocks (h : Nat) (call : HandlerCall) {framed : Nat}
      (hhandler : threads.server.handlers[h]? = some ⟨framed, .serving⟩)
      (hopen : threads.server.closed framed = false) :
      Does threads event { threads with blocked := Function.update threads.blocked h (some call) }
  | callReturns (h : Nat) (hown : event.Own → threads.blocked h = none) :
      Does threads event { threads with blocked := Function.update threads.blocked h none }
  | leaves (h : Nat) {server : Server} (hown : event.Own → threads.blocked h = none)
      (hleave : threads.server.leave h = some server) :
      Does threads event
        { threads with server := server, blocked := Function.update threads.blocked h none }

variable {threads next : Threads}

theorem callAccept_does {answer : Option (Option ErrorCode)}
    (hcall : threads.callAccept answer = some next) : Does threads (.callAccept answer) next := by
  unfold callAccept at hcall
  split at hcall
  · cases hcall
  next hcalls =>
    rw [not_or, Bool.not_eq_true, not_ne_iff] at hcalls
    obtain ⟨hfree, hthread⟩ := hcalls
    have hreturns : ∀ err, (threads.server.accept err).map
        (fun server => { threads with server := server }) = some next →
          Does threads (.callAccept answer) next := by
      intro err haccept
      obtain ⟨server, hserver, rfl⟩ := Option.map_eq_some_iff.mp haccept
      have hdoes := @Does.acceptReturns threads (.callAccept answer) err server (fun _ => hfree) hserver
      rwa [← hfree] at hdoes
    split at hcall
    next hopen =>
      cases answer with
      | none =>
          cases hcall
          exact .acceptBlocks hthread hopen
      | some err => exact hreturns err hcall
    · exact hreturns _ hcall

theorem call_does {h : Nat} {call : HandlerCall} {answer : Option Bool}
    (hcall : threads.call h call answer = some next) :
    Does threads (.call h call answer) next := by
  unfold Threads.call at hcall
  split at hcall
  next framed hhandler =>
    split at hcall
    · cases hcall
    next hcalls =>
      have hfree : threads.blocked h = none := Option.not_isSome_iff_eq_none.mp hcalls
      have hsame : Function.update threads.blocked h none = threads.blocked :=
        Function.update_eq_self_iff.mpr hfree.symm
      have hleaves : (threads.server.leave h).map
          (fun server => { threads with server := server }) = some next →
            Does threads (.call h call answer) next := by
        intro hleave
        obtain ⟨server, hserver, rfl⟩ := Option.map_eq_some_iff.mp hleave
        have hdoes := @Does.leaves threads (.call h call answer) h server (fun _ => hfree) hserver
        rwa [hsame] at hdoes
      split at hcall
      · exact hleaves hcall
      next hopen =>
        split at hcall
        · cases hcall
          exact .callBlocks h call hhandler (Bool.not_eq_true _ ▸ hopen)
        · cases hcall
          have hdoes := @Does.callReturns threads (.call h call (some true)) h fun _ => hfree
          rwa [hsame] at hdoes
        · exact hleaves hcall
  · cases hcall

theorem step_does {event : ThreadEvent} (hstep : threads.step event = some next) :
    Does threads event next := by
  cases event with
  | server serverEvent =>
      simp only [step, serverStep] at hstep
      split at hstep
      · cases hstep
      next hinside =>
        obtain ⟨server, hserver, rfl⟩ := Option.map_eq_some_iff.mp hstep
        exact .server rfl (Bool.not_eq_true _ ▸ hinside) hserver
  | callAccept answer => exact callAccept_does hstep
  | call h call answer => exact call_does hstep
  | acceptAnswered err =>
      simp only [step, acceptAnswered] at hstep
      split at hstep
      · obtain ⟨server, hserver, rfl⟩ := Option.map_eq_some_iff.mp hstep
        exact .acceptReturns (fun hown => hown.elim) hserver
      · cases hstep
  | answered h ok =>
      simp only [step, answered] at hstep
      split at hstep
      · cases hstep
      · split at hstep
        · cases hstep
          exact .callReturns h fun hown => hown.elim
        · obtain ⟨server, hserver, rfl⟩ := Option.map_eq_some_iff.mp hstep
          exact .leaves h (fun hown => hown.elim) hserver

end Threads

/-! ## What the steps of the server leave alone -/

namespace Server

variable {server next : Server} {event : ServerEvent}

/-- While a `start` or a `stop` is under way, nothing else moves it on. -/
theorem step_caller (hstep : server.step event = some next) (hbusy : server.caller ≠ .idle)
    (hevent : event ≠ .proceed) : next.caller = server.caller := by
  cases event with
  | start outcome => exact absurd (Option.ite_none_right_eq_some.mp hstep).1 hbusy
  | stop => exact absurd (Option.ite_none_right_eq_some.mp hstep).1 hbusy
  | proceed => exact absurd rfl hevent
  | test =>
      obtain ⟨-, rfl⟩ := test_eq hstep
      rfl
  | accept err =>
      obtain ⟨-, ⟨-, rfl⟩ | ⟨-, rfl⟩⟩ := accept_eq hstep
      · rfl
      · rfl
  | checkLimit =>
      obtain ⟨conn, -, ⟨-, rfl⟩ | ⟨-, rfl⟩⟩ := checkLimit_eq hstep
      · rfl
      · rfl
  | insert =>
      obtain ⟨conn, -, rfl⟩ := insert_eq hstep
      rfl
  | leave h =>
      obtain ⟨framed, -, rfl⟩ := leave_eq hstep
      rfl
  | removeConnection h =>
      obtain ⟨framed, -, rfl⟩ := removeConnection_eq hstep
      rfl

/-- The accept thread goes on from `accept` when the call returns. -/
theorem step_accepting (hcycled : Cycled server) (hthread : server.acceptThread = some .accepting)
    (hevent : ∀ err, event ≠ .accept err) (hstep : server.step event = some next) :
    next.acceptThread = some .accepting := by
  have hjoinable := hcycled.inOrder.of_joinable hthread
  cases event with
  | start outcome =>
      obtain ⟨-, rfl | ⟨-, rfl⟩⟩ := step_start hstep
      · exact hthread
      · exact hthread
  | stop =>
      obtain ⟨-, rfl | ⟨-, rfl⟩⟩ := step_stop hstep
      · exact hthread
      · exact hthread
  | proceed =>
      have hproceed : server.proceed = some next := hstep
      rcases hjoinable with ⟨hcaller, -⟩ | ⟨hcaller | hcaller, -⟩
      · rw [proceed, hcaller] at hproceed
        cases hproceed
      · rw [proceed, hcaller] at hproceed
        cases hproceed
        exact hthread
      · rw [proceed, hcaller, hthread] at hproceed
        cases hproceed
  | accept err => exact absurd rfl (hevent err)
  | test =>
      obtain ⟨htesting, -⟩ := test_eq hstep
      rw [hthread] at htesting
      cases htesting
  | checkLimit =>
      obtain ⟨conn, hchecking, -⟩ := checkLimit_eq hstep
      rw [hthread] at hchecking
      cases hchecking
  | insert =>
      obtain ⟨conn, hinserting, -⟩ := insert_eq hstep
      rw [hthread] at hinserting
      cases hinserting
  | leave h =>
      obtain ⟨framed, -, rfl⟩ := leave_eq hstep
      exact hthread
  | removeConnection h =>
      obtain ⟨framed, -, rfl⟩ := removeConnection_eq hstep
      exact hthread

/-- What the steps do to the handlers: one is spawned, or one goes on. -/
theorem step_handlers (hstep : server.step event = some next) :
    next.handlers = server.handlers ∨
      (∃ conn, event = .insert ∧ server.acceptThread = some (.inserting conn) ∧
        next.handlers = server.handlers ++ [⟨conn, .serving⟩]) ∨
      ∃ h framed phase phase', (event = .leave h ∨ phase = .leaving) ∧
        server.handlers[h]? = some ⟨framed, phase⟩ ∧ phase ≠ .finished ∧
        next.handlers = server.handlers.set h ⟨framed, phase'⟩ := by
  cases event with
  | start outcome =>
      obtain ⟨-, rfl | ⟨-, rfl⟩⟩ := step_start hstep
      · exact .inl rfl
      · exact .inl rfl
  | stop =>
      obtain ⟨-, rfl | ⟨-, rfl⟩⟩ := step_stop hstep
      · exact .inl rfl
      · exact .inl rfl
  | proceed =>
      left
      rw [proceed_eq hstep]
  | test =>
      obtain ⟨-, rfl⟩ := test_eq hstep
      exact .inl rfl
  | accept err =>
      obtain ⟨-, ⟨-, rfl⟩ | ⟨-, rfl⟩⟩ := accept_eq hstep
      · exact .inl rfl
      · exact .inl rfl
  | checkLimit =>
      obtain ⟨conn, -, ⟨-, rfl⟩ | ⟨-, rfl⟩⟩ := checkLimit_eq hstep
      · exact .inl rfl
      · exact .inl rfl
  | insert =>
      obtain ⟨conn, hthread, rfl⟩ := insert_eq hstep
      exact .inr (.inl ⟨conn, rfl, hthread, rfl⟩)
  | leave h =>
      obtain ⟨framed, hhandler, rfl⟩ := leave_eq hstep
      exact .inr (.inr ⟨h, framed, _, _, .inl rfl, hhandler, by decide, rfl⟩)
  | removeConnection h =>
      obtain ⟨framed, hhandler, rfl⟩ := removeConnection_eq hstep
      exact .inr (.inr ⟨h, framed, _, _, .inr rfl, hhandler, by decide, rfl⟩)

/-- A handler that serves goes on serving until its loop ends. -/
theorem step_serving {h framed : Nat}
    (hhandler : server.handlers[h]? = some ⟨framed, .serving⟩) (hevent : event ≠ .leave h)
    (hstep : server.step event = some next) : next.handlers[h]? = some ⟨framed, .serving⟩ := by
  rcases step_handlers hstep with hsame | ⟨conn, -, -, happend⟩ |
    ⟨k, other, phase, phase', hleaving, hother, -, hset⟩
  · rw [hsame]
    exact hhandler
  · rw [happend, List.getElem?_append_left (List.getElem?_eq_some_iff.mp hhandler).1]
    exact hhandler
  · have hne : k ≠ h := by
      rintro rfl
      rcases hleaving with rfl | rfl
      · exact hevent rfl
      · rw [hhandler] at hother
        cases hother
    rw [hset, List.getElem?_set_ne hne]
    exact hhandler

/-- Only `stop` closes a connection that has a handler. -/
theorem step_closed {limit : Nat} (htabled : Tabled limit server) {h c : Nat}
    (hassigned : server.Assigned h c) (hopen : server.closed c = false)
    (hstep : server.step event = some next) :
    next.closed c = false ∨ event = .proceed ∧ ∃ rest, server.caller = .closing (c :: rest) := by
  cases event with
  | start outcome =>
      obtain ⟨-, rfl | ⟨-, rfl⟩⟩ := step_start hstep
      · exact .inl hopen
      · exact .inl hopen
  | stop =>
      obtain ⟨-, rfl | ⟨-, rfl⟩⟩ := step_stop hstep
      · exact .inl hopen
      · exact .inl hopen
  | proceed =>
      have hproceed : server.proceed = some next := hstep
      unfold proceed at hproceed
      split at hproceed
      · cases hproceed
      · cases hproceed
        exact .inl hopen
      · cases hproceed
        exact .inl hopen
      · split at hproceed <;> cases hproceed <;> exact .inl hopen
      · cases hproceed
        exact .inl hopen
      · cases hproceed
        exact .inl hopen
      next conn rest hcaller =>
        cases hproceed
        by_cases hsame : c = conn
        · subst hsame
          exact .inr ⟨rfl, rest, hcaller⟩
        · left
          dsimp only
          rw [Function.update_of_ne hsame]
          exact hopen
      · cases hproceed
        exact .inl hopen
      · cases hproceed
        exact .inl hopen
      · split at hproceed <;> cases hproceed
        exact .inl hopen
  | test =>
      obtain ⟨-, rfl⟩ := test_eq hstep
      exact .inl hopen
  | accept err =>
      obtain ⟨-, ⟨-, rfl⟩ | ⟨-, rfl⟩⟩ := accept_eq hstep
      · exact .inl hopen
      · exact .inl hopen
  | checkLimit =>
      obtain ⟨conn, hthread, ⟨-, rfl⟩ | ⟨-, rfl⟩⟩ := checkLimit_eq hstep
      · left
        have hheld : server.held = some conn := by
          rw [held, hthread]
          rfl
        have hne : c ≠ conn := by
          rintro rfl
          exact (htabled.held_new c hheld).2 h hassigned
        dsimp only
        rw [Function.update_of_ne hne]
        exact hopen
      · exact .inl hopen
  | insert =>
      obtain ⟨conn, -, rfl⟩ := insert_eq hstep
      exact .inl hopen
  | leave k =>
      obtain ⟨framed, -, rfl⟩ := leave_eq hstep
      exact .inl hopen
  | removeConnection k =>
      obtain ⟨framed, -, rfl⟩ := removeConnection_eq hstep
      exact .inl hopen

end Server

namespace Threads

variable {limit : Nat} {threads next : Threads} {event : ThreadEvent}

/-! ## Where the threads are that are inside of a call -/

/-- A thread that is inside of a call is at the place where it makes the call. -/
structure Placed (limit : Nat) (threads : Threads) : Prop where
  tabled : Server.Tabled limit threads.server
  cycled : Server.Cycled threads.server
  accepting : threads.accepting = true → threads.server.acceptThread = some .accepting
  blocked : ∀ h, (threads.blocked h).isSome = true →
    ∃ framed, threads.server.handlers[h]? = some ⟨framed, .serving⟩

theorem init_placed (config : ServerConfig) : Placed config.maxConnections (init config) :=
  ⟨.init config, .init config, fun haccepting => (by cases haccepting),
    fun _ hblocked => (by cases hblocked)⟩

/-- A call of the handler begins or ends, and the others stay where they are. -/
theorem blocked_of_update {blocked : Nat → Option HandlerCall} {h k : Nat}
    {call : Option HandlerCall} (hblocked : (Function.update blocked h call k).isSome = true) :
    k = h ∧ call.isSome = true ∨ k ≠ h ∧ (blocked k).isSome = true := by
  by_cases hsame : k = h
  · subst hsame
    rw [Function.update_self] at hblocked
    exact .inl ⟨rfl, hblocked⟩
  · rw [Function.update_of_ne hsame] at hblocked
    exact .inr ⟨hsame, hblocked⟩

theorem Placed.step (hplaced : Placed limit threads) (hstep : threads.step event = some next) :
    Placed limit next := by
  obtain ⟨htabled, hcycled, haccepting, hblocked⟩ := hplaced
  cases step_does hstep with
  | @server serverEvent server _ hinside hserver =>
      refine ⟨htabled.step hserver, hcycled.step hserver, ?_, ?_⟩
      · intro hinAccept
        refine Server.step_accepting hcycled (haccepting hinAccept) ?_ hserver
        rintro err rfl
        cases hinside
      · intro h hin
        obtain ⟨framed, hhandler⟩ := hblocked h hin
        refine ⟨framed, Server.step_serving hhandler ?_ hserver⟩
        rintro rfl
        exact Bool.false_ne_true (hinside.symm.trans hin)
  | acceptBlocks hthread hopen => exact ⟨htabled, hcycled, fun _ => hthread, hblocked⟩
  | @acceptReturns err server _ haccept =>
      have hserver : threads.server.step (.accept err) = some server := haccept
      refine ⟨htabled.step hserver, hcycled.step hserver, fun hin => (by cases hin), ?_⟩
      intro h hin
      obtain ⟨framed, hhandler⟩ := hblocked h hin
      exact ⟨framed, Server.step_serving hhandler (fun heq => (by cases heq)) hserver⟩
  | @callBlocks h call framed hhandler hopen =>
      refine ⟨htabled, hcycled, haccepting, ?_⟩
      intro k hin
      rcases blocked_of_update hin with ⟨rfl, -⟩ | ⟨-, hold⟩
      · exact ⟨framed, hhandler⟩
      · exact hblocked k hold
  | callReturns h _ =>
      refine ⟨htabled, hcycled, haccepting, ?_⟩
      intro k hin
      rcases blocked_of_update hin with ⟨-, hnone⟩ | ⟨-, hold⟩
      · cases hnone
      · exact hblocked k hold
  | @leaves h server _ hleave =>
      have hserver : threads.server.step (.leave h) = some server := hleave
      refine ⟨htabled.step hserver, hcycled.step hserver, ?_, ?_⟩
      · intro hinAccept
        exact Server.step_accepting hcycled (haccepting hinAccept) (fun _ heq => (by cases heq)) hserver
      · intro k hin
        rcases blocked_of_update hin with ⟨-, hnone⟩ | ⟨hne, hold⟩
        · cases hnone
        · obtain ⟨framed, hhandler⟩ := hblocked k hold
          refine ⟨framed, Server.step_serving hhandler ?_ hserver⟩
          rintro heq
          cases heq
          exact hne rfl

/-! ## Nobody is woken -/

/-- The join that waits for a thread inside of a call goes on waiting. -/
theorem JoinsBlocked.caller_eq (hplaced : Placed limit threads) (hjoins : threads.JoinsBlocked)
    {serverEvent : ServerEvent} {server : Server}
    (hstep : threads.server.step serverEvent = some server) :
    server.caller = threads.server.caller := by
  have hbusy : threads.server.caller ≠ .idle := by
    intro hidle
    rcases hjoins with ⟨hcaller, -⟩ | ⟨h, rest, hcaller, -⟩
    · rw [hidle] at hcaller
      cases hcaller
    · rw [hidle] at hcaller
      cases hcaller
  apply Server.step_caller hstep hbusy
  rintro rfl
  have hproceed : threads.server.proceed = some server := hstep
  rcases hjoins with ⟨hcaller, hin⟩ | ⟨h, rest, hcaller, hin⟩
  · rw [Server.proceed, hcaller, hplaced.accepting hin] at hproceed
    cases hproceed
  · obtain ⟨framed, hhandler⟩ := hplaced.blocked h hin
    have hrunning : threads.server.finished h = false := by
      rw [Server.finished, hhandler]
      rfl
    rw [Server.proceed, hcaller] at hproceed
    simp only [hrunning, Bool.false_eq_true, if_false] at hproceed
    cases hproceed

/-- By themselves the threads do not wake one that `stop` joins. -/
theorem JoinsBlocked.step (hplaced : Placed limit threads) (hjoins : threads.JoinsBlocked)
    (hown : event.Own) (hstep : threads.step event = some next) : next.JoinsBlocked := by
  have hthread : ∀ h rest, threads.server.caller = .joining (h :: rest) →
      threads.server.acceptThread = none := by
    intro h rest hcaller
    have horder := hplaced.cycled.inOrder
    unfold Server.InOrder at horder
    rw [hcaller] at horder
    exact horder.1
  -- a call that ends by itself had not blocked
  have hother : ∀ h k, threads.blocked h = none → (threads.blocked k).isSome = true →
      (Function.update threads.blocked h none k).isSome = true := by
    intro h k hnone hin
    have hne : k ≠ h := by
      rintro rfl
      rw [hnone] at hin
      cases hin
    rwa [Function.update_of_ne hne]
  cases step_does hstep with
  | @server serverEvent server _ _ hserver =>
      unfold JoinsBlocked
      rw [JoinsBlocked.caller_eq hplaced hjoins hserver]
      exact hjoins
  | acceptBlocks hthread' hopen =>
      rcases hjoins with ⟨hcaller, -⟩ | hblocked
      · exact .inl ⟨hcaller, rfl⟩
      · exact .inr hblocked
  | @acceptReturns err server hfree haccept =>
      rcases hjoins with ⟨-, hin⟩ | ⟨h, rest, hcaller, hin⟩
      · rw [hfree hown] at hin
        cases hin
      · obtain ⟨haccepting, -⟩ := Server.accept_eq haccept
        rw [hthread h rest hcaller] at haccepting
        cases haccepting
  | callBlocks h call hhandler hopen =>
      rcases hjoins with haccepting | ⟨k, rest, hcaller, hin⟩
      · exact .inl haccepting
      · refine .inr ⟨k, rest, hcaller, ?_⟩
        dsimp only
        by_cases hsame : k = h
        · subst hsame
          rw [Function.update_self]
          rfl
        · rwa [Function.update_of_ne hsame]
  | callReturns h hfree =>
      rcases hjoins with haccepting | ⟨k, rest, hcaller, hin⟩
      · exact .inl haccepting
      · exact .inr ⟨k, rest, hcaller, hother h k (hfree hown) hin⟩
  | @leaves h server hfree hleave =>
      have hcaller' := @JoinsBlocked.caller_eq _ _ hplaced hjoins (.leave h) server hleave
      rcases hjoins with ⟨hcaller, hin⟩ | ⟨k, rest, hcaller, hin⟩
      · exact .inl ⟨hcaller'.trans hcaller, hin⟩
      · exact .inr ⟨k, rest, hcaller'.trans hcaller, hother h k (hfree hown) hin⟩

/-- Where `stop` joins a thread inside of a call, the server is stuck. -/
theorem JoinsBlocked.stuck (hplaced : Placed limit threads) (hjoins : threads.JoinsBlocked) :
    threads.Stuck := by
  refine ⟨hjoins, ?_⟩
  intro events last hown hrun
  have hboth : Placed limit last ∧ last.JoinsBlocked := by
    refine run_invariant_of_guarded (fun state => Placed limit state ∧ state.JoinsBlocked) ?_
      ⟨hplaced, hjoins⟩ (guarded_of_forall_mem hown) hrun
    rintro state event next ⟨hstate, hjoinsState⟩ hevent hnext
    exact ⟨hstate.step hnext, JoinsBlocked.step hstate hjoinsState hevent hnext⟩
  exact hboth.2

end Threads

end Ibridger.Cpp
