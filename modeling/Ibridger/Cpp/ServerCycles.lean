import Ibridger.Cpp.ConnectionTable

/-! # Cycles of start and stop

A `stop` joins the accept thread before it looks at the table, and it joins every
handler before it returns. So there is never a second accept loop, and a `start`
that gets past `running_` finds nothing left of the cycle before.
-/

namespace Ibridger.Cpp.Server

open Transition

/-- A `stop` returns with this step. -/
def StopReturns (server : Server) : ServerEvent → Prop
  | .stop => server.running = false
  | .proceed => server.caller = .joining []
  | _ => False

/-- No thread of the server runs, and it has no connections. -/
structure Stopped (server : Server) : Prop where
  acceptThread_eq : server.acceptThread = none
  no_handler : ∀ h c, ¬ server.Handles h c
  activeConnections_eq : server.activeConnections = []
  handlerThreads_eq : server.handlerThreads = []

/-- The loop finds the table full when it has accepted the connection. -/
def OverLimit (server : Server) (c : Nat) : Prop :=
  server.acceptThread = some (.checking c) ∧
    server.config.maxConnections ≤ server.activeConnections.length

/-- The connection has been closed and has no handler. -/
def Refused (server : Server) (c : Nat) : Prop :=
  server.closed c = true ∧ ∀ h, ¬ server.Assigned h c

/-! ## The threads at each step of a cycle -/

/-- The threads that a `stop` has yet to join. -/
def unjoined (server : Server) : List Nat :=
  match server.caller with
  | .joining threads => threads
  | _ => server.handlerThreads

/-- What `start` and `stop` have done to the threads at each of their steps. -/
def InOrder (server : Server) : Prop :=
  match server.caller with
  | .idle => server.running = false → server.acceptThread = none ∧ server.handlerThreads = []
  | .spawning => server.running = true ∧ server.acceptThread = none
  | .closingListener | .joiningAccept => server.running = false
  | .snapshotting | .closing _ | .takingThreads => server.acceptThread = none
  | .joining _ => server.acceptThread = none ∧ server.handlerThreads = []

/-- The invariant of the cycles. -/
structure Cycled (server : Server) : Prop where
  inOrder : server.InOrder
  unjoined : ∀ h c, server.Handles h c → h ∈ server.unjoined

theorem InOrder.congr {server next : Server} (horder : server.InOrder)
    (hcaller : next.caller = server.caller) (hrunning : next.running = server.running)
    (hthread : next.acceptThread = server.acceptThread)
    (hthreads : next.handlerThreads = server.handlerThreads) : next.InOrder := by
  unfold InOrder at horder ⊢
  rw [hcaller, hrunning, hthread, hthreads]
  exact horder

/-- The accept thread is joinable while the server runs and until `stop` has joined it. -/
theorem InOrder.of_joinable {server : Server} (horder : server.InOrder) {loop : AcceptLoop}
    (hthread : server.acceptThread = some loop) :
    server.caller = .idle ∧ server.running = true ∨
      (server.caller = .closingListener ∨ server.caller = .joiningAccept) ∧
        server.running = false := by
  unfold InOrder at horder
  rw [hthread] at horder
  cases hcaller : server.caller with
  | idle =>
      refine .inl ⟨rfl, ?_⟩
      by_contra hrunning
      rw [hcaller] at horder
      cases (horder (Bool.eq_false_iff.mpr hrunning)).1
  | closingListener =>
      rw [hcaller] at horder
      exact .inr ⟨.inl rfl, horder⟩
  | joiningAccept =>
      rw [hcaller] at horder
      exact .inr ⟨.inr rfl, horder⟩
  | joining threads =>
      rw [hcaller] at horder
      cases horder.1
  | spawning =>
      rw [hcaller] at horder
      cases horder.2
  | snapshotting | closing | takingThreads =>
      rw [hcaller] at horder
      cases horder

theorem InOrder.of_thread {server next : Server} (horder : server.InOrder) {loop : AcceptLoop}
    (hthread : server.acceptThread = some loop) (hcaller : next.caller = server.caller)
    (hrunning : next.running = server.running) : next.InOrder := by
  unfold InOrder
  rcases horder.of_joinable hthread with ⟨hphase, htrue⟩ | ⟨hphase | hphase, hfalse⟩
  · rw [hcaller, hphase, hrunning, htrue]
    intro h
    cases h
  · rw [hcaller, hphase, hrunning]
    exact hfalse
  · rw [hcaller, hphase, hrunning]
    exact hfalse

theorem unjoined_of_thread {server : Server} (horder : server.InOrder) {loop : AcceptLoop}
    (hthread : server.acceptThread = some loop) : server.unjoined = server.handlerThreads := by
  unfold unjoined
  rcases horder.of_joinable hthread with ⟨hphase, -⟩ | ⟨hphase | hphase, -⟩
  all_goals rw [hphase]

namespace Cycled

variable {server next : Server}

theorem init (config : ServerConfig) : Cycled (init config) := by
  refine ⟨fun _ => ⟨rfl, rfl⟩, ?_⟩
  rintro h c ⟨phase, hphase, -⟩
  cases hphase

/-- With nothing left to join, the server has stopped. -/
theorem stopped {limit : Nat} (hcycled : Cycled server) (htabled : Tabled limit server)
    (hthread : server.acceptThread = none) (hthreads : server.handlerThreads = [])
    (hunjoined : server.unjoined = []) : Stopped server := by
  have hhandles : ∀ h c, ¬ server.Handles h c := by
    intro h c hh
    have hmem := hcycled.unjoined h c hh
    rw [hunjoined] at hmem
    cases hmem
  refine ⟨hthread, hhandles, ?_, hthreads⟩
  rw [List.eq_nil_iff_forall_not_mem]
  intro c hc
  obtain ⟨h, hh⟩ := (htabled.mem_iff c).mp hc
  exact hhandles h c hh

theorem stopped_of_idle {limit : Nat} (hcycled : Cycled server) (htabled : Tabled limit server)
    (hcaller : server.caller = .idle) (hrunning : server.running = false) : Stopped server := by
  have horder := hcycled.inOrder
  unfold InOrder at horder
  rw [hcaller] at horder
  obtain ⟨hthread, hthreads⟩ := horder hrunning
  apply hcycled.stopped htabled hthread hthreads
  rw [Server.unjoined, hcaller]
  exact hthreads

/-- A step of the accept loop that spawns no handler. -/
theorem of_thread (hcycled : Cycled server) {loop : AcceptLoop}
    (hthread : server.acceptThread = some loop) (hcaller : next.caller = server.caller)
    (hrunning : next.running = server.running) (hhandlers : next.handlers = server.handlers)
    (hthreads : next.handlerThreads = server.handlerThreads) : Cycled next := by
  refine ⟨hcycled.inOrder.of_thread hthread hcaller hrunning, ?_⟩
  intro h c hh
  rw [Handles, hhandlers] at hh
  rw [Server.unjoined, hcaller, hthreads]
  exact hcycled.unjoined h c hh

theorem insert (hcycled : Cycled server) (hinsert : server.insert = some next) :
    Cycled next := by
  obtain ⟨conn, hthread, hnext⟩ := insert_eq hinsert
  have horder : next.InOrder :=
    hcycled.inOrder.of_thread hthread (by rw [hnext]) (by rw [hnext])
  have happend : next.handlers = server.handlers ++ [⟨conn, .serving⟩] := by rw [hnext]
  have hunjoined : next.unjoined = server.handlerThreads ++ [server.handlers.length] := by
    rw [unjoined_of_thread horder (by rw [hnext]), hnext]
  refine ⟨horder, ?_⟩
  intro h c hh
  rw [hunjoined, List.mem_append, List.mem_singleton]
  rcases (handles_append happend h c).mp hh with hh | ⟨hlast, -⟩
  · rw [← unjoined_of_thread hcycled.inOrder hthread]
    exact .inl (hcycled.unjoined h c hh)
  · exact .inr hlast

/-- A handler goes on to its next phase. -/
theorem of_handles (hcycled : Cycled server) (hcaller : next.caller = server.caller)
    (hrunning : next.running = server.running) (hthread : next.acceptThread = server.acceptThread)
    (hthreads : next.handlerThreads = server.handlerThreads)
    (hhandles : ∀ h c, next.Handles h c → server.Handles h c) : Cycled next := by
  refine ⟨hcycled.inOrder.congr hcaller hrunning hthread hthreads, ?_⟩
  intro h c hh
  rw [Server.unjoined, hcaller, hthreads]
  exact hcycled.unjoined h c (hhandles h c hh)

theorem finished_iff (h : Nat) : server.finished h = true ↔ ∀ c, ¬ server.Handles h c := by
  unfold finished Handles
  cases server.handlers[h]? with
  | none => simp
  | some handler =>
      obtain ⟨framed, phase⟩ := handler
      simp

/-- The next step of `start` and `stop`. -/
theorem proceed (hcycled : Cycled server) (hproceed : server.proceed = some next) :
    Cycled next := by
  have horder := hcycled.inOrder
  have hunjoined := hcycled.unjoined
  unfold InOrder at horder
  unfold Server.unjoined at hunjoined
  unfold Server.proceed at hproceed
  split at hproceed
  · cases hproceed
  next hcaller =>
    rw [hcaller] at horder hunjoined
    cases hproceed
    refine ⟨?_, hunjoined⟩
    intro hrunning
    exact absurd (horder.1.symm.trans hrunning) (by decide)
  next hcaller =>
    rw [hcaller] at horder hunjoined
    cases hproceed
    exact ⟨horder, hunjoined⟩
  next hcaller =>
    rw [hcaller] at hunjoined
    split at hproceed
    next hthread =>
      cases hproceed
      exact ⟨hthread, hunjoined⟩
    · cases hproceed
      exact ⟨rfl, hunjoined⟩
    · cases hproceed
  next hcaller =>
    rw [hcaller] at horder hunjoined
    cases hproceed
    exact ⟨horder, hunjoined⟩
  next hcaller =>
    rw [hcaller] at horder hunjoined
    cases hproceed
    exact ⟨horder, hunjoined⟩
  next conn rest hcaller =>
    rw [hcaller] at horder hunjoined
    cases hproceed
    exact ⟨horder, hunjoined⟩
  next hcaller =>
    rw [hcaller] at horder hunjoined
    cases hproceed
    exact ⟨⟨horder, rfl⟩, hunjoined⟩
  next hcaller =>
    rw [hcaller] at horder hunjoined
    cases hproceed
    refine ⟨fun _ => horder, ?_⟩
    intro h c hh
    cases hunjoined h c hh
  next joined rest hcaller =>
    rw [hcaller] at horder hunjoined
    split at hproceed
    next hfinished =>
      cases hproceed
      refine ⟨horder, ?_⟩
      intro h c hh
      rcases List.mem_cons.mp (hunjoined h c hh) with rfl | hmem
      · exact absurd hh ((finished_iff h).mp hfinished c)
      · exact hmem
    · cases hproceed

theorem step (hcycled : Cycled server) {event : ServerEvent}
    (hstep : server.step event = some next) : Cycled next := by
  have horder := hcycled.inOrder
  have hunjoined := hcycled.unjoined
  cases event with
  | start outcome =>
      obtain ⟨hcaller, rfl | ⟨hrunning, rfl⟩⟩ := step_start hstep
      · exact hcycled
      · unfold InOrder at horder
        unfold Server.unjoined at hunjoined
        rw [hcaller] at horder hunjoined
        exact ⟨⟨rfl, (horder hrunning).1⟩, hunjoined⟩
  | stop =>
      obtain ⟨hcaller, rfl | ⟨-, rfl⟩⟩ := step_stop hstep
      · exact hcycled
      · unfold Server.unjoined at hunjoined
        rw [hcaller] at hunjoined
        exact ⟨rfl, hunjoined⟩
  | proceed => exact hcycled.proceed hstep
  | test =>
      obtain ⟨hthread, rfl⟩ := test_eq hstep
      exact hcycled.of_thread hthread rfl rfl rfl rfl
  | accept err =>
      obtain ⟨hthread, ⟨-, rfl⟩ | ⟨-, rfl⟩⟩ := accept_eq hstep
      · exact hcycled.of_thread hthread rfl rfl rfl rfl
      · exact hcycled.of_thread hthread rfl rfl rfl rfl
  | checkLimit =>
      obtain ⟨conn, hthread, ⟨-, rfl⟩ | ⟨-, rfl⟩⟩ := checkLimit_eq hstep
      · exact hcycled.of_thread hthread rfl rfl rfl rfl
      · exact hcycled.of_thread hthread rfl rfl rfl rfl
  | insert => exact hcycled.insert hstep
  | leave h =>
      obtain ⟨framed, hhandler, rfl⟩ := leave_eq hstep
      refine hcycled.of_handles rfl rfl rfl rfl ?_
      intro k c hk
      by_cases hsame : k = h
      · subst hsame
        obtain ⟨rfl, -⟩ := (handles_set_self hhandler rfl c).mp hk
        exact ⟨.serving, hhandler, by decide⟩
      · exact (handles_set_ne rfl hsame c).mp hk
  | removeConnection h =>
      obtain ⟨framed, hhandler, rfl⟩ := removeConnection_eq hstep
      refine hcycled.of_handles rfl rfl rfl rfl ?_
      intro k c hk
      by_cases hsame : k = h
      · subst hsame
        exact absurd rfl ((handles_set_self hhandler rfl c).mp hk).2
      · exact (handles_set_ne rfl hsame c).mp hk

/-- When a `stop` returns, nothing runs and nothing is left. -/
theorem stopped_of_stopReturns {limit : Nat} (hcycled : Cycled server)
    (htabled : Tabled limit server) {event : ServerEvent}
    (hstep : server.step event = some next) (hreturns : server.StopReturns event) :
    Stopped next := by
  have hnextCycled := hcycled.step hstep
  have hnextTabled := htabled.step hstep
  cases event with
  | stop =>
      obtain ⟨hcaller, hnext⟩ := Option.ite_none_right_eq_some.mp hstep
      rw [Server.stop, if_neg (by rw [hreturns]; decide)] at hnext
      cases hnext
      exact hcycled.stopped_of_idle htabled hcaller hreturns
  | proceed =>
      have horder := hcycled.inOrder
      unfold InOrder at horder
      rw [show server.caller = .joining [] from hreturns] at horder
      obtain ⟨hthread, hthreads⟩ := horder
      unfold Server.step Server.proceed at hstep
      rw [show server.caller = .joining [] from hreturns] at hstep
      cases hstep
      exact hnextCycled.stopped hnextTabled hthread hthreads hthreads
  | start | test | accept | checkLimit | insert | leave | removeConnection => cases hreturns

end Cycled

/-! ## Connections over the limit -/

/-- What a step may do to connections: they get handlers out of the hands of the
accept loop only, and the loop takes new ones only. -/
structure Advances (server next : Server) : Prop where
  assigned : ∀ h c, next.Assigned h c → server.Assigned h c ∨ server.held = some c
  held : ∀ c, next.held = some c → server.held = some c ∨ c = server.accepted
  closed : ∀ c, server.closed c = true → next.closed c = true
  accepted : server.accepted ≤ next.accepted

theorem update_closed (server : Server) (conn : Nat) {c : Nat} (hclosed : server.closed c = true) :
    Function.update server.closed conn true c = true := by
  by_cases hsame : c = conn
  · rw [hsame, Function.update_self]
  · rw [Function.update_of_ne hsame, hclosed]

/-- Steps that leave the handlers alone and take no new connection. -/
theorem Advances.frame {server next : Server} (hhandlers : next.handlers = server.handlers)
    (hheld : ∀ c, next.held = some c → server.held = some c)
    (hclosed : ∀ c, server.closed c = true → next.closed c = true)
    (haccepted : next.accepted = server.accepted) : Advances server next := by
  refine ⟨?_, fun c hc => .inl (hheld c hc), hclosed, Nat.le_of_eq haccepted.symm⟩
  intro h c hassigned
  rw [Assigned, hhandlers] at hassigned
  exact .inl hassigned

theorem Advances.refl (server : Server) : Advances server server :=
  .frame rfl (fun _ h => h) (fun _ h => h) rfl

theorem Advances.proceed {server next : Server} (hproceed : server.proceed = some next) :
    Advances server next := by
  unfold Server.proceed at hproceed
  split at hproceed
  · cases hproceed
  · cases hproceed
    exact .frame rfl (fun _ h => (by cases h)) (fun _ h => h) rfl
  · cases hproceed
    exact .frame rfl (fun _ h => h) (fun _ h => h) rfl
  · split at hproceed
    · cases hproceed
      exact .frame rfl (fun _ h => h) (fun _ h => h) rfl
    · cases hproceed
      exact .frame rfl (fun _ h => (by cases h)) (fun _ h => h) rfl
    · cases hproceed
  · cases hproceed
    exact .frame rfl (fun _ h => h) (fun _ h => h) rfl
  · cases hproceed
    exact .frame rfl (fun _ h => h) (fun _ h => h) rfl
  next conn rest hcaller =>
    cases hproceed
    exact .frame rfl (fun _ h => h) (fun _ h => update_closed server conn h) rfl
  · cases hproceed
    exact .frame rfl (fun _ h => h) (fun _ h => h) rfl
  · cases hproceed
    exact .frame rfl (fun _ h => h) (fun _ h => h) rfl
  · split at hproceed
    · cases hproceed
      exact .frame rfl (fun _ h => h) (fun _ h => h) rfl
    · cases hproceed

theorem Advances.of_step {server next : Server} {event : ServerEvent}
    (hstep : server.step event = some next) : Advances server next := by
  cases event with
  | start outcome =>
      obtain ⟨-, rfl | ⟨-, rfl⟩⟩ := step_start hstep
      · exact .refl _
      · exact .frame rfl (fun _ h => h) (fun _ h => h) rfl
  | stop =>
      obtain ⟨-, rfl | ⟨-, rfl⟩⟩ := step_stop hstep
      · exact .refl _
      · exact .frame rfl (fun _ h => h) (fun _ h => h) rfl
  | proceed => exact .proceed hstep
  | test =>
      obtain ⟨-, rfl⟩ := test_eq hstep
      refine .frame rfl ?_ (fun _ h => h) rfl
      intro c hc
      dsimp only [Server.held] at hc
      split at hc <;> cases hc
  | accept err =>
      obtain ⟨-, ⟨-, rfl⟩ | ⟨-, rfl⟩⟩ := accept_eq hstep
      · exact .frame rfl (fun _ h => (by cases h)) (fun _ h => h) rfl
      · refine ⟨fun _ _ h => .inl h, ?_, fun _ h => h, Nat.le_succ _⟩
        intro c hc
        cases hc
        exact .inr rfl
  | checkLimit =>
      obtain ⟨conn, hthread, ⟨-, rfl⟩ | ⟨-, rfl⟩⟩ := checkLimit_eq hstep
      · exact .frame rfl (fun _ h => (by cases h)) (fun _ h => update_closed server conn h) rfl
      · refine .frame rfl ?_ (fun _ h => h) rfl
        intro c hc
        rw [Server.held, hthread]
        exact hc
  | insert =>
      obtain ⟨conn, hthread, rfl⟩ := insert_eq hstep
      refine ⟨?_, fun _ h => (by cases h), fun _ h => h, Nat.le_refl _⟩
      intro h c hassigned
      rcases (assigned_append rfl h c).mp hassigned with hold | ⟨-, rfl⟩
      · exact .inl hold
      · right
        rw [Server.held, hthread]
        rfl
  | leave h =>
      obtain ⟨framed, hhandler, rfl⟩ := leave_eq hstep
      refine ⟨?_, fun _ h => .inl h, fun _ h => h, Nat.le_refl _⟩
      intro k c hassigned
      exact .inl ((assigned_set hhandler rfl k c).mp hassigned)
  | removeConnection h =>
      obtain ⟨framed, hhandler, rfl⟩ := removeConnection_eq hstep
      refine ⟨?_, fun _ h => .inl h, fun _ h => h, Nat.le_refl _⟩
      intro k c hassigned
      exact .inl ((assigned_set hhandler rfl k c).mp hassigned)

/-- A connection that the loop has let go without giving it a handler never gets one. -/
structure Barred (server : Server) (c : Nat) : Prop where
  refused : server.Refused c
  not_held : server.held ≠ some c
  numbered : c < server.accepted

theorem Barred.step {server next : Server} {c : Nat} (hbarred : server.Barred c)
    {event : ServerEvent} (hstep : server.step event = some next) : next.Barred c := by
  have hadvances := Advances.of_step hstep
  refine ⟨⟨hadvances.closed c hbarred.refused.1, ?_⟩, ?_,
    Nat.lt_of_lt_of_le hbarred.numbered hadvances.accepted⟩
  · intro h hassigned
    rcases hadvances.assigned h c hassigned with hold | hheld
    · exact hbarred.refused.2 h hold
    · exact hbarred.not_held hheld
  · intro hheld
    rcases hadvances.held c hheld with hold | hnew
    · exact hbarred.not_held hold
    · exact Nat.ne_of_lt hbarred.numbered hnew

theorem barred_of_overLimit {limit : Nat} {server next : Server} {c : Nat}
    (htabled : Tabled limit server) (hover : server.OverLimit c)
    (hstep : server.step .checkLimit = some next) : next.Barred c := by
  obtain ⟨hthread, hfull⟩ := hover
  have hheld : server.held = some c := by
    rw [held, hthread]
    rfl
  obtain ⟨hnumbered, hnew⟩ := htabled.held_new c hheld
  obtain ⟨conn, hconn, ⟨-, rfl⟩ | ⟨hroom, -⟩⟩ := checkLimit_eq hstep
  · rw [hthread] at hconn
    cases hconn
    exact ⟨⟨Function.update_self .., hnew⟩, fun h => (by cases h), hnumbered⟩
  · exact absurd hfull (Nat.not_le_of_lt hroom)

/-! ## Every stop can return -/

section Progress

variable {server : Server}

/-- Once `running_` is false, the accept loop gets to its end. -/
theorem exits_of_testing (hrunning : server.running = false)
    (hthread : server.acceptThread = some .testing) :
    ∃ last, Reachable step server last ∧ last.acceptThread = some .exited ∧
      last.caller = server.caller := by
  have htest : server.step .test = some { server with acceptThread := some .exited } := by
    rw [step, test, hthread, hrunning]
    rfl
  exact ⟨_, .single htest, rfl, rfl⟩

theorem exits_of_inserting (hrunning : server.running = false) {conn : Nat}
    (hthread : server.acceptThread = some (.inserting conn)) :
    ∃ last, Reachable step server last ∧ last.acceptThread = some .exited ∧
      last.caller = server.caller := by
  obtain ⟨next, hinsert⟩ : ∃ next, server.step .insert = some next := by
    rw [step, insert, hthread]
    exact ⟨_, rfl⟩
  obtain ⟨_, -, hnext⟩ := insert_eq hinsert
  obtain ⟨last, hlast, hexited, hcaller⟩ : ∃ last, Reachable step next last ∧
      last.acceptThread = some .exited ∧ last.caller = next.caller := by
    apply exits_of_testing
    · rw [hnext, hrunning]
    · rw [hnext]
  refine ⟨last, (Reachable.single hinsert).trans hlast, hexited, ?_⟩
  rw [hcaller, hnext]

theorem exits (hrunning : server.running = false) {loop : AcceptLoop}
    (hthread : server.acceptThread = some loop) :
    ∃ last, Reachable step server last ∧ last.acceptThread = some .exited ∧
      last.caller = server.caller := by
  cases loop with
  | testing => exact exits_of_testing hrunning hthread
  | inserting conn => exact exits_of_inserting hrunning hthread
  | exited => exact ⟨server, .refl server, hthread, rfl⟩
  | accepting =>
      -- closing the listener makes the `accept` fail
      have haccept : server.step (.accept (some (.system .EBADF))) =
          some { server with acceptThread := some .exited } := by
        rw [step, accept, hthread]
      exact ⟨_, .single haccept, rfl, rfl⟩
  | checking conn =>
      obtain ⟨next, hcheck⟩ : ∃ next, server.step .checkLimit = some next := by
        rw [step, checkLimit, hthread]
        dsimp only
        split
        · exact ⟨_, rfl⟩
        · exact ⟨_, rfl⟩
      obtain ⟨last, hlast, hexited, hcaller⟩ : ∃ last, Reachable step next last ∧
          last.acceptThread = some .exited ∧ last.caller = next.caller := by
        obtain ⟨_, -, ⟨-, rfl⟩ | ⟨-, rfl⟩⟩ := checkLimit_eq hcheck
        · exact exits_of_testing hrunning rfl
        · exact exits_of_inserting hrunning rfl
      refine ⟨last, (Reachable.single hcheck).trans hlast, hexited, ?_⟩
      obtain ⟨_, -, ⟨-, rfl⟩ | ⟨-, rfl⟩⟩ := checkLimit_eq hcheck
      · exact hcaller
      · exact hcaller

/-- A handler whose connection is closed finishes. -/
theorem finishes (server : Server) (h : Nat) :
    ∃ last, Reachable step server last ∧ last.finished h = true ∧ last.caller = server.caller := by
  cases hhandler : server.handlers[h]? with
  | none =>
    refine ⟨server, .refl server, ?_, rfl⟩
    rw [finished, hhandler]
    rfl
  | some handler =>
      have hlength := (List.getElem?_eq_some_iff.mp hhandler).1
      have hremove : ∀ state : Server, state.handlers[h]? = some ⟨handler.framed, .leaving⟩ →
          ∃ last, Reachable step state last ∧ last.finished h = true ∧
            last.caller = state.caller := by
        intro state hleaving
        have hstep : state.step (.removeConnection h) = some { state with
            handlers := state.handlers.set h ⟨handler.framed, .finished⟩
            activeConnections := state.activeConnections.erase handler.framed } := by
          rw [step, removeConnection, hleaving]
        refine ⟨_, .single hstep, ?_, rfl⟩
        rw [finished, List.getElem?_set_self (List.getElem?_eq_some_iff.mp hleaving).1]
        rfl
      obtain ⟨framed, phase⟩ := handler
      cases phase with
      | serving =>
          obtain ⟨next, hnext, hleaving, hsame⟩ : ∃ next, server.step (.leave h) = some next ∧
              next.handlers[h]? = some ⟨framed, .leaving⟩ ∧ next.caller = server.caller := by
            rw [step, leave, hhandler]
            exact ⟨_, rfl, List.getElem?_set_self hlength, rfl⟩
          obtain ⟨last, hlast, hfinished, hcaller⟩ := hremove next hleaving
          exact ⟨last, (Reachable.single hnext).trans hlast, hfinished, hcaller.trans hsame⟩
      | leaving => exact hremove server hhandler
      | finished =>
          refine ⟨server, .refl server, ?_, rfl⟩
          rw [Server.finished, hhandler]
          rfl

/-- A `stop` that waits for the handlers gets through its joins. -/
theorem joins (threads : List Nat) (hcaller : server.caller = .joining threads) :
    ∃ last, Reachable step server last ∧ last.caller = .idle := by
  induction threads generalizing server with
  | nil =>
      have hstep : server.step .proceed = some { server with caller := .idle } := by
        rw [step, Server.proceed, hcaller]
      exact ⟨_, .single hstep, rfl⟩
  | cons h rest ih =>
      obtain ⟨middle, hmiddle, hfinished, hsame⟩ := finishes server h
      obtain ⟨next, hnext, hrest⟩ : ∃ next, middle.step .proceed = some next ∧
          next.caller = .joining rest := by
        rw [step, Server.proceed, hsame, hcaller]
        exact ⟨_, if_pos hfinished, rfl⟩
      obtain ⟨last, hlast, hidle⟩ := ih hrest
      exact ⟨last, (hmiddle.tail hnext).trans hlast, hidle⟩

theorem closes (snapshot : List Nat) (hcaller : server.caller = .closing snapshot) :
    ∃ last, Reachable step server last ∧ last.caller = .idle := by
  induction snapshot generalizing server with
  | nil =>
      obtain ⟨taking, htaking, hphase⟩ : ∃ next, server.step .proceed = some next ∧
          next.caller = .takingThreads := by
        rw [step, Server.proceed, hcaller]
        exact ⟨_, rfl, rfl⟩
      obtain ⟨next, hnext, hjoining⟩ : ∃ next, taking.step .proceed = some next ∧
          next.caller = .joining taking.handlerThreads := by
        rw [step, Server.proceed, hphase]
        exact ⟨_, rfl, rfl⟩
      obtain ⟨last, hlast, hidle⟩ := joins _ hjoining
      exact ⟨last, ((Reachable.single htaking).tail hnext).trans hlast, hidle⟩
  | cons conn rest ih =>
      obtain ⟨next, hnext, hrest⟩ : ∃ next, server.step .proceed = some next ∧
          next.caller = .closing rest := by
        rw [step, Server.proceed, hcaller]
        exact ⟨_, rfl, rfl⟩
      obtain ⟨last, hlast, hidle⟩ := ih hrest
      exact ⟨last, (Reachable.single hnext).trans hlast, hidle⟩

/-- A `stop` that waits for the accept loop gets through the join and the rest. -/
theorem joinsAccept (hrunning : server.running = false) (hcaller : server.caller = .joiningAccept) :
    ∃ last, Reachable step server last ∧ last.caller = .idle := by
  obtain ⟨middle, hmiddle, next, hnext, hphase⟩ : ∃ middle, Reachable step server middle ∧
      ∃ next, middle.step .proceed = some next ∧ next.caller = .snapshotting := by
    cases hthread : server.acceptThread with
    | none =>
        refine ⟨server, .refl server, ?_⟩
        rw [step, Server.proceed, hcaller, hthread]
        exact ⟨_, rfl, rfl⟩
    | some loop =>
        obtain ⟨middle, hmiddle, hexited, hsame⟩ := exits hrunning hthread
        refine ⟨middle, hmiddle, ?_⟩
        rw [step, Server.proceed, hsame, hcaller, hexited]
        exact ⟨_, rfl, rfl⟩
  obtain ⟨closing, hclosing, hsnapshot⟩ : ∃ closing, next.step .proceed = some closing ∧
      closing.caller = .closing next.activeConnections := by
    rw [step, Server.proceed, hphase]
    exact ⟨_, rfl, rfl⟩
  obtain ⟨last, hlast, hidle⟩ := closes _ hsnapshot
  exact ⟨last, ((hmiddle.tail hnext).tail hclosing).trans hlast, hidle⟩

/-- Whatever a `start` or a `stop` waits for can happen, and then it returns. -/
theorem can_return (horder : server.InOrder) :
    ∃ last, Reachable step server last ∧ last.caller = .idle := by
  unfold InOrder at horder
  cases hcaller : server.caller with
  | idle => exact ⟨server, .refl server, hcaller⟩
  | spawning =>
      have hstep : server.step .proceed =
          some { server with caller := .idle, acceptThread := some .testing } := by
        rw [step, Server.proceed, hcaller]
      exact ⟨_, .single hstep, rfl⟩
  | closingListener =>
      rw [hcaller] at horder
      obtain ⟨next, hnext, hrunning, hphase⟩ : ∃ next, server.step .proceed = some next ∧
          next.running = false ∧ next.caller = .joiningAccept := by
        rw [step, Server.proceed, hcaller]
        exact ⟨_, rfl, horder, rfl⟩
      obtain ⟨last, hlast, hidle⟩ := joinsAccept hrunning hphase
      exact ⟨last, (Reachable.single hnext).trans hlast, hidle⟩
  | joiningAccept =>
      rw [hcaller] at horder
      exact joinsAccept horder hcaller
  | snapshotting =>
      obtain ⟨next, hnext, hsnapshot⟩ : ∃ next, server.step .proceed = some next ∧
          next.caller = .closing server.activeConnections := by
        rw [step, Server.proceed, hcaller]
        exact ⟨_, rfl, rfl⟩
      obtain ⟨last, hlast, hidle⟩ := closes _ hsnapshot
      exact ⟨last, (Reachable.single hnext).trans hlast, hidle⟩
  | closing snapshot => exact closes snapshot hcaller
  | takingThreads =>
      obtain ⟨next, hnext, hjoining⟩ : ∃ next, server.step .proceed = some next ∧
          next.caller = .joining server.handlerThreads := by
        rw [step, Server.proceed, hcaller]
        exact ⟨_, rfl, rfl⟩
      obtain ⟨last, hlast, hidle⟩ := joins _ hjoining
      exact ⟨last, (Reachable.single hnext).trans hlast, hidle⟩
  | joining threads => exact joins threads hcaller

end Progress
/-- In every state that any schedule and any cycles of `start` and `stop` reach,
the table is bounded and matches the handlers; a `stop` that returns leaves
nothing, and it can return; and a connection over the limit is closed and never
gets a handler. -/
theorem connection_table (config : ServerConfig) {server : Server}
    (hreach : Reachable step (init config) server) :
    ConnectionTable config.maxConnections server ∧
      (∀ event next, server.step event = some next → server.StopReturns event → Stopped next) ∧
      (∃ last, Reachable step server last ∧ last.caller = .idle) ∧
      ∀ c, server.OverLimit c → ∀ next last, server.step .checkLimit = some next →
        Reachable step next last → last.Refused c := by
  have hinv : Tabled config.maxConnections server ∧ Cycled server := by
    refine hreach.invariant (fun server => Tabled config.maxConnections server ∧ Cycled server)
      ?_ ⟨Tabled.init config, Cycled.init config⟩
    rintro state event next ⟨htabled, hcycled⟩ hstep
    exact ⟨htabled.step hstep, hcycled.step hstep⟩
  obtain ⟨htabled, hcycled⟩ := hinv
  refine ⟨htabled.connectionTable, ?_, can_return hcycled.inOrder, ?_⟩
  · intro event next hstep hreturns
    exact hcycled.stopped_of_stopReturns htabled hstep hreturns
  · intro c hover next last hstep hlast
    have hbarred := barred_of_overLimit htabled hover hstep
    have hlastBarred := hlast.invariant (fun state => Barred state c)
      (fun _ _ _ hold hnext => Barred.step hold hnext) hbarred
    exact hlastBarred.refused

/-- With room for one connection, the second is over the limit. -/
theorem connection_table_over_limit :
    ∃ server, Reachable step (init { maxConnections := 1 }) server ∧ server.OverLimit 1 ∧
      ConnectionTable 1 server := by
  have hreach : Reachable step (init { maxConnections := 1 }) _ :=
    ⟨[.start .listening, .proceed, .test, .accept none, .checkLimit, .insert, .test, .accept none],
      rfl⟩
  exact ⟨_, hreach, ⟨rfl, Nat.le_refl 1⟩, (connection_table _ hreach).1⟩

end Ibridger.Cpp.Server
