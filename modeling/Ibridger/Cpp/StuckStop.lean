import Ibridger.Cpp.BlockingCalls

/-! # When `stop` gets stuck

A `stop` that closes only descriptors on which no thread is inside of a call finds
every thread that it joins outside of one: the accept thread cannot begin another
`::accept`, and a handler fails at its next `::read` or `::send`.
-/

namespace Ibridger.Cpp

open Transition

/-- Behind the accept loop no handler appears. -/
theorem Server.handles_of_step {server next : Server} {event : ServerEvent}
    (hstep : server.step event = some next) (hthread : server.acceptThread = none) {h c : Nat}
    (hhandles : next.Handles h c) : server.Handles h c := by
  rcases step_handlers hstep with hsame | ⟨conn, -, hinserting, -⟩ |
    ⟨k, framed, phase, phase', -, hhandler, hrunning, hset⟩
  · rw [Handles, hsame] at hhandles
    exact hhandles
  · rw [hthread] at hinserting
    cases hinserting
  · by_cases hsame : h = k
    · subst hsame
      obtain ⟨rfl, -⟩ := (handles_set_self hhandler hset c).mp hhandles
      exact ⟨phase, hhandler, hrunning⟩
    · exact (handles_set_ne hset hsame c).mp hhandles

theorem Server.step_idle {server next : Server} {event : ServerEvent}
    (hstep : server.step event = some next) (hidle : server.caller = .idle) :
    next.caller = .idle ∨ next.caller = .spawning ∨ next.caller = .closingListener := by
  cases event with
  | start outcome =>
      obtain ⟨-, rfl | ⟨-, rfl⟩⟩ := step_start hstep
      · exact .inl hidle
      · exact .inr (.inl rfl)
  | stop =>
      obtain ⟨-, rfl | ⟨-, rfl⟩⟩ := step_stop hstep
      · exact .inl hidle
      · exact .inr (.inr rfl)
  | proceed =>
      have hproceed : server.proceed = some next := hstep
      rw [proceed, hidle] at hproceed
      cases hproceed
  | test =>
      obtain ⟨-, rfl⟩ := test_eq hstep
      exact .inl hidle
  | accept err =>
      obtain ⟨-, ⟨-, rfl⟩ | ⟨-, rfl⟩⟩ := accept_eq hstep
      · exact .inl hidle
      · exact .inl hidle
  | checkLimit =>
      obtain ⟨conn, -, ⟨-, rfl⟩ | ⟨-, rfl⟩⟩ := checkLimit_eq hstep
      · exact .inl hidle
      · exact .inl hidle
  | insert =>
      obtain ⟨conn, -, rfl⟩ := insert_eq hstep
      exact .inl hidle
  | leave h =>
      obtain ⟨framed, -, rfl⟩ := leave_eq hstep
      exact .inl hidle
  | removeConnection h =>
      obtain ⟨framed, -, rfl⟩ := removeConnection_eq hstep
      exact .inl hidle

namespace Threads

variable {limit : Nat} {threads next : Threads} {event : ThreadEvent}

/-- What `stop` has seen to at each of its stages. -/
def Stage (threads : Threads) : Prop :=
  match threads.server.caller with
  | .joiningAccept => threads.accepting = false ∧ threads.listening = false
  | .closing snapshot =>
      ∀ h c, threads.server.Handles h c → threads.server.closed c = true ∨ c ∈ snapshot
  | .takingThreads | .joining _ =>
      ∀ h c, threads.server.Handles h c → threads.server.closed c = true
  | .idle | .spawning | .closingListener | .snapshotting => True

/-- No thread is inside of a call on a closed descriptor. -/
structure Clear (threads : Threads) : Prop where
  unclosed : ∀ h c, (threads.blocked h).isSome = true → threads.server.Assigned h c →
    threads.server.closed c = false
  stage : threads.Stage

theorem Placed.assigned (hplaced : Placed limit threads) {h : Nat}
    (hin : (threads.blocked h).isSome = true) : ∃ c, threads.server.Handles h c := by
  obtain ⟨framed, hhandler⟩ := hplaced.blocked h hin
  exact ⟨framed, .serving, hhandler, by decide⟩

theorem assigned_unique {server : Server} {h c d : Nat} (hc : server.Assigned h c)
    (hd : server.Assigned h d) : c = d := by
  obtain ⟨phase, hphase⟩ := hc
  obtain ⟨other, hother⟩ := hd
  rw [hphase] at hother
  cases hother
  rfl

/-- No thread that `stop` joins is inside of a call. -/
theorem Clear.not_joinsBlocked (hplaced : Placed limit threads) (hclear : threads.Clear) :
    ¬ threads.JoinsBlocked := by
  have hstage := hclear.stage
  unfold Stage at hstage
  rintro (⟨hcaller, hin⟩ | ⟨h, rest, hcaller, hin⟩)
  · rw [hcaller] at hstage
    rw [hstage.1] at hin
    cases hin
  · rw [hcaller] at hstage
    obtain ⟨c, hhandles⟩ := hplaced.assigned hin
    have hopen := hclear.unclosed h c hin hhandles.assigned
    rw [hstage h c hhandles] at hopen
    cases hopen

/-- A step of the server that closes only what no thread uses. -/
theorem Clear.unclosed_of_server (hplaced : Placed limit threads) (hclear : threads.Clear)
    {serverEvent : ServerEvent} {server : Server}
    (hstep : threads.server.step serverEvent = some server)
    (hunused : ∀ c rest, serverEvent = .proceed → threads.server.caller = .closing (c :: rest) →
      ∀ h, threads.server.Handles h c → threads.blocked h = none)
    {h c : Nat} (hin : (threads.blocked h).isSome = true) (hassigned : server.Assigned h c)
    (hleave : serverEvent ≠ .leave h) : server.closed c = false := by
  obtain ⟨framed, hhandler⟩ := hplaced.blocked h hin
  have hsame : c = framed :=
    assigned_unique hassigned ⟨.serving, Server.step_serving hhandler hleave hstep⟩
  subst hsame
  have hbefore : threads.server.Assigned h c := ⟨.serving, hhandler⟩
  rcases Server.step_closed hplaced.tabled hbefore (hclear.unclosed h c hin hbefore) hstep with
    hopen | ⟨hproceed, rest, hcaller⟩
  · exact hopen
  · rw [hunused c rest hproceed hcaller h ⟨.serving, hhandler, by decide⟩] at hin
    cases hin

/-- Steps that leave `stop` at its stage. -/
theorem Stage.congr (hstage : threads.Stage) (hplaced : Placed limit threads)
    {serverEvent : ServerEvent} (hstep : threads.server.step serverEvent = some next.server)
    (hcaller : next.server.caller = threads.server.caller)
    (hcalls : threads.accepting = false ∧ threads.listening = false →
      next.accepting = false ∧ next.listening = false) : next.Stage := by
  have hclosed := (Server.Advances.of_step hstep).closed
  have horder := hplaced.cycled.inOrder
  unfold Stage at hstage ⊢
  unfold Server.InOrder at horder
  rw [hcaller]
  cases hphase : threads.server.caller with
  | idle | spawning | closingListener | snapshotting => trivial
  | joiningAccept =>
      rw [hphase] at hstage
      exact hcalls hstage
  | closing snapshot =>
      rw [hphase] at hstage horder
      intro h c hhandles
      rcases hstage h c (Server.handles_of_step hstep horder hhandles) with hdone | hlisted
      · exact .inl (hclosed c hdone)
      · exact .inr hlisted
  | takingThreads =>
      rw [hphase] at hstage horder
      intro h c hhandles
      exact hclosed c (hstage h c (Server.handles_of_step hstep horder hhandles))
  | joining threads =>
      rw [hphase] at hstage horder
      intro h c hhandles
      exact hclosed c (hstage h c (Server.handles_of_step hstep horder.1 hhandles))

/-- The next step of `stop`. -/
theorem Stage.proceed (hstage : threads.Stage) (hplaced : Placed limit threads) {server : Server}
    (hunused : threads.ClosesUnused (.server .proceed))
    (hproceed : threads.server.proceed = some server) :
    Stage { threads with server := server, listening := threads.listensBehind .proceed } := by
  unfold Stage at hstage ⊢
  unfold ClosesUnused at hunused
  unfold listensBehind
  unfold Server.proceed at hproceed
  dsimp only at hunused ⊢
  split at hproceed
  · cases hproceed
  · cases hproceed
    trivial
  next hcaller =>
    rw [hcaller] at hunused
    cases hproceed
    refine ⟨hunused, ?_⟩
    rw [hcaller]
    exact Bool.and_false _
  · split at hproceed
    · cases hproceed
      trivial
    · cases hproceed
      trivial
    · cases hproceed
  · cases hproceed
    intro h c hhandles
    exact .inr ((hplaced.tabled.mem_iff c).mpr ⟨h, hhandles⟩)
  next hcaller =>
    rw [hcaller] at hstage
    cases hproceed
    intro h c hhandles
    rcases hstage h c hhandles with hdone | hnone
    · exact hdone
    · cases hnone
  next conn rest hcaller =>
    rw [hcaller] at hstage
    cases hproceed
    intro h c hhandles
    dsimp only
    rcases hstage h c hhandles with hdone | hlisted
    · exact .inl (Server.update_closed threads.server conn hdone)
    · rcases List.mem_cons.mp hlisted with rfl | hrest
      · exact .inl (Function.update_self ..)
      · exact .inr hrest
  next hcaller =>
    rw [hcaller] at hstage
    cases hproceed
    exact hstage
  · cases hproceed
    trivial
  next joined rest hcaller =>
    rw [hcaller] at hstage
    split at hproceed
    · cases hproceed
      exact hstage
    · cases hproceed

theorem Stage.server (hstage : threads.Stage) (hplaced : Placed limit threads)
    {serverEvent : ServerEvent} {server : Server}
    (hunused : threads.ClosesUnused (.server serverEvent))
    (hstep : threads.server.step serverEvent = some server) :
    Stage { threads with server := server, listening := threads.listensBehind serverEvent } := by
  by_cases hproceed : serverEvent = .proceed
  · subst hproceed
    exact hstage.proceed hplaced hunused hstep
  by_cases hidle : threads.server.caller = .idle
  · unfold Stage
    dsimp only
    rcases Server.step_idle hstep hidle with hcaller | hcaller | hcaller
    all_goals
      rw [hcaller]
      trivial
  · refine @Stage.congr _ _ { threads with server := server, listening := _ } hstage hplaced _ hstep
      (Server.step_caller hstep hidle hproceed) ?_
    rintro ⟨haccepting, hlistening⟩
    refine ⟨haccepting, ?_⟩
    dsimp only
    cases serverEvent with
    | start outcome => exact absurd (Option.ite_none_right_eq_some.mp hstep).1 hidle
    | proceed => exact absurd rfl hproceed
    | stop | test | accept | checkLimit | insert | leave | removeConnection => exact hlistening

theorem Clear.step (hplaced : Placed limit threads) (hclear : threads.Clear)
    (hunused : threads.ClosesUnused event) (hstep : threads.step event = some next) :
    next.Clear := by
  have hstage := hclear.stage
  cases step_does hstep with
  | @server serverEvent server hevent hinside hserver =>
      subst hevent
      refine ⟨?_, hstage.server hplaced hunused hserver⟩
      intro h c hin hassigned
      refine hclear.unclosed_of_server hplaced hserver ?_ hin hassigned ?_
      · rintro conn rest rfl hcaller
        unfold ClosesUnused at hunused
        dsimp only at hunused
        rw [hcaller] at hunused
        exact hunused
      · rintro rfl
        exact Bool.false_ne_true (hinside.symm.trans hin)
  | acceptBlocks hthread hopen =>
      refine ⟨hclear.unclosed, ?_⟩
      have horder := hplaced.cycled.inOrder
      unfold Stage at hstage ⊢
      rcases horder.of_joinable hthread with ⟨hcaller, -⟩ | ⟨hcaller | hcaller, -⟩
      · rw [hcaller]
        trivial
      · rw [hcaller]
        trivial
      · rw [hcaller] at hstage
        rw [hstage.2] at hopen
        cases hopen
  | @acceptReturns err server _ haccept =>
      have hserver : threads.server.step (.accept err) = some server := haccept
      refine ⟨?_, ?_⟩
      · intro h c hin hassigned
        exact hclear.unclosed_of_server hplaced hserver (fun _ _ heq => (by cases heq)) hin
          hassigned fun heq => (by cases heq)
      · refine @Stage.congr _ _ { threads with server := server, accepting := false } hstage hplaced
          _ hserver ?_ fun hcalls => ⟨rfl, hcalls.2⟩
        obtain ⟨-, ⟨-, rfl⟩ | ⟨-, rfl⟩⟩ := Server.accept_eq haccept
        · rfl
        · rfl
  | @callBlocks h call framed hhandler hopen =>
      refine ⟨?_, hstage⟩
      intro k c hin hassigned
      rcases blocked_of_update hin with ⟨rfl, -⟩ | ⟨-, hold⟩
      · rw [assigned_unique hassigned ⟨.serving, hhandler⟩]
        exact hopen
      · exact hclear.unclosed k c hold hassigned
  | callReturns h _ =>
      refine ⟨?_, hstage⟩
      intro k c hin hassigned
      rcases blocked_of_update hin with ⟨-, hnone⟩ | ⟨-, hold⟩
      · cases hnone
      · exact hclear.unclosed k c hold hassigned
  | @leaves h server _ hleave =>
      have hserver : threads.server.step (.leave h) = some server := hleave
      refine ⟨?_, ?_⟩
      · intro k c hin hassigned
        rcases blocked_of_update hin with ⟨-, hnone⟩ | ⟨hne, hold⟩
        · cases hnone
        · refine hclear.unclosed_of_server hplaced hserver (fun _ _ heq => (by cases heq)) hold
            hassigned ?_
          intro heq
          cases heq
          exact hne rfl
      · refine @Stage.congr _ _ { threads with server := server, blocked := _ } hstage hplaced
          _ hserver ?_ id
        obtain ⟨framed, -, rfl⟩ := Server.leave_eq hleave
        rfl

theorem init_clear (config : ServerConfig) : (init config).Clear := by
  refine ⟨fun _ _ hin => (by cases hin), ?_⟩
  unfold Stage
  trivial

/-- In every run in which `stop` closes no descriptor while a thread is inside of a
call on it, it never gets stuck. -/
theorem stop_unstuck_of_unused (config : ServerConfig) {events : List ThreadEvent}
    (hunused : Guarded step ClosesUnused (init config) events) :
    Throughout step (fun threads => ¬ threads.Stuck) (init config) events := by
  apply throughout_of_guarded
    (fun threads => Placed config.maxConnections threads ∧ threads.Clear) _ _
    ⟨init_placed config, init_clear config⟩ hunused
  · rintro threads ⟨hplaced, hclear⟩ hstuck
    exact hclear.not_joinsBlocked hplaced hstuck.joins
  · rintro threads event next ⟨hplaced, hclear⟩ hallowed hstep
    exact ⟨hplaced.step hstep, hclear.step hplaced hallowed hstep⟩

/-- A call that has begun and ended leaves no thread inside of one. -/
theorem blocked_answered {blocked : Nat → Option HandlerCall} (h : Nat) (call : HandlerCall)
    (hfree : ∀ k, blocked k = none) (k : Nat) :
    Function.update (Function.update blocked h (some call)) h none k = none := by
  rw [Function.update_idem]
  by_cases hsame : k = h
  · subst hsame
    exact Function.update_self _ _ _
  · exact (Function.update_of_ne hsame _ _).trans (hfree k)

/-- One client has gone, and the handler of another one is at work on a request when
the server is stopped. -/
def stopsAtWork : List ThreadEvent :=
  [.server (.start .listening), .server .proceed, .server .test, .callAccept (some none),
    .server .checkLimit, .server .insert, .call 0 .read none, .answered 0 false,
    .server (.removeConnection 0), .server .test, .callAccept (some none), .server .checkLimit,
    .server .insert, .call 1 .read none, .answered 1 true, .server .stop, .server .proceed,
    .server .test, .server .proceed, .server .proceed, .server .proceed, .server .proceed,
    .call 1 .send (some true), .server (.removeConnection 1), .server .proceed, .server .proceed,
    .server .proceed, .server .proceed]

/-- Neither the accept thread nor a handler is inside of a call when its descriptor is
closed, and `stop` returns. -/
theorem stop_unstuck_at_work :
    ∃ last, run step (init {}) stopsAtWork = some last ∧ last.server.caller = .idle ∧
      Throughout step (fun threads => ¬ threads.Stuck) (init {}) stopsAtWork := by
  refine ⟨_, rfl, rfl, stop_unstuck_of_unused {} ?_⟩
  -- the first sixteen steps are those up to the `stop`
  refine .cons rfl trivial (.cons rfl trivial (.cons rfl trivial (.cons rfl trivial
    (.cons rfl trivial (.cons rfl trivial (.cons rfl trivial (.cons rfl trivial
      (.cons rfl trivial (.cons rfl trivial (.cons rfl trivial (.cons rfl trivial
        (.cons rfl trivial (.cons rfl trivial (.cons rfl trivial (.cons rfl trivial
          ?_)))))))))))))))
  refine .cons rfl rfl (.cons rfl trivial (.cons rfl trivial (.cons rfl trivial (.cons rfl ?_
    (.cons rfl trivial (.cons rfl trivial (.cons rfl trivial (.cons rfl trivial
      (.cons rfl trivial (.cons rfl trivial (.cons rfl trivial trivial)))))))))))
  -- both reads have ended
  intro h _
  exact blocked_answered 1 .read (blocked_answered 0 .read fun _ => rfl) h

/-- The accept thread waits for a client when `stop` closes the listening socket. -/
def stopsWhileAccepting : List ThreadEvent :=
  [.server (.start .listening), .server .proceed, .server .test, .callAccept none,
    .server .stop, .server .proceed]

/-- The accept thread has noticed the `stop`, and a client is connected and idle. -/
def stopsWhileReading : List ThreadEvent :=
  [.server (.start .listening), .server .proceed, .server .test, .callAccept (some none),
    .server .checkLimit, .server .insert, .call 0 .read none, .server .stop, .server .proceed,
    .server .test, .server .proceed, .server .proceed, .server .proceed, .server .proceed,
    .server .proceed]

/-- `stop` waits for good for the accept thread, and elsewhere for a handler. -/
theorem stop_stuck :
    (∃ threads, run step (init {}) stopsWhileAccepting = some threads ∧ threads.Stuck) ∧
      ∃ threads, run step (init {}) stopsWhileReading = some threads ∧ threads.Stuck := by
  have hplaced : ∀ events threads, run step (init {}) events = some threads →
      Placed ({} : ServerConfig).maxConnections threads := by
    intro events threads hrun
    exact run_invariant (Placed ({} : ServerConfig).maxConnections)
      (fun _ _ _ hstate hnext => hstate.step hnext) (init_placed {}) hrun
  refine ⟨⟨_, rfl, ?_⟩, ⟨_, rfl, ?_⟩⟩
  · exact JoinsBlocked.stuck (hplaced stopsWhileAccepting _ rfl) (.inl ⟨rfl, rfl⟩)
  · exact JoinsBlocked.stuck (hplaced stopsWhileReading _ rfl) (.inr ⟨0, [], rfl, rfl⟩)

end Threads

end Ibridger.Cpp
