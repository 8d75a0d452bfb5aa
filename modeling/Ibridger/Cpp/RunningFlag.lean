import Ibridger.Cpp.ServerCycles

/-! # The flag and the accept loop

`running_` is set by `start` and cleared by `stop`. The accept loop also ends by
itself when an `accept` fails, and it leaves the flag as it is.
-/

namespace Ibridger.Cpp.Server

open Transition

/-- The accept loop has not ended, or its thread is being spawned. -/
def GoingToAccept (server : Server) : Prop :=
  server.caller = .spawning ∨ ∃ loop, server.acceptThread = some loop ∧ loop ≠ .exited

/-- `is_running` tells the truth about the accept loop. -/
def FlagHolds (server : Server) : Prop := server.isRunning = true → server.GoingToAccept

/-- An `accept` fails only when a `stop` has cleared the flag. -/
def FailsOnlyStopped (server : Server) : ServerEvent → Prop
  | .accept (some _) => server.running = false
  | _ => True

/-- The accept loop has ended and the flag says otherwise. -/
structure Deaf (server : Server) : Prop where
  caller_eq : server.caller = .idle
  running_eq : server.running = true
  acceptThread_eq : server.acceptThread = some .exited

variable {server next : Server}

theorem FlagHolds.congr (hflag : server.FlagHolds) (hrunning : next.running = server.running)
    (hcaller : next.caller = server.caller) (hthread : next.acceptThread = server.acceptThread) :
    next.FlagHolds := by
  unfold FlagHolds isRunning GoingToAccept at *
  rw [hrunning, hcaller, hthread]
  exact hflag

/-- Where the flag holds and the accept thread has been joined, the flag is false. -/
theorem FlagHolds.running_eq (hflag : server.FlagHolds) (hcaller : server.caller ≠ .spawning)
    (hthread : server.acceptThread = none) : server.running = false := by
  by_contra hrunning
  rcases hflag (Bool.not_eq_false _ ▸ hrunning) with hspawning | ⟨loop, hloop, -⟩
  · exact hcaller hspawning
  · rw [hthread] at hloop
    cases hloop

theorem flagHolds_of_stopped (hrunning : next.running = false) : next.FlagHolds := by
  intro htrue
  exact absurd (hrunning.symm.trans htrue) (by decide)

theorem flagHolds_of_loop {loop : AcceptLoop} (hthread : next.acceptThread = some loop)
    (hloop : loop ≠ .exited) : next.FlagHolds :=
  fun _ => .inr ⟨loop, hthread, hloop⟩

theorem flagHolds_proceed (horder : server.InOrder) (hflag : server.FlagHolds)
    (hproceed : server.proceed = some next) : next.FlagHolds := by
  unfold InOrder at horder
  unfold proceed at hproceed
  split at hproceed
  · cases hproceed
  · cases hproceed
    exact flagHolds_of_loop rfl (by decide)
  next hcaller =>
    rw [hcaller] at horder
    cases hproceed
    exact flagHolds_of_stopped horder
  next hcaller =>
    rw [hcaller] at horder
    split at hproceed
    · cases hproceed
      exact flagHolds_of_stopped horder
    · cases hproceed
      exact flagHolds_of_stopped horder
    · cases hproceed
  next hcaller =>
    rw [hcaller] at horder
    cases hproceed
    exact flagHolds_of_stopped (hflag.running_eq (by rw [hcaller]; decide) horder)
  next hcaller =>
    rw [hcaller] at horder
    cases hproceed
    exact flagHolds_of_stopped (hflag.running_eq (by rw [hcaller]; decide) horder)
  next conn rest hcaller =>
    rw [hcaller] at horder
    cases hproceed
    exact flagHolds_of_stopped (hflag.running_eq (fun h => (by rw [hcaller] at h; cases h)) horder)
  next hcaller =>
    rw [hcaller] at horder
    cases hproceed
    exact flagHolds_of_stopped (hflag.running_eq (by rw [hcaller]; decide) horder)
  next hcaller =>
    rw [hcaller] at horder
    cases hproceed
    exact flagHolds_of_stopped (hflag.running_eq (by rw [hcaller]; decide) horder.1)
  next joined rest hcaller =>
    rw [hcaller] at horder
    split at hproceed
    · cases hproceed
      exact flagHolds_of_stopped
        (hflag.running_eq (fun h => (by rw [hcaller] at h; cases h)) horder.1)
    · cases hproceed

theorem flagHolds_step (horder : server.InOrder) (hflag : server.FlagHolds) {event : ServerEvent}
    (hallowed : server.FailsOnlyStopped event) (hstep : server.step event = some next) :
    next.FlagHolds := by
  cases event with
  | start outcome =>
      obtain ⟨-, rfl | ⟨-, rfl⟩⟩ := step_start hstep
      · exact hflag
      · exact fun _ => .inl rfl
  | stop =>
      obtain ⟨-, rfl | ⟨-, rfl⟩⟩ := step_stop hstep
      · exact hflag
      · exact flagHolds_of_stopped rfl
  | proceed => exact flagHolds_proceed horder hflag hstep
  | test =>
      obtain ⟨-, rfl⟩ := test_eq hstep
      intro hrunning
      have htrue : server.running = true := hrunning
      exact .inr ⟨_, rfl, by rw [htrue]; decide⟩
  | accept err =>
      obtain ⟨-, ⟨herr, rfl⟩ | ⟨-, rfl⟩⟩ := accept_eq hstep
      · obtain ⟨code, rfl⟩ := Option.ne_none_iff_exists'.mp herr
        exact flagHolds_of_stopped hallowed
      · exact flagHolds_of_loop rfl fun h => (by cases h)
  | checkLimit =>
      obtain ⟨conn, -, ⟨-, rfl⟩ | ⟨-, rfl⟩⟩ := checkLimit_eq hstep
      · exact flagHolds_of_loop rfl fun h => (by cases h)
      · exact flagHolds_of_loop rfl fun h => (by cases h)
  | insert =>
      obtain ⟨conn, -, rfl⟩ := insert_eq hstep
      exact flagHolds_of_loop rfl fun h => (by cases h)
  | leave h =>
      obtain ⟨framed, -, rfl⟩ := leave_eq hstep
      exact hflag.congr rfl rfl rfl
  | removeConnection h =>
      obtain ⟨framed, -, rfl⟩ := removeConnection_eq hstep
      exact hflag.congr rfl rfl rfl

/-- An `accept` that fails while the flag is set leaves a deaf server. -/
theorem deaf_of_accept (horder : server.InOrder) {event : ServerEvent}
    (hnot : ¬ server.FailsOnlyStopped event) (hstep : server.step event = some next) :
    Deaf next := by
  cases event with
  | accept err =>
      cases err with
      | none => exact absurd trivial hnot
      | some code =>
          have haccept : server.accept (some code) = some next := hstep
          obtain ⟨hthread, ⟨-, rfl⟩ | ⟨hnone, -⟩⟩ := accept_eq haccept
          · have hrunning : server.running = true := Bool.not_eq_false _ ▸ hnot
            rcases horder.of_joinable hthread with ⟨hcaller, -⟩ | ⟨-, hfalse⟩
            · exact ⟨hcaller, hrunning, rfl⟩
            · exact absurd hfalse hnot
          · cases hnone
  | start | stop | proceed | test | checkLimit | insert | leave | removeConnection =>
      exact absurd trivial hnot

theorem Deaf.not_flagHolds (hdeaf : Deaf server) : ¬ server.FlagHolds := by
  intro hflag
  rcases hflag hdeaf.running_eq with hspawning | ⟨loop, hloop, hgoing⟩
  · rw [hdeaf.caller_eq] at hspawning
    cases hspawning
  · rw [hdeaf.acceptThread_eq] at hloop
    cases hloop
    exact hgoing rfl

/-- Until it is stopped, a deaf server accepts no connection and cannot be started. -/
theorem Deaf.step (hdeaf : Deaf server) {event : ServerEvent} (hevent : event ≠ .stop)
    (hstep : server.step event = some next) : Deaf next ∧ next.accepted = server.accepted := by
  obtain ⟨hcaller, hrunning, hthread⟩ := hdeaf
  cases event with
  | start outcome =>
      obtain ⟨-, hnext⟩ := Option.ite_none_right_eq_some.mp hstep
      unfold start at hnext
      rw [if_pos hrunning] at hnext
      cases hnext
      exact ⟨⟨hcaller, hrunning, hthread⟩, rfl⟩
  | stop => exact absurd rfl hevent
  | proceed =>
      rw [Server.step, proceed, hcaller] at hstep
      cases hstep
  | test =>
      obtain ⟨htesting, -⟩ := test_eq hstep
      rw [hthread] at htesting
      cases htesting
  | accept err =>
      obtain ⟨haccepting, -⟩ := accept_eq hstep
      rw [hthread] at haccepting
      cases haccepting
  | checkLimit =>
      obtain ⟨conn, hchecking, -⟩ := checkLimit_eq hstep
      rw [hthread] at hchecking
      cases hchecking
  | insert =>
      obtain ⟨conn, hinserting, -⟩ := insert_eq hstep
      rw [hthread] at hinserting
      cases hinserting
  | leave h =>
      obtain ⟨framed, -, rfl⟩ := leave_eq hstep
      exact ⟨⟨hcaller, hrunning, hthread⟩, rfl⟩
  | removeConnection h =>
      obtain ⟨framed, -, rfl⟩ := removeConnection_eq hstep
      exact ⟨⟨hcaller, hrunning, hthread⟩, rfl⟩

theorem Deaf.run (hdeaf : Deaf server) {events : List ServerEvent} {last : Server}
    (hstop : .stop ∉ events) (hrun : run Server.step server events = some last) :
    Deaf last ∧ last.accepted = server.accepted := by
  have hguard : Guarded Server.step (fun _ event => event ≠ .stop) server events :=
    guarded_of_forall_mem fun event hevent h => hstop (h ▸ hevent)
  refine run_invariant_of_guarded
    (fun state : Server => Deaf state ∧ state.accepted = server.accepted) ?_ ⟨hdeaf, rfl⟩ hguard hrun
  rintro state event next ⟨hstate, haccepted⟩ hevent hstep
  obtain ⟨hnext, hsame⟩ := hstate.step hevent hstep
  exact ⟨hnext, hsame.trans haccepted⟩

/-- The flag tells the truth in every state of exactly the runs in which no
`accept` fails while the flag is set. -/
theorem flag_holds_iff (config : ServerConfig) (events : List ServerEvent) :
    Throughout step FlagHolds (init config) events ↔
      Guarded step FailsOnlyStopped (init config) events := by
  apply throughout_iff_guarded fun server => Cycled server ∧ server.FlagHolds
  · intro server hinv
    exact hinv.2
  · rintro server event next ⟨hcycled, hflag⟩ hallowed hstep
    exact ⟨hcycled.step hstep, flagHolds_step hcycled.inOrder hflag hallowed hstep⟩
  · rintro server event next ⟨hcycled, -⟩ hnot hstep
    exact (deaf_of_accept hcycled.inOrder hnot hstep).not_flagHolds
  · exact ⟨Cycled.init config, flagHolds_of_stopped rfl⟩

/-- After one `accept` that runs out of descriptors, the server reports that it
runs and accepts nothing until it is stopped. -/
theorem accepts_no_more_while_running :
    ∃ deaf, run step (init {}) [.start .listening, .proceed, .test, .accept (some (.system .EMFILE))]
        = some deaf ∧ ¬ deaf.FlagHolds ∧
      ∀ events last, .stop ∉ events → run step deaf events = some last →
        last.isRunning = true ∧ last.accepted = 0 ∧
          ∀ outcome, (last.start outcome).1 = some (.ibridger .alreadyConnected) := by
  have hdeaf : ∀ deaf, run step (init {})
      [.start .listening, .proceed, .test, .accept (some (.system .EMFILE))] = some deaf →
        Deaf deaf ∧ deaf.accepted = 0 := by
    intro deaf hrun
    cases hrun
    exact ⟨⟨rfl, rfl, rfl⟩, rfl⟩
  refine ⟨_, rfl, (hdeaf _ rfl).1.not_flagHolds, ?_⟩
  intro events last hstop hrun
  obtain ⟨hfirst, hnone⟩ := hdeaf _ rfl
  obtain ⟨hlast, haccepted⟩ := hfirst.run hstop hrun
  refine ⟨hlast.running_eq, haccepted.trans hnone, ?_⟩
  intro outcome
  unfold start
  rw [if_pos hlast.running_eq]

end Ibridger.Cpp.Server
