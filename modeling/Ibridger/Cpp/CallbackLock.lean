import Ibridger.Cpp.ThreadedClient

/-! # Callbacks and the mutex of the C++ client

`handle_disconnect` gives the mutex up around `on_disconnect`, so that the callback may
use the client. `attempt_reconnect` calls `on_reconnect` with the mutex held: a callback
that uses the client waits for its own thread.
-/

namespace Ibridger.Cpp.ClientThreads

open Transition Wire

/-- A thread waits for the mutex that it holds. -/
def SelfLocked (threads : ClientThreads) (t : Nat) : Prop :=
  threads.owner = some t ∧
    ∃ activation rest, threads.active t = activation :: rest ∧ activation.point.lock.isSome

/-- No callback was called with the mutex held, and no thread waits for itself. -/
structure Harmless (threads : ClientThreads) : Prop where
  unheld : ∀ callback ∈ threads.invoked, callback.lockHeld = false
  not_selfLocked : ∀ t, ¬ threads.SelfLocked t

/-- A call of a client with an `on_reconnect` is about to restore the connection. -/
def Reconnects (threads : ClientThreads) (event : LockEvent) : Prop :=
  ∃ t traffic activation rest service method payload attempt delay resend,
    event = .run t .connected traffic ∧ threads.active t = activation :: rest ∧
      activation.function = .call service method payload ∧ activation.point = .relocked ∧
      (threads.client.calls activation.number).phase = .sleeping attempt delay resend ∧
      threads.client.codec = none ∧
      threads.client.config.reconnect.any ReconnectConfig.onReconnect

variable {format : EnvelopeFormat}

/-! ## A thread that waits for itself -/

theorem lock_isSome {point : Point} (hlock : point.lock.isSome) :
    point = .entering ∨ point = .relocking := by
  cases point <;> simp [Point.lock] at hlock ⊢

/-- Nobody can help a thread that waits for itself. -/
theorem SelfLocked.step {threads next : ClientThreads} {t : Nat} (hself : threads.SelfLocked t)
    (hexclusive : Exclusive threads) {event : LockEvent}
    (hstep : threads.step format event = some next) : next.SelfLocked t := by
  obtain ⟨howner, waiting, below, hwaiting, hlock⟩ := hself
  have hpoints := lock_isSome hlock
  have hidle : waiting.holds = false := by
    unfold Activation.holds
    rcases hpoints with hpoint | hpoint <;> rw [hpoint] <;> rfl
  -- whoever runs or unlocks holds the mutex, and so is the thread that waits
  have hnobody : ∀ {u activation rest}, threads.active u = activation :: rest →
      activation.holds = true → False := by
    intro u activation rest hactive hholds
    obtain ⟨hu, -⟩ := hexclusive.of_holds hactive hholds
    cases howner.symm.trans hu
    rw [hwaiting] at hactive
    cases hactive
    rw [hidle] at hholds
    cases hholds
  have hother : ∀ {u stack}, u ≠ t →
      Function.update threads.active u stack t = waiting :: below := by
    intro u stack hu
    rw [Function.update_of_ne (Ne.symm hu), hwaiting]
  cases step_moves hstep with
  | began u function huser =>
      by_cases hu : u = t
      · subst hu
        rw [inUserCode, hwaiting] at huser
        rcases hpoints with hpoint | hpoint <;> simp [hpoint] at huser
      · exact ⟨howner, waiting, below, hother hu, hlock⟩
  | locked _ hfree _ =>
      rw [howner] at hfree
      cases hfree
  | ran hactive hbody => exact (hnobody hactive (body_holds hbody).1).elim
  | released hactive hpoint =>
      exact (hnobody hactive (by simp [Activation.holds, hpoint, Point.holds])).elim
  | @resumed u activation rest point hactive hpoint =>
      by_cases hu : u = t
      · subst hu
        rw [hwaiting] at hactive
        cases hactive
        rcases hpoints with hstands | hstands <;> rw [hstands] at hpoint <;> cases hpoint
      · exact ⟨howner, waiting, below, hother hu, hlock⟩

/-- A thread that waits for itself does so forever. -/
theorem SelfLocked.forever {config : ClientConfig} {threads last : ClientThreads} {t : Nat}
    (hself : threads.SelfLocked t)
    (hreach : Reachable (ClientThreads.step format) (init config) threads)
    {events : List LockEvent} (hrun : run (ClientThreads.step format) threads events = some last) :
    last.SelfLocked t := by
  have hlast := run_invariant
    (fun threads => Exclusive threads ∧ threads.SelfLocked t)
    (fun _ _ _ hinv hstep => ⟨hinv.1.step hstep, hinv.2.step hinv.1 hstep⟩)
    ⟨run_exclusive hreach, hself⟩ hrun
  exact hlast.2

/-! ## Without reconnecting -/

/-- A thread in which no callback runs under the mutex. -/
def Calm (stack : List Activation) : Prop :=
  (∀ activation ∈ stack, activation.point ≠ .reconnected) ∧
    ∀ activation ∈ stack.tail, activation.point = .notifying

theorem Calm.replace {activation : Activation} {rest : List Activation} {point : Point}
    (hcalm : Calm (activation :: rest)) (hpoint : point ≠ .reconnected) :
    Calm ({ activation with point := point } :: rest) := by
  constructor
  · intro other hother
    rcases List.mem_cons.mp hother with rfl | hmem
    · exact hpoint
    · exact hcalm.1 other (List.mem_cons_of_mem _ hmem)
  · exact hcalm.2

theorem Calm.pop {activation : Activation} {rest : List Activation}
    (hcalm : Calm (activation :: rest)) : Calm rest := by
  constructor
  · intro other hother
    exact hcalm.1 other (List.mem_cons_of_mem _ hother)
  · intro other hother
    exact hcalm.2 other (List.mem_of_mem_tail hother)

/-- What holds while no call of a client with an `on_reconnect` reconnects. -/
structure Peaceful (threads : ClientThreads) : Prop where
  exclusive : Exclusive threads
  unheld : ∀ callback ∈ threads.invoked, callback.lockHeld = false
  calm : ∀ t, Calm (threads.active t)

theorem calm_update {threads : ClientThreads} (hcalm : ∀ t, Calm (threads.active t)) {t : Nat}
    {stack : List Activation} (hstack : Calm stack) (u : Nat) :
    Calm (Function.update threads.active t stack u) := by
  by_cases hu : u = t
  · subst hu
    rwa [Function.update_self]
  · rw [Function.update_of_ne hu]
    exact hcalm u

theorem Peaceful.harmless {threads : ClientThreads} (hpeaceful : Peaceful threads) :
    Harmless threads := by
  refine ⟨hpeaceful.unheld, ?_⟩
  rintro t ⟨howner, waiting, below, hwaiting, hlock⟩
  have hcount := hpeaceful.exclusive t
  rw [hwaiting, if_pos howner] at hcount
  obtain ⟨other, hmem, hholds⟩ := List.countP_pos_iff.mp (by omega :
    0 < (waiting :: below).countP Activation.holds)
  unfold Activation.holds at hholds
  rcases List.mem_cons.mp hmem with rfl | hbelow
  · rcases lock_isSome hlock with hpoint | hpoint <;> rw [hpoint] at hholds <;> cases hholds
  · have hnotifying := (hpeaceful.calm t).2 other (by rwa [hwaiting])
    rw [hnotifying] at hholds
    cases hholds

/-- `on_disconnect` is called behind the unlock. -/
theorem notice_unheld {activation : Activation} {client : Client} {callback : Callback}
    (hmem : callback ∈ notice activation client) : callback.lockHeld = false := by
  unfold notice Client.disconnectNotice at hmem
  split at hmem
  · split at hmem
    · split at hmem
      · rw [List.mem_singleton.mp hmem]
      · cases hmem
    · cases hmem
  · cases hmem

theorem connectLocked_connected {client connected : Client} {outcome : ConnectOutcome}
    (hconnect : client.connectLocked outcome = (none, connected)) :
    outcome = .connected ∧ client.codec = none ∧ connected.config = client.config := by
  unfold Client.connectLocked at hconnect
  split at hconnect
  · cases hconnect
  next hcodec =>
    split at hconnect <;> cases hconnect
    exact ⟨rfl, by simpa using hcodec, rfl⟩

theorem reconnects_of_body {threads : ClientThreads} {t : Nat} {outcome : ConnectOutcome}
    {traffic : Traffic} {activation : Activation} {rest : List Activation} {client : Client}
    (hactive : threads.active t = activation :: rest)
    (hbody : activation.body format threads.client outcome traffic = some (client, .reconnected)) :
    Reconnects threads (.run t outcome traffic) := by
  generalize hbehind : Point.reconnected = point at hbody
  cases body_ran hbody with
  | stepped => cases hbehind
  | asked => cases hbehind
  | @reconnected service method payload attempt delay resend connected hpoint hcall hphase
      hconnect =>
      split at hbehind
      next hset =>
        obtain ⟨rfl, hcodec, hconfig⟩ := connectLocked_connected hconnect
        rw [hconfig] at hset
        exact ⟨t, traffic, activation, rest, service, method, payload, attempt, delay, resend, rfl,
          hactive, hcall, hpoint, hphase, hcodec, hset⟩
      next => cases hbehind
  | proceeded => cases hbehind

theorem Peaceful.step {threads next : ClientThreads} {event : LockEvent}
    (hpeaceful : Peaceful threads) (hallowed : ¬ Reconnects threads event)
    (hstep : threads.step format event = some next) : Peaceful next := by
  obtain ⟨hexclusive, hunheld, hcalm⟩ := hpeaceful
  have hbehind := hexclusive.step hstep
  cases step_moves hstep with
  | began t function huser =>
      refine ⟨hbehind, hunheld, calm_update hcalm ?_⟩
      have hstack := hcalm t
      unfold inUserCode at huser
      constructor
      · intro other hother
        rcases List.mem_cons.mp hother with rfl | hmem
        · simp
        · exact hstack.1 other hmem
      · intro other hother
        rw [List.tail_cons] at hother
        split at huser
        next hactive =>
          rw [hactive] at hother
          cases hother
        next caller below hactive =>
          -- the user's code that calls is in `on_disconnect`
          rw [hactive] at hstack hother
          have hnot := hstack.1 caller List.mem_cons_self
          rcases List.mem_cons.mp hother with rfl | hmem
          · simpa [hnot] using And.left (by simpa [hnot] using huser)
          · exact hstack.2 other hmem
  | @locked t activation rest point hactive howner hpoint =>
      refine ⟨hbehind, hunheld, calm_update hcalm (Calm.replace (hactive ▸ hcalm t) ?_)⟩
      cases hstands : activation.point <;> rw [hstands] at hpoint <;> cases hpoint <;> simp
  | @ran t outcome traffic activation rest client point hactive hbody =>
      have hpoint : point ≠ .reconnected := fun h => hallowed (by subst h; exact reconnects_of_body hactive hbody)
      refine ⟨hbehind, ?_, ?_⟩
      · rw [ran, if_neg hpoint]
        exact hunheld
      · rw [ran_active]
        exact calm_update hcalm (Calm.replace (hactive ▸ hcalm t) hpoint)
  | @released t activation rest hactive hpoint =>
      obtain ⟨-, -, ⟨left, hleft, hnext⟩, hinvoked⟩ := release_released threads t activation rest
      refine ⟨hbehind, ?_, ?_⟩
      · rw [hinvoked]
        intro callback hmem
        rcases List.mem_append.mp hmem with hmem | hmem
        · exact hunheld callback hmem
        · exact notice_unheld hmem
      · rw [hnext]
        apply calm_update hcalm
        have hstack : Calm (activation :: rest) := hactive ▸ hcalm t
        cases hleft with
        | returned => exact hstack.pop
        | waits hwaits => exact hstack.replace (by rcases hwaits with rfl | rfl <;> simp)
  | @resumed u activation rest point hactive hpoint =>
      refine ⟨hbehind, hunheld, calm_update hcalm (Calm.replace (hactive ▸ hcalm u) ?_)⟩
      cases hstands : activation.point <;> rw [hstands] at hpoint <;> cases hpoint <;> simp

/-- The callback of a call that reconnects is called with the mutex held. -/
theorem Reconnects.not_harmless {threads next : ClientThreads} {event : LockEvent}
    (hreconnects : Reconnects threads event) (hexclusive : Exclusive threads)
    (hstep : threads.step format event = some next) : ¬ Harmless next := by
  obtain ⟨t, traffic, activation, rest, service, method, payload, attempt, delay, resend, rfl,
    hactive, hcall, hpoint, hphase, hcodec, hset⟩ := hreconnects
  intro hharmless
  obtain ⟨howner, -⟩ := hexclusive.of_holds hactive
    (by simp [Activation.holds, hpoint, Point.holds])
  have hbody : ∃ client,
      activation.body format threads.client .connected traffic = some (client, .reconnected) := by
    unfold Activation.body Client.connectLocked
    rw [hpoint, hcall]
    dsimp only
    rw [hphase, hcodec]
    dsimp only [Option.isSome_none]
    rw [if_neg Bool.false_ne_true]
    dsimp only
    rw [if_pos hset]
    exact ⟨_, rfl⟩
  obtain ⟨client, hbody⟩ := hbody
  simp only [step, hactive, hbody, Option.map_some, Option.some.injEq] at hstep
  subst hstep
  have hunheld := hharmless.unheld ⟨.onReconnect, activation.number, threads.owner = some t⟩
    (List.mem_append_right _ List.mem_cons_self)
  simp [howner] at hunheld

/-- Throughout a run no callback is called with the mutex held, and no thread waits for
itself, exactly when no call of a client with an `on_reconnect` restores the connection. -/
theorem run_harmless_iff (config : ClientConfig) (format : EnvelopeFormat)
    (events : List LockEvent) :
    Throughout (step format) Harmless (init config) events ↔
      Guarded (step format) (fun threads event => ¬ Reconnects threads event) (init config)
        events := by
  apply throughout_iff_guarded Peaceful
  · intro threads hpeaceful
    exact hpeaceful.harmless
  · intro threads event next hpeaceful hallowed hstep
    exact hpeaceful.step hallowed hstep
  · intro threads event next hpeaceful hnot hstep
    exact (not_not.mp hnot).not_harmless hpeaceful.exclusive hstep
  · exact ⟨init_exclusive config, by simp [init], fun _ => ⟨by simp [init], by simp [init]⟩⟩

/-- A callback that asks `is_connected` while the client reconnects hangs its thread:
in every run from there on it waits for the mutex that it holds. -/
theorem on_reconnect_hangs :
    ∃ threads, run (step (.knowing []))
        (init { reconnect := some { onReconnect := true } })
        [.begin 0 (.call "Echo" "Echo" []), .lock 0, .run 0 .connected {}, .unlock 0, .resume 0,
          .lock 0, .run 0 .connected {}, .begin 0 .isConnected] = some threads ∧
      threads.invoked = [⟨.onReconnect, 0, true⟩] ∧
      ∀ events last, run (step (.knowing [])) threads events = some last → last.SelfLocked 0 := by
  have hwaits : ∃ threads, run (step (.knowing []))
      (init { reconnect := some { onReconnect := true } })
      [.begin 0 (.call "Echo" "Echo" []), .lock 0, .run 0 .connected {}, .unlock 0, .resume 0,
        .lock 0, .run 0 .connected {}, .begin 0 .isConnected] = some threads ∧
      threads.invoked = [⟨.onReconnect, 0, true⟩] ∧ threads.SelfLocked 0 :=
    ⟨_, rfl, rfl, rfl, _, _, rfl, rfl⟩
  obtain ⟨threads, hrun, hinvoked, hself⟩ := hwaits
  refine ⟨threads, hrun, hinvoked, ?_⟩
  intro events last hlast
  exact hself.forever ⟨_, hrun⟩ hlast

end Ibridger.Cpp.ClientThreads
