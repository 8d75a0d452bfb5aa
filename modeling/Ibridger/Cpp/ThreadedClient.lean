import Ibridger.Cpp.ClientThreads

/-! # The client behind its threads

Whenever the mutex is free, the threads' client is in a state that `Client` reaches,
and the callbacks that were called are those that `Client` records, with the mutex
held where it says so.
-/

namespace Ibridger.Cpp.ClientThreads

open Transition Wire

variable {format : EnvelopeFormat}


/-- Between the halves of a step that reconnects. -/
def Midway (activation : Activation) : Prop :=
  activation.point = .reconnected ∨ activation.point = .restored

theorem Midway.holds {activation : Activation} (hmidway : Midway activation) :
    activation.holds = true := by
  unfold Activation.holds
  rcases hmidway with hpoint | hpoint <;> rw [hpoint] <;> rfl

/-- The threads' client is the client, or it is behind the first half of a step. -/
inductive Represents (threads : ClientThreads) (client : Client) : Prop where
  | whole (hclient : threads.client = client)
      (hnone : ∀ t, ∀ activation ∈ threads.active t, ¬ Midway activation)
  | midway (t : Nat) (activation : Activation) {outcome : ConnectOutcome} {connected : Client}
      (hmem : activation ∈ threads.active t) (hmidway : Midway activation)
      (hconnect : client.connectLocked outcome = (none, connected))
      (hclient : threads.client = connected.reconnected activation.number)

section Update

variable {active : Nat → List Activation} {t u : Nat} {other : Activation}
  {before behind rest : List Activation}

/-- A change of the innermost activations of a thread brings no others. -/
theorem mem_of_update (hactive : active t = before ++ rest)
    (hmem : other ∈ Function.update active t (behind ++ rest) u) :
    u = t ∧ other ∈ behind ∨ other ∈ active u := by
  by_cases hu : u = t
  · subst hu
    rw [Function.update_self, List.mem_append] at hmem
    rw [hactive, List.mem_append]
    rcases hmem with hmem | hmem
    · exact .inl ⟨rfl, hmem⟩
    · exact .inr (.inr hmem)
  · rw [Function.update_of_ne hu] at hmem
    exact .inr hmem

/-- It leaves the others where they are. -/
theorem mem_update (hactive : active t = before ++ rest) (hmem : other ∈ active u) :
    other ∈ before ∨ other ∈ Function.update active t (behind ++ rest) u := by
  by_cases hu : u = t
  · subst hu
    rw [hactive, List.mem_append] at hmem
    rw [Function.update_self, List.mem_append]
    rcases hmem with hmem | hmem
    · exact .inl hmem
    · exact .inr (.inr hmem)
  · rw [Function.update_of_ne hu]
    exact .inr hmem

end Update

/-- What a step without a run of the code behind a lock does to the stacks. -/
structure Moved (threads next : ClientThreads) (t : Nat)
    (before behind rest : List Activation) : Prop where
  client_eq : next.client = threads.client
  active_eq : threads.active t = before ++ rest
  next_eq : next.active = Function.update threads.active t (behind ++ rest)

namespace Represents

variable {threads next : ClientThreads} {client : Client} {t : Nat} {activation : Activation}
  {rest before behind : List Activation}

/-- Nothing is between two halves while an activation elsewhere holds the mutex. -/
theorem client_eq (hrepresents : Represents threads client) (hexclusive : Exclusive threads)
    (hactive : threads.active t = activation :: rest) (hholds : activation.holds = true)
    (hnot : ¬ Midway activation) : threads.client = client := by
  cases hrepresents with
  | whole hclient => exact hclient
  | midway u other hmem hmidway =>
      obtain ⟨-, rfl⟩ := hexclusive.unique hactive hholds hmem hmidway.holds
      exact absurd hmidway hnot

/-- An activation that holds the mutex outside is the only one that does. -/
theorem of_holds (hexclusive : Exclusive next) (hclient : next.client = client)
    (hactive : next.active t = activation :: rest) (hholds : activation.holds = true)
    (hnot : ¬ Midway activation) : Represents next client := by
  apply Represents.whole hclient
  intro u other hother hmidway
  obtain ⟨-, rfl⟩ := hexclusive.unique hactive hholds hother hmidway.holds
  exact hnot hmidway

theorem moved (hrepresents : Represents threads client)
    (hmoved : Moved threads next t before behind rest)
    (hbefore : ∀ other ∈ before, ¬ Midway other) (hbehind : ∀ other ∈ behind, ¬ Midway other) :
    Represents next client := by
  cases hrepresents with
  | whole hsame hnone =>
      apply Represents.whole (hmoved.client_eq.trans hsame)
      intro u other hother
      rw [hmoved.next_eq] at hother
      rcases mem_of_update hmoved.active_eq hother with ⟨-, hmem⟩ | hmem
      · exact hbehind other hmem
      · exact hnone u other hmem
  | midway u other hmem hmidway hconnect hsame =>
      rcases @mem_update _ _ _ _ _ behind _ hmoved.active_eq hmem with hmem | hmem
      · exact absurd hmidway (hbefore other hmem)
      · exact .midway u other (hmoved.next_eq ▸ hmem) hmidway hconnect (hmoved.client_eq.trans hsame)

/-- The end of `on_reconnect`. -/
theorem called (hrepresents : Represents threads client) (hexclusive : Exclusive threads)
    (hactive : threads.active t = activation :: rest)
    (hpoint : activation.point = .reconnected) :
    Represents (threads.setActive t ({ activation with point := .restored } :: rest)) client := by
  have hmidway : Midway activation := .inl hpoint
  cases hrepresents with
  | whole hsame hnone =>
      exact absurd hmidway (hnone t activation (by rw [hactive]; exact List.mem_cons_self))
  | midway u other hmem hother hconnect hsame =>
      obtain ⟨rfl, rfl⟩ := hexclusive.unique hactive hmidway.holds hmem hother.holds
      have hmem' : { other with point := .restored } ∈
          Function.update threads.active u ({ other with point := .restored } :: rest) u := by
        rw [Function.update_self]
        exact List.mem_cons_self
      exact .midway u _ hmem' (.inr rfl) hconnect hsame

theorem ran (hrepresents : Represents threads client) (hexclusive : Exclusive threads)
    {outcome : ConnectOutcome} {traffic : Traffic} {after : Client} {point : Point}
    (hactive : threads.active t = activation :: rest)
    (hran : Ran format activation threads.client outcome traffic after point)
    (hbehind : Exclusive next) (hclient : next.client = after)
    (hnext : next.active t = { activation with point := point } :: rest) :
    ∃ coarse, (coarse = client ∨ ∃ event, client.step format event = some coarse) ∧
      Represents next coarse := by
  cases hran with
  | stepped event hpoint hstep hcallbacks =>
      have hheld : activation.holds = true ∧ ¬ Midway activation := by
        unfold Activation.holds Midway
        rcases hpoint with hpoint | hpoint <;> rw [hpoint] <;> simp [Point.holds]
      rw [hrepresents.client_eq hexclusive hactive hheld.1 hheld.2] at hstep
      exact ⟨after, .inr ⟨event, hstep⟩,
        of_holds hbehind hclient hnext rfl (by simp [Midway])⟩
  | asked hpoint hnotice =>
      have hheld : activation.holds = true ∧ ¬ Midway activation := by
        unfold Activation.holds Midway
        rw [hpoint]
        simp [Point.holds]
      have hsame := hrepresents.client_eq hexclusive hactive hheld.1 hheld.2
      exact ⟨client, .inl rfl,
        of_holds hbehind (hclient.trans hsame) hnext rfl (by simp [Midway])⟩
  | @reconnected service method payload attempt delay resend connected hpoint hcall hphase
      hconnect =>
      have hheld : activation.holds = true ∧ ¬ Midway activation := by
        unfold Activation.holds Midway
        rw [hpoint]
        simp [Point.holds]
      rw [hrepresents.client_eq hexclusive hactive hheld.1 hheld.2] at hconnect
      have hmem : { activation with
          point :=
            if connected.config.reconnect.any ReconnectConfig.onReconnect then .reconnected
            else .restored } ∈ next.active t := by
        rw [hnext]
        exact List.mem_cons_self
      refine ⟨client, .inl rfl, .midway t _ hmem ?_ hconnect hclient⟩
      unfold Midway
      dsimp only
      split
      · exact .inl rfl
      · exact .inr rfl
  | @proceeded attempt delay resend after hpoint hphase hproceed hcallbacks =>
      have hmidway : Midway activation := .inr hpoint
      cases hrepresents with
      | whole _ hnone =>
          exact absurd hmidway (hnone t activation (by rw [hactive]; exact List.mem_cons_self))
      | @midway u other reached connected hmem hother hconnect hsame =>
          obtain ⟨rfl, rfl⟩ := hexclusive.unique hactive hmidway.holds hmem hother.holds
          refine ⟨after, .inr ⟨.wake other.number reached traffic, ?_⟩,
            of_holds hbehind hclient hnext rfl (by simp [Midway])⟩
          rw [hsame] at hphase hproceed
          have hcalls : (connected.reconnected other.number).calls = client.calls := by
            have hkept := Client.connectLocked_calls client reached
            rw [hconnect] at hkept
            rw [← hkept]
            unfold Client.reconnected
            split <;> rfl
          rw [hcalls] at hphase
          dsimp only [Client.step]
          rw [hphase]
          dsimp only
          rw [Client.wake_eq_proceed hconnect]
          exact hproceed

theorem step (hrepresents : Represents threads client) (hexclusive : Exclusive threads)
    {event : LockEvent} (hstep : threads.step format event = some next) :
    ∃ coarse, (coarse = client ∨ ∃ event, client.step format event = some coarse) ∧
      Represents next coarse := by
  have hbehind := hexclusive.step hstep
  cases step_moves hstep with
  | began t function huser =>
      refine ⟨client, .inl rfl, @moved _ _ _ t (threads.active t) []
        [⟨threads.begun, function, .entering⟩] hrepresents ⟨rfl, rfl, rfl⟩ (by simp) ?_⟩
      simp [Midway]
  | @locked t activation rest point hactive howner hpoint =>
      have hkept : ¬ Midway activation ∧ ¬ Midway { activation with point := point } := by
        unfold Midway
        cases hstands : activation.point <;> rw [hstands] at hpoint <;> cases hpoint <;> simp
      exact ⟨client, .inl rfl, @moved _ _ _ t rest [activation]
        [{ activation with point := point }] hrepresents ⟨rfl, hactive, rfl⟩
        (by simpa using hkept.1) (by simpa using hkept.2)⟩
  | @ran t outcome traffic activation rest after point hactive hbody =>
      exact hrepresents.ran hexclusive hactive (body_ran hbody) hbehind (ran_client ..)
        (by rw [ran_active, Function.update_self])
  | @released t activation rest hactive hpoint =>
      obtain ⟨hclient, -, ⟨left, hleft, hnext⟩, -⟩ := release_released threads t activation rest
      have hnot : ¬ Midway activation := by simp [Midway, hpoint]
      cases hleft with
      | returned =>
          have hmoved : Moved threads _ t [activation] [] rest := ⟨hclient, hactive, hnext⟩
          exact ⟨client, .inl rfl, hrepresents.moved hmoved (by simpa using hnot) (by simp)⟩
      | @waits point hwaits =>
          have hmoved : Moved threads _ t [activation] [{ activation with point := point }] rest :=
            ⟨hclient, hactive, hnext⟩
          refine ⟨client, .inl rfl, hrepresents.moved hmoved (by simpa using hnot) ?_⟩
          rcases hwaits with rfl | rfl <;> simp [Midway]
  | @resumed t activation rest point hactive hpoint =>
      have hmoved : Moved threads (threads.setActive t ({ activation with point := point } :: rest))
        t [activation] [{ activation with point := point }] rest := ⟨rfl, hactive, rfl⟩
      refine ⟨client, .inl rfl, ?_⟩
      by_cases hcalled : activation.point = .reconnected
      · rw [hcalled] at hpoint
        cases hpoint
        exact hrepresents.called hexclusive hactive hcalled
      · have hkept : ¬ Midway activation ∧ ¬ Midway { activation with point := point } := by
          unfold Midway
          cases hstands : activation.point <;> rw [hstands] at hpoint hcalled <;>
            cases hpoint <;> simp at hcalled ⊢
        exact hrepresents.moved hmoved (by simpa using hkept.1) (by simpa using hkept.2)

end Represents

/-! ## The callbacks -/

/-- The client has recorded the callbacks that were called, and the one that is called
behind the next unlock. -/
structure Recorded (threads : ClientThreads) : Prop where
  quiet : (∀ t, ∀ activation ∈ threads.active t, activation.point ≠ .leaving) →
    threads.client.callbacks = threads.invoked
  leaving : ∀ t, ∀ activation ∈ threads.active t, activation.point = .leaving →
    threads.client.callbacks = threads.invoked ++ notice activation threads.client

namespace Recorded

variable {threads next : ClientThreads} {t : Nat} {activation : Activation}
  {rest before behind : List Activation}

theorem moved (hrecorded : Recorded threads) (hmoved : Moved threads next t before behind rest)
    (hinvoked : next.invoked = threads.invoked)
    (hbefore : ∀ other ∈ before, other.point ≠ .leaving)
    (hbehind : ∀ other ∈ behind, other.point ≠ .leaving) : Recorded next := by
  have hsame : next.client = threads.client := hmoved.client_eq
  constructor
  · intro hnone
    rw [hsame, hinvoked]
    apply hrecorded.quiet
    intro u other hmem hpoint
    rcases @mem_update _ _ _ _ _ behind _ hmoved.active_eq hmem with hmem | hmem
    · exact hbefore other hmem hpoint
    · exact hnone u other (hmoved.next_eq ▸ hmem) hpoint
  · intro u other hmem hpoint
    rw [hsame, hinvoked]
    rw [hmoved.next_eq] at hmem
    rcases mem_of_update hmoved.active_eq hmem with ⟨-, hmem⟩ | hmem
    · exact absurd hpoint (hbehind other hmem)
    · exact hrecorded.leaving u other hmem hpoint

/-- While an activation runs, all is recorded. -/
theorem of_holds (hrecorded : Recorded threads) (hexclusive : Exclusive threads)
    (hactive : threads.active t = activation :: rest) (hholds : activation.holds = true)
    (hpoint : activation.point ≠ .leaving) : threads.client.callbacks = threads.invoked := by
  apply hrecorded.quiet
  intro u other hmem hother
  obtain ⟨-, rfl⟩ := hexclusive.unique hactive hholds hmem (by simp [Activation.holds, hother,
    Point.holds])
  exact hpoint hother

/-- Behind code that ends at an unlock. -/
theorem of_leaving (hexclusive : Exclusive threads) (hactive : threads.active t = activation :: rest)
    (hpoint : activation.point = .leaving)
    (hcallbacks : threads.client.callbacks = threads.invoked ++ notice activation threads.client) :
    Recorded threads := by
  have hmem : activation ∈ threads.active t := by
    rw [hactive]
    exact List.mem_cons_self
  have hholds : activation.holds = true := by simp [Activation.holds, hpoint, Point.holds]
  constructor
  · intro hnone
    exact absurd hpoint (hnone t activation hmem)
  · intro u other hother hleaving
    obtain ⟨-, rfl⟩ := hexclusive.unique hactive hholds hother
      (by simp [Activation.holds, hleaving, Point.holds])
    exact hcallbacks

/-- Behind code that does not. -/
theorem of_midway (hexclusive : Exclusive threads) (hactive : threads.active t = activation :: rest)
    (hmidway : Midway activation) (hcallbacks : threads.client.callbacks = threads.invoked) :
    Recorded threads := by
  constructor
  · intro _
    exact hcallbacks
  · intro u other hother hleaving
    obtain ⟨-, rfl⟩ := hexclusive.unique hactive hmidway.holds hother
      (by simp [Activation.holds, hleaving, Point.holds])
    rcases hmidway with hpoint | hpoint <;> rw [hpoint] at hleaving <;> cases hleaving

theorem ran (hrecorded : Recorded threads) (hexclusive : Exclusive threads)
    {outcome : ConnectOutcome} {traffic : Traffic} {after : Client} {point : Point}
    (hactive : threads.active t = activation :: rest)
    (hran : Ran format activation threads.client outcome traffic after point)
    (hheld : activation.holds = true)
    (hbehind : Exclusive (threads.ran t activation rest after point)) :
    Recorded (threads.ran t activation rest after point) := by
  have hnext : (threads.ran t activation rest after point).active t =
      { activation with point := point } :: rest := by
    rw [ran_active, Function.update_self]
  have hsame : activation.point ≠ .leaving → threads.client.callbacks = threads.invoked :=
    hrecorded.of_holds hexclusive hactive hheld
  cases hran with
  | stepped event hpoint hstep hcallbacks =>
      apply of_leaving hbehind hnext rfl
      have hnot : activation.point ≠ .leaving := by rcases hpoint with h | h <;> simp [h]
      rw [hsame hnot] at hcallbacks
      exact hcallbacks
  | asked hpoint hnotice =>
      apply of_leaving hbehind hnext rfl
      change threads.client.callbacks = threads.invoked ++ notice activation threads.client
      rw [hnotice, List.append_nil]
      exact hsame (by simp [hpoint])
  | @reconnected service method payload attempt delay resend connected hpoint hcall hphase
      hconnect =>
      have hkept := Client.connectLocked_callbacks threads.client outcome
      rw [hconnect, hsame (by simp [hpoint])] at hkept
      obtain ⟨howner, -⟩ := hexclusive.of_holds hactive hheld
      by_cases hset : connected.config.reconnect.any ReconnectConfig.onReconnect = true
      · rw [if_pos hset] at hnext hbehind ⊢
        apply of_midway hbehind hnext (.inl rfl)
        rw [Client.reconnected, if_pos hset]
        -- the thread owns the mutex while it calls `on_reconnect`
        change connected.callbacks ++ _ =
          threads.invoked ++ [⟨_, _, decide (threads.owner = some t)⟩]
        rw [hkept, howner, decide_eq_true rfl]
      · rw [if_neg hset] at hnext hbehind ⊢
        apply of_midway hbehind hnext (.inr rfl)
        rw [Client.reconnected, if_neg hset]
        exact hkept
  | proceeded hpoint hphase hproceed hcallbacks =>
      apply of_leaving hbehind hnext rfl
      rw [hsame (by simp [hpoint])] at hcallbacks
      exact hcallbacks

theorem released (hrecorded : Recorded threads)
    (hactive : threads.active t = activation :: rest) (hpoint : activation.point = .leaving)
    (hbehind : Exclusive (threads.release t activation rest)) :
    Recorded (threads.release t activation rest) := by
  obtain ⟨hclient, howner, -, hinvoked⟩ := release_released threads t activation rest
  have hmem : activation ∈ threads.active t := by
    rw [hactive]
    exact List.mem_cons_self
  have hnotice := hrecorded.leaving t activation hmem hpoint
  constructor
  · intro _
    rw [hclient, hinvoked, hnotice]
  · intro u other hother hleaving
    have hfree := hbehind.of_free howner hother
    rw [Activation.holds, hleaving] at hfree
    cases hfree

theorem step (hrecorded : Recorded threads) (hexclusive : Exclusive threads)
    {event : LockEvent} (hstep : threads.step format event = some next) : Recorded next := by
  have hbehind := hexclusive.step hstep
  cases step_moves hstep with
  | began t function huser =>
      exact @moved _ _ t (threads.active t) [] [⟨threads.begun, function, .entering⟩] hrecorded
        ⟨rfl, rfl, rfl⟩ rfl (by simp) (by simp)
  | @locked t activation rest point hactive howner hpoint =>
      have hkept : activation.point ≠ .leaving ∧ point ≠ .leaving := by
        cases hstands : activation.point <;> rw [hstands] at hpoint <;> cases hpoint <;> simp
      exact @moved _ _ t rest [activation] [{ activation with point := point }] hrecorded
        ⟨rfl, hactive, rfl⟩ rfl (by simpa using hkept.1) (by simpa using hkept.2)
  | ran hactive hbody =>
      exact hrecorded.ran hexclusive hactive (body_ran hbody) (body_holds hbody).1 hbehind
  | released hactive hpoint => exact hrecorded.released hactive hpoint hbehind
  | @resumed t activation rest point hactive hpoint =>
      have hkept : activation.point ≠ .leaving ∧ point ≠ .leaving := by
        cases hstands : activation.point <;> rw [hstands] at hpoint <;> cases hpoint <;> simp
      exact @moved _ _ t rest [activation] [{ activation with point := point }] hrecorded
        ⟨rfl, hactive, rfl⟩ rfl (by simpa using hkept.1) (by simpa using hkept.2)

end Recorded

/-- What holds of all the threads of a run. -/
structure Refines (format : EnvelopeFormat) (config : ClientConfig) (threads : ClientThreads) :
    Prop where
  exclusive : Exclusive threads
  represents : ∃ client, Reachable (Client.step format) (.init config) client ∧
    Represents threads client
  recorded : Recorded threads

theorem Refines.step {config : ClientConfig} {threads next : ClientThreads} {event : LockEvent}
    (hrefines : Refines format config threads) (hstep : threads.step format event = some next) :
    Refines format config next := by
  obtain ⟨hexclusive, ⟨client, hreach, hrepresents⟩, hrecorded⟩ := hrefines
  refine ⟨hexclusive.step hstep, ?_, hrecorded.step hexclusive hstep⟩
  obtain ⟨behind, hbehind, hnext⟩ := hrepresents.step hexclusive hstep
  rcases hbehind with rfl | ⟨coarse, hcoarse⟩
  · exact ⟨_, hreach, hnext⟩
  · exact ⟨behind, hreach.tail hcoarse, hnext⟩

theorem init_refines (config : ClientConfig) : Refines format config (init config) where
  exclusive := init_exclusive config
  represents := ⟨_, .refl _, .whole rfl (by simp [init])⟩
  recorded := ⟨fun _ => rfl, by simp [init]⟩

/-- Whenever the mutex is free, the threads' client is one that the client reaches, and
the callbacks were called as the client records them. -/
theorem run_refines {config : ClientConfig} {threads : ClientThreads}
    (hreach : Reachable (step format) (init config) threads) (howner : threads.owner = none) :
    Reachable (Client.step format) (.init config) threads.client ∧
      threads.invoked = threads.client.callbacks := by
  obtain ⟨hexclusive, ⟨client, hclient, hrepresents⟩, hrecorded⟩ :=
    hreach.invariant (Refines format config) (fun _ _ _ hrefines hstep => hrefines.step hstep)
      (init_refines config)
  constructor
  · cases hrepresents with
    | whole hsame => exact hsame ▸ hclient
    | midway u other hmem hmidway =>
        have hfree := hexclusive.of_free howner hmem
        rw [hmidway.holds] at hfree
        cases hfree
  · symm
    apply hrecorded.quiet
    intro u other hmem hleaving
    have hfree := hexclusive.of_free howner hmem
    rw [Activation.holds, hleaving] at hfree
    cases hfree

end Ibridger.Cpp.ClientThreads
