import Ibridger.Foundation.Runs
import Mathlib.Logic.Function.Basic

/-! # The logger

`Logger` of `logger.cpp`, called by any number of threads. `log` reads the level without
the mutex, and calls the callback with the mutex held, so a callback that calls the logger
itself waits for its own thread.
-/

namespace Ibridger.Cpp

open Transition

inductive LogLevel where
  | debug
  | info
  | warn
  | error
deriving DecidableEq

/-- The value of the enumerator. -/
def LogLevel.value : LogLevel → Nat
  | debug => 0
  | info => 1
  | warn => 2
  | error => 3

/-- A call that takes the mutex. A null function is `none`. -/
inductive LoggerCall (Callback : Type) where
  | log (level : LogLevel) (msg : String)
  | setCallback (callback : Option Callback)
deriving DecidableEq

/-- Where a thread is. -/
inductive LoggerPhase (Callback : Type) where
  | outside
  /-- Before the mutex, and behind the test of the level. -/
  | waiting (call : LoggerCall Callback)
  | calling (callback : Callback)
  /-- Before the mutex, in a callback that is called with the mutex held. -/
  | reentering (callback : Callback) (call : LoggerCall Callback)
deriving DecidableEq

/-- A message of a thread. -/
structure LogMessage where
  thread : Nat
  level : LogLevel
  msg : String
deriving DecidableEq

structure Logger (Callback : Type) where
  minLevel : LogLevel
  callback : Option Callback
  /-- The thread that holds `g_mutex`. -/
  owner : Option Nat
  threads : Nat → LoggerPhase Callback
  /-- The messages that have passed the test of the level. -/
  passed : List LogMessage
  /-- The messages whose turn has come, with the callback that was called for it, if any. -/
  handled : List (LogMessage × Option Callback)

inductive LoggerEvent (Callback : Type) where
  /-- A thread, in a callback or not, calls `log`. -/
  | log (t : Nat) (level : LogLevel) (msg : String)
  | setCallback (t : Nat) (callback : Option Callback)
  | setLevel (level : LogLevel)
  | lock (t : Nat)
  /-- The callback returns, or it throws. -/
  | finish (t : Nat)

namespace LoggerPhase

variable {Callback : Type}

/-- The callback that a thread runs. -/
def running : LoggerPhase Callback → Option Callback
  | calling callback | reentering callback _ => some callback
  | outside | waiting _ => none

/-- The call that waits for the mutex. -/
def pending : LoggerPhase Callback → Option (LoggerCall Callback)
  | waiting call | reentering _ call => some call
  | outside | calling _ => none

/-- The thread calls the logger, where it is not in the middle of another call. -/
def enter (call : LoggerCall Callback) : LoggerPhase Callback → Option (LoggerPhase Callback)
  | outside => some (waiting call)
  | calling callback => some (reentering callback call)
  | waiting _ | reentering _ _ => none

end LoggerPhase

/-- The message that a call of a thread logs. -/
def LoggerCall.message {Callback : Type} (t : Nat) : LoggerCall Callback → List LogMessage
  | log level msg => [⟨t, level, msg⟩]
  | setCallback _ => []

namespace Logger

variable {Callback : Type}

/-- `standard` is the callback that writes to the standard output. -/
def init (standard : Callback) : Logger Callback where
  minLevel := .debug
  callback := some standard
  owner := none
  threads := fun _ => .outside
  passed := []
  handled := []

def setThread (logger : Logger Callback) (t : Nat) (phase : LoggerPhase Callback) :
    Logger Callback :=
  { logger with threads := Function.update logger.threads t phase }

/-- The critical section of a call of thread `t`, up to the callback. -/
def enterSection (logger : Logger Callback) (t : Nat) : LoggerCall Callback → Logger Callback
  | .setCallback callback => { logger.setThread t .outside with callback := callback }
  | .log level msg =>
      let handled := logger.handled ++ [(⟨t, level, msg⟩, logger.callback)]
      match logger.callback with
      | none => { logger.setThread t .outside with handled := handled }
      | some callback =>
          { logger.setThread t (.calling callback) with owner := some t, handled := handled }

def step (logger : Logger Callback) : LoggerEvent Callback → Option (Logger Callback)
  | .log t level msg =>
      ((logger.threads t).enter (.log level msg)).map fun phase =>
        if level.value < logger.minLevel.value then logger
        else { logger.setThread t phase with passed := logger.passed ++ [⟨t, level, msg⟩] }
  | .setCallback t callback =>
      ((logger.threads t).enter (.setCallback callback)).map (logger.setThread t)
  | .setLevel level => some { logger with minLevel := level }
  | .lock t =>
      match logger.owner, logger.threads t with
      | none, .waiting call => some (logger.enterSection t call)
      | _, _ => none
  | .finish t =>
      match logger.threads t with
      | .calling _ => some { logger.setThread t .outside with owner := none }
      | _ => none

/-- A callback calls the logger, and gets as far as the mutex. -/
def Reenters (logger : Logger Callback) : LoggerEvent Callback → Prop
  | .log t level _ =>
      (logger.threads t).running ≠ none ∧ logger.minLevel.value ≤ level.value
  | .setCallback t _ => (logger.threads t).running ≠ none
  | .setLevel _ | .lock _ | .finish _ => False

/-- Every call that waits can get through, if the others are given the time for it. -/
def Responsive (logger : Logger Callback) : Prop :=
  ∀ t, (logger.threads t).pending ≠ none →
    ∃ events next, run step logger events = some next ∧ (next.threads t).pending = none

/-- What the logger keeps in any interleaving. -/
structure Orderly (logger : Logger Callback) : Prop where
  /-- One thread at a time runs a callback, and this thread holds the mutex. -/
  owned : ∀ t, logger.owner = some t ↔ (logger.threads t).running ≠ none
  /-- Nobody runs a callback that has been replaced. -/
  current : ∀ t callback, (logger.threads t).running = some callback →
    logger.callback = some callback
  /-- The messages of a thread are handled in their order and each once, up to the one that
  waits. -/
  inTurn : ∀ t, logger.passed.filter (·.thread = t) =
    (logger.handled.map Prod.fst).filter (·.thread = t) ++
      ((logger.threads t).pending.elim [] (LoggerCall.message t))

variable {logger next : Logger Callback} {t : Nat}

/-! ## Order -/

theorem init_orderly (standard : Callback) : (init standard).Orderly where
  owned _ := iff_of_false (Option.some_ne_none _ ·.symm) (fun hrunning => hrunning rfl)
  current _ _ hrunning := (by cases hrunning)
  inTurn _ := rfl

/-- A call waits where it is made. -/
theorem enter_cases {call : LoggerCall Callback} {phase after : LoggerPhase Callback}
    (henter : phase.enter call = some after) :
    phase.pending = none ∧ after.pending = some call ∧ after.running = phase.running := by
  cases phase with
  | outside | calling callback =>
      cases henter
      exact ⟨rfl, rfl, rfl⟩
  | waiting | reentering => cases henter

/-- One thread moves. -/
theorem Orderly.move (horderly : logger.Orderly) {phase : LoggerPhase Callback}
    (hthreads : next.threads = Function.update logger.threads t phase)
    (howner : ∀ u, next.owner = some u ↔
      if u = t then phase.running ≠ none else logger.owner = some u)
    (hown : ∀ callback, phase.running = some callback → next.callback = some callback)
    (hcallback : next.callback = logger.callback ∨ logger.owner = none)
    (hothers : ∀ u, u ≠ t → next.passed.filter (·.thread = u) = logger.passed.filter (·.thread = u) ∧
      (next.handled.map Prod.fst).filter (·.thread = u) =
        (logger.handled.map Prod.fst).filter (·.thread = u))
    (hinTurn : next.passed.filter (·.thread = t) =
      (next.handled.map Prod.fst).filter (·.thread = t) ++
        (phase.pending.elim [] (LoggerCall.message t))) : next.Orderly := by
  constructor
  · intro u
    rw [howner, hthreads, Function.update_apply]
    split
    · exact Iff.rfl
    · exact horderly.owned u
  · intro u callback hrunning
    rw [hthreads, Function.update_apply] at hrunning
    split at hrunning
    · exact hown callback hrunning
    · rcases hcallback with hsame | hfree
      · exact hsame.trans (horderly.current u callback hrunning)
      · -- nobody runs a callback while the mutex is free
        have howned := (horderly.owned u).mpr (by rw [hrunning]; exact Option.some_ne_none _)
        rw [hfree] at howned
        cases howned
  · intro u
    rw [hthreads, Function.update_apply]
    split
    next hu =>
      rw [hu]
      exact hinTurn
    next hu =>
      rw [(hothers u hu).1, (hothers u hu).2]
      exact horderly.inTurn u

/-- A message of one thread is none of another one. -/
theorem filter_concat_of_ne {messages : List LogMessage} {u : Nat} (hu : u ≠ t)
    (level : LogLevel) (msg : String) :
    (messages ++ [LogMessage.mk t level msg]).filter (·.thread = u) = messages.filter (·.thread = u) := by
  rw [List.filter_append, List.filter_singleton, decide_eq_false (Ne.symm hu)]
  exact List.append_nil _

theorem filter_concat_self {messages : List LogMessage} (level : LogLevel) (msg : String) :
    (messages ++ [LogMessage.mk t level msg]).filter (·.thread = t) =
      messages.filter (·.thread = t) ++ [⟨t, level, msg⟩] := by
  rw [List.filter_append, List.filter_singleton, decide_eq_true rfl]
  rfl

/-- A thread that starts to wait runs what it has run before. -/
theorem Orderly.owner_of_running (horderly : logger.Orderly) {phase : LoggerPhase Callback}
    (hrunning : phase.running = (logger.threads t).running) (u : Nat) :
    logger.owner = some u ↔ if u = t then phase.running ≠ none else logger.owner = some u := by
  split
  next hu =>
    rw [hu, hrunning]
    exact horderly.owned t
  next => exact Iff.rfl

/-- The mutex is given up, or has not been taken. -/
theorem owner_free (howner : ∀ u, logger.owner = some u → u = t) (u : Nat) :
    none = some u ↔ if u = t then (none : Option Callback) ≠ none else logger.owner = some u := by
  split
  next => simp
  next hu => exact ⟨fun hsome => (by cases hsome), fun howned => absurd (howner u howned) hu⟩

theorem owner_taken (hfree : logger.owner = none) (callback : Callback) (u : Nat) :
    some t = some u ↔ if u = t then some callback ≠ none else logger.owner = some u := by
  split
  next hu => simp [hu]
  next hu => simp [hfree, Ne.symm hu]

/-- What has been handled is the message that waited. -/
theorem Orderly.handle (horderly : logger.Orderly) {level : LogLevel} {msg : String}
    (hwaiting : logger.threads t = .waiting (.log level msg)) :
    logger.passed.filter (·.thread = t) =
      ((logger.handled ++ [(LogMessage.mk t level msg, logger.callback)]).map Prod.fst).filter
        (·.thread = t) := by
  have hinTurn := horderly.inTurn t
  rw [hwaiting] at hinTurn
  rw [hinTurn, List.map_append]
  exact (filter_concat_self level msg).symm

theorem Orderly.step {event : LoggerEvent Callback} (horderly : logger.Orderly)
    (hstep : logger.step event = some next) : next.Orderly := by
  cases event with
  | log t level msg =>
      obtain ⟨phase, henter, hnext⟩ := Option.map_eq_some_iff.mp hstep
      obtain ⟨hidle, hpending, hrunning⟩ := enter_cases henter
      split at hnext
      · cases hnext
        exact horderly
      cases hnext
      refine horderly.move rfl (horderly.owner_of_running hrunning) ?_ (.inl rfl) ?_ ?_
      · exact fun callback hcalling => horderly.current t callback (hrunning ▸ hcalling)
      · exact fun u hu => ⟨filter_concat_of_ne hu level msg, rfl⟩
      · rw [hpending]
        refine (filter_concat_self level msg).trans ?_
        have hinTurn := horderly.inTurn t
        rw [hidle] at hinTurn
        rw [hinTurn]
        exact congrArg (· ++ _) (List.append_nil _)
  | setCallback t callback =>
      obtain ⟨phase, henter, rfl⟩ := Option.map_eq_some_iff.mp hstep
      obtain ⟨hidle, hpending, hrunning⟩ := enter_cases henter
      refine horderly.move rfl (horderly.owner_of_running hrunning) ?_ (.inl rfl)
        (fun _ _ => ⟨rfl, rfl⟩) ?_
      · exact fun callback hcalling => horderly.current t callback (hrunning ▸ hcalling)
      · rw [hpending]
        have hinTurn := horderly.inTurn t
        rwa [hidle] at hinTurn
  | setLevel level =>
      cases hstep
      exact ⟨horderly.owned, horderly.current, horderly.inTurn⟩
  | lock t =>
      simp only [Logger.step] at hstep
      split at hstep
      next call hfree hwaiting =>
        cases hstep
        have hnobody : ∀ u, logger.owner = some u → u = t := by
          intro u howned
          rw [hfree] at howned
          cases howned
        cases call with
        | setCallback callback =>
            have hinTurn := horderly.inTurn t
            rw [hwaiting] at hinTurn
            refine horderly.move rfl (fun u => ?_) (fun _ hrunning => ?_) (.inr hfree)
              (fun _ _ => ⟨rfl, rfl⟩) hinTurn
            · exact (iff_of_eq (congrArg (· = some u) hfree)).trans (owner_free hnobody u)
            · cases hrunning
        | log level msg =>
            have hhandled := horderly.handle hwaiting
            have hothers : ∀ u, u ≠ t → ((logger.handled ++
                [(LogMessage.mk t level msg, logger.callback)]).map Prod.fst).filter (·.thread = u) =
                  (logger.handled.map Prod.fst).filter (·.thread = u) := by
              intro u hu
              rw [List.map_append]
              exact filter_concat_of_ne hu level msg
            rw [enterSection]
            cases hcallback : logger.callback with
            | none =>
                rw [hcallback] at hhandled hothers
                refine horderly.move rfl (fun u => ?_) (fun _ hrunning => ?_) (.inr hfree)
                  (fun u hu => ⟨rfl, hothers u hu⟩) (hhandled.trans (List.append_nil _).symm)
                · exact (iff_of_eq (congrArg (· = some u) hfree)).trans (owner_free hnobody u)
                · cases hrunning
            | some callback =>
                rw [hcallback] at hhandled hothers
                refine horderly.move rfl (owner_taken hfree callback) (fun _ hrunning => ?_)
                  (.inr hfree) (fun u hu => ⟨rfl, hothers u hu⟩)
                  (hhandled.trans (List.append_nil _).symm)
                cases hrunning
                exact hcallback
      next => cases hstep
  | finish t =>
      simp only [Logger.step] at hstep
      split at hstep
      next callback hcalling =>
        cases hstep
        have hinTurn := horderly.inTurn t
        rw [hcalling] at hinTurn
        refine horderly.move rfl (owner_free ?_) (fun _ hrunning => ?_) (.inl rfl)
          (fun _ _ => ⟨rfl, rfl⟩) hinTurn
        · -- the mutex is held by the thread that runs the callback
          have howner : logger.owner = some t :=
            (horderly.owned t).mpr (by rw [hcalling]; exact Option.some_ne_none _)
          intro u howned
          exact Option.some_inj.mp (howned.symm.trans howner)
        · cases hrunning
      next => cases hstep

/-- In every interleaving of the threads, one callback runs at a time, it is the one that is
set, and each thread's messages are handled in their order and once. -/
theorem throughout_orderly (standard : Callback) (events : List (LoggerEvent Callback)) :
    Throughout step Orderly (init standard) events :=
  throughout_of_guarded Orderly (fun _ horderly => horderly)
    (fun _ _ _ horderly _ hstep => horderly.step hstep) (init_orderly standard)
    (guarded_true (init standard) events)

/-! ## Callbacks that call the logger -/

/-- A thread waits for the mutex that it holds. -/
def Reentered (logger : Logger Callback) : Prop :=
  ∃ t callback call, logger.threads t = .reentering callback call

theorem enter_reentering {call : LoggerCall Callback} {phase after : LoggerPhase Callback}
    (henter : phase.enter call = some after) :
    (∃ callback call, after = .reentering callback call) ↔ phase.running ≠ none := by
  cases phase with
  | outside =>
      cases henter
      refine iff_of_false ?_ (fun hrunning => hrunning rfl)
      rintro ⟨callback, call, hafter⟩
      cases hafter
  | calling callback =>
      cases henter
      exact iff_of_true ⟨callback, call, rfl⟩ (Option.some_ne_none _)
  | waiting | reentering => cases henter

theorem reentered_setThread (hquiet : ¬ logger.Reentered) {phase : LoggerPhase Callback}
    (hthreads : next.threads = Function.update logger.threads t phase) :
    next.Reentered ↔ ∃ callback call, phase = .reentering callback call := by
  constructor
  · rintro ⟨u, callback, call, hu⟩
    rw [hthreads, Function.update_apply] at hu
    split at hu
    · exact ⟨callback, call, hu⟩
    · exact absurd ⟨u, callback, call, hu⟩ hquiet
  · rintro ⟨callback, call, hphase⟩
    refine ⟨t, callback, call, ?_⟩
    rw [hthreads, Function.update_self, hphase]

/-- A critical section ends outside, or in the callback. -/
theorem enterSection_threads (logger : Logger Callback) (t : Nat) (call : LoggerCall Callback) :
    ∃ phase, (logger.enterSection t call).threads = Function.update logger.threads t phase ∧
      phase.pending = none := by
  cases call with
  | setCallback callback => exact ⟨.outside, rfl, rfl⟩
  | log level msg =>
      rw [enterSection]
      cases logger.callback with
      | none => exact ⟨.outside, rfl, rfl⟩
      | some callback => exact ⟨.calling callback, rfl, rfl⟩

theorem not_reentering_of_pending {phase : LoggerPhase Callback} (hpending : phase.pending = none) :
    ¬ ∃ callback call, phase = .reentering callback call := by
  rintro ⟨callback, call, rfl⟩
  cases hpending

theorem step_reentered_iff {event : LoggerEvent Callback} (hquiet : ¬ logger.Reentered)
    (hstep : logger.step event = some next) : next.Reentered ↔ Reenters logger event := by
  cases event with
  | log t level msg =>
      obtain ⟨phase, henter, hnext⟩ := Option.map_eq_some_iff.mp hstep
      split at hnext
      next hlow =>
        cases hnext
        exact iff_of_false hquiet fun hreenters => absurd hreenters.2 (Nat.not_le.mpr hlow)
      next hhigh =>
        cases hnext
        rw [reentered_setThread hquiet rfl, enter_reentering henter]
        exact (and_iff_left (Nat.not_lt.mp hhigh)).symm
  | setCallback t callback =>
      obtain ⟨phase, henter, rfl⟩ := Option.map_eq_some_iff.mp hstep
      exact (reentered_setThread hquiet rfl).trans (enter_reentering henter)
  | setLevel level =>
      cases hstep
      exact iff_of_false hquiet id
  | lock t =>
      simp only [Logger.step] at hstep
      split at hstep
      next call hfree hwaiting =>
        cases hstep
        obtain ⟨phase, hthreads, hpending⟩ := logger.enterSection_threads t call
        rw [reentered_setThread hquiet hthreads]
        exact iff_of_false (not_reentering_of_pending hpending) id
      next => cases hstep
  | finish t =>
      simp only [Logger.step] at hstep
      split at hstep
      next callback hcalling =>
        cases hstep
        rw [reentered_setThread hquiet rfl]
        exact iff_of_false (not_reentering_of_pending rfl) id
      next => cases hstep

/-- Nobody gets the mutex any more. -/
theorem reentering_step (horderly : logger.Orderly) {callback : Callback}
    {call : LoggerCall Callback} (hreentering : logger.threads t = .reentering callback call)
    {event : LoggerEvent Callback} (hstep : logger.step event = some next) :
    next.threads t = .reentering callback call ∧ next.handled = logger.handled ∧
      next.callback = logger.callback := by
  have howner : logger.owner = some t :=
    (horderly.owned t).mpr (by rw [hreentering]; exact Option.some_ne_none _)
  -- the thread itself makes no other call
  have hother : ∀ {u phase} {made : LoggerCall Callback},
      (logger.threads u).enter made = some phase →
        Function.update logger.threads u phase t = .reentering callback call := by
    intro u phase made henter
    have hne : t ≠ u := by
      rintro rfl
      rw [hreentering] at henter
      cases henter
    rw [Function.update_of_ne hne, hreentering]
  cases event with
  | log u level msg =>
      obtain ⟨phase, henter, hnext⟩ := Option.map_eq_some_iff.mp hstep
      split at hnext
      · cases hnext
        exact ⟨hreentering, rfl, rfl⟩
      · cases hnext
        exact ⟨hother henter, rfl, rfl⟩
  | setCallback u callback =>
      obtain ⟨phase, henter, rfl⟩ := Option.map_eq_some_iff.mp hstep
      exact ⟨hother henter, rfl, rfl⟩
  | setLevel level =>
      cases hstep
      exact ⟨hreentering, rfl, rfl⟩
  | lock u =>
      simp only [Logger.step, howner] at hstep
      cases hstep
  | finish u =>
      simp only [Logger.step] at hstep
      split at hstep
      next running hcalling =>
        have hu : logger.owner = some u :=
          (horderly.owned u).mpr (by rw [hcalling]; exact Option.some_ne_none _)
        cases howner.symm.trans hu
        rw [hreentering] at hcalling
        cases hcalling
      next => cases hstep

theorem reentering_run (horderly : logger.Orderly) {callback : Callback}
    {call : LoggerCall Callback} (hreentering : logger.threads t = .reentering callback call)
    {events : List (LoggerEvent Callback)} {last : Logger Callback}
    (hrun : run step logger events = some last) :
    last.threads t = .reentering callback call ∧ last.handled = logger.handled ∧
      last.callback = logger.callback := by
  have hlast := run_invariant (fun state : Logger Callback => state.Orderly ∧
      state.threads t = .reentering callback call ∧ state.handled = logger.handled ∧
        state.callback = logger.callback) ?_ ⟨horderly, hreentering, rfl, rfl⟩ hrun
  · exact hlast.2
  · rintro state event next ⟨horderly, hreentering, hhandled, hcallback⟩ hstep
    obtain ⟨hthread, hsame, hset⟩ := reentering_step horderly hreentering hstep
    exact ⟨horderly.step hstep, hthread, hsame.trans hhandled, hset.trans hcallback⟩

/-! ## Getting through -/

/-- The mutex is free, or the callback that runs under it may return. -/
theorem Orderly.responsive (horderly : logger.Orderly) (hquiet : ¬ logger.Reentered) :
    logger.Responsive := by
  intro t hpending
  cases hphase : logger.threads t with
  | outside | calling =>
      rw [hphase] at hpending
      exact absurd rfl hpending
  | reentering callback call => exact absurd ⟨t, callback, call, hphase⟩ hquiet
  | waiting call =>
      have hlock : ∀ {free : Logger Callback}, free.owner = none → free.threads t = .waiting call →
          ∃ next, free.step (.lock t) = some next ∧ (next.threads t).pending = none := by
        intro free hfree hwaiting
        obtain ⟨phase, hthreads, hthrough⟩ := free.enterSection_threads t call
        refine ⟨free.enterSection t call, ?_, ?_⟩
        · simp only [Logger.step, hfree, hwaiting]
        · rw [hthreads, Function.update_self, hthrough]
      cases howner : logger.owner with
      | none =>
          obtain ⟨next, hstep, hthrough⟩ := hlock howner hphase
          exact ⟨[.lock t], next, by rw [run_cons, hstep]; rfl, hthrough⟩
      | some u =>
          have hrunning := (horderly.owned u).mp howner
          cases hholder : logger.threads u with
          | outside | waiting =>
              rw [hholder] at hrunning
              exact absurd rfl hrunning
          | reentering callback call => exact absurd ⟨u, callback, call, hholder⟩ hquiet
          | calling callback =>
              have hne : t ≠ u := by
                rintro rfl
                rw [hphase] at hholder
                cases hholder
              obtain ⟨next, hstep, hthrough⟩ := @hlock
                { logger.setThread u .outside with owner := none } rfl
                ((Function.update_of_ne hne ..).trans hphase)
              refine ⟨[.finish u, .lock t], next, ?_, hthrough⟩
              rw [run_cons]
              simp only [Logger.step, hholder, Option.bind_some]
              rw [run_cons, hstep]
              rfl

/-- A thread that waits for the mutex that it holds does so for good. -/
theorem reentered_step (horderly : logger.Orderly) {event : LoggerEvent Callback}
    (hstep : logger.step event = some next) :
    next.Reentered ↔ logger.Reentered ∨ Reenters logger event := by
  by_cases hquiet : logger.Reentered
  · obtain ⟨t, callback, call, hreentering⟩ := hquiet
    have hthread := (reentering_step horderly hreentering hstep).1
    exact iff_of_true ⟨t, callback, call, hthread⟩ (.inl ⟨t, callback, call, hreentering⟩)
  · rw [step_reentered_iff hquiet hstep, or_iff_right hquiet]

/-- Every call of the logger can get through in every state of a run exactly when no
callback calls the logger, unless with a message that is dropped. From such a call on, its
thread waits for the mutex that it holds, no message is handled and no callback is set any
more. -/
theorem responsive_iff (standard : Callback) (events : List (LoggerEvent Callback)) :
    (Throughout step Responsive (init standard) events ↔
      Guarded step (fun logger event => ¬ Reenters logger event) (init standard) events) ∧
    (∀ logger event next, Reachable step (init standard) logger →
      step logger event = some next →
        (next.Reentered ↔ logger.Reentered ∨ Reenters logger event)) ∧
    ∀ logger, Reachable step (init standard) logger → logger.Reentered →
      ∀ more last, run step logger more = some last →
        last.handled = logger.handled ∧ last.callback = logger.callback := by
  have hreachable : ∀ logger, Reachable step (init standard) logger → logger.Orderly := by
    intro logger hreach
    exact Reachable.invariant Orderly
      (fun _ _ _ horderly hstep => horderly.step hstep) (init_orderly standard) hreach
  refine ⟨?_, fun logger event next hreach => reentered_step (hreachable logger hreach), ?_⟩
  · apply throughout_iff_guarded
      (fun logger : Logger Callback => logger.Orderly ∧ ¬ logger.Reentered)
    · exact fun logger hlogger => hlogger.1.responsive hlogger.2
    · rintro logger event next ⟨horderly, hquiet⟩ hallowed hstep
      exact ⟨horderly.step hstep, mt (step_reentered_iff hquiet hstep).mp hallowed⟩
    · rintro logger event next ⟨horderly, hquiet⟩ hreenters hstep hresponsive
      obtain ⟨t, callback, call, hreentering⟩ :=
        (step_reentered_iff hquiet hstep).mpr (not_not.mp hreenters)
      obtain ⟨more, last, hrun, hthrough⟩ :=
        hresponsive t (by rw [hreentering]; exact Option.some_ne_none _)
      rw [(reentering_run (horderly.step hstep) hreentering hrun).1] at hthrough
      cases hthrough
    · refine ⟨init_orderly standard, ?_⟩
      rintro ⟨t, callback, call, hphase⟩
      cases hphase
  · rintro logger hreach ⟨t, callback, call, hreentering⟩ more last hrun
    exact (reentering_run (hreachable logger hreach) hreentering hrun).2

end Logger

end Ibridger.Cpp
