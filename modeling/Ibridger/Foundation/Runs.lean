import Mathlib.Data.List.Basic

/-! # Runs of partial transition functions

A system is a step function from a state and an event to the next state, or to
`none` where the event is not enabled. Everything nondeterministic is part of
the event, so quantifying over event lists quantifies over all runs.

Invariants come in three strengths: of every state a run reaches, of every
state reached while a side condition on the steps is met, and, when breaking
the condition breaks the invariant at once, as an equivalence.
-/

namespace Transition

universe uState uEvent

variable {State : Type uState} {Event : Type uEvent}

/-- Execute a list of events; `none` as soon as one of them is not enabled. -/
def run (step : State → Event → Option State) : State → List Event → Option State
  | state, [] => some state
  | state, event :: rest => (step state event).bind fun next => run step next rest

/-- Some list of events leads from the first state to the second. -/
def Reachable (step : State → Event → Option State) (first last : State) : Prop :=
  ∃ events, run step first events = some last

/-- A relation between a state, an event and the next state holds of every step
the run takes. -/
def Along (step : State → Event → Option State) (relation : State → Event → State → Prop) :
    State → List Event → Prop
  | _, [] => True
  | state, event :: rest =>
      ∀ next, step state event = some next →
        relation state event next ∧ Along step relation next rest

/-- Every step is taken from a state and with an event that the condition allows. -/
abbrev Guarded (step : State → Event → Option State) (allowed : State → Event → Prop) :
    State → List Event → Prop :=
  Along step fun state event _ => allowed state event

/-- A property of all the states of a run, the first and the last included. -/
def Throughout (step : State → Event → Option State) (property : State → Prop)
    (first : State) (events : List Event) : Prop :=
  property first ∧ Along step (fun _ _ next => property next) first events

variable {step : State → Event → Option State}

@[simp] theorem run_nil (state : State) : run step state [] = some state := rfl

@[simp] theorem run_cons (state : State) (event : Event) (rest : List Event) :
    run step state (event :: rest) = (step state event).bind fun next => run step next rest := rfl

theorem run_cons_eq_some {state last : State} {event : Event} {rest : List Event} :
    run step state (event :: rest) = some last ↔
      ∃ next, step state event = some next ∧ run step next rest = some last := by
  rw [run_cons, Option.bind_eq_some_iff]

theorem run_append (state : State) (first second : List Event) :
    run step state (first ++ second) =
      (run step state first).bind fun middle => run step middle second := by
  induction first generalizing state with
  | nil => rfl
  | cons event rest ih =>
      rw [List.cons_append, run_cons, run_cons, Option.bind_assoc]
      congr 1
      funext next
      exact ih next

theorem run_append_of_run {state middle : State} {first second : List Event}
    (hfirst : run step state first = some middle) :
    run step state (first ++ second) = run step middle second := by
  rw [run_append, hfirst, Option.bind_some]

namespace Reachable

theorem refl (state : State) : Reachable step state state := ⟨[], rfl⟩

theorem single {first last : State} {event : Event} (hstep : step first event = some last) :
    Reachable step first last :=
  ⟨[event], by rw [run_cons, hstep, Option.bind_some, run_nil]⟩

theorem tail {first middle last : State} {event : Event} (hreach : Reachable step first middle)
    (hstep : step middle event = some last) : Reachable step first last := by
  obtain ⟨events, hrun⟩ := hreach
  refine ⟨events ++ [event], ?_⟩
  rw [run_append_of_run hrun, run_cons, hstep, Option.bind_some, run_nil]

theorem trans {first middle last : State} (hfirst : Reachable step first middle)
    (hsecond : Reachable step middle last) : Reachable step first last := by
  obtain ⟨events, hrun⟩ := hfirst
  obtain ⟨rest, hrest⟩ := hsecond
  exact ⟨events ++ rest, by rw [run_append_of_run hrun, hrest]⟩

end Reachable

/-! ## Invariants -/

/-- What every step preserves, every run preserves. -/
theorem run_invariant (inv : State → Prop)
    (hstep : ∀ state event next, inv state → step state event = some next → inv next)
    {first last : State} {events : List Event} (hfirst : inv first)
    (hrun : run step first events = some last) : inv last := by
  induction events generalizing first with
  | nil =>
      cases hrun
      exact hfirst
  | cons event rest ih =>
      obtain ⟨next, hnext, hrest⟩ := run_cons_eq_some.mp hrun
      exact ih (hstep first event next hfirst hnext) hrest

theorem Reachable.invariant (inv : State → Prop)
    (hstep : ∀ state event next, inv state → step state event = some next → inv next)
    {first last : State} (hfirst : inv first) (hreach : Reachable step first last) : inv last := by
  obtain ⟨events, hrun⟩ := hreach
  exact run_invariant inv hstep hfirst hrun

/-- What the steps that stand in a relation preserve, every run of such steps preserves. -/
theorem run_invariant_of_along (inv : State → Prop) {relation : State → Event → State → Prop}
    (hstep : ∀ state event next, inv state → relation state event next →
      step state event = some next → inv next)
    {first last : State} {events : List Event} (hfirst : inv first)
    (halong : Along step relation first events)
    (hrun : run step first events = some last) : inv last := by
  induction events generalizing first with
  | nil =>
      cases hrun
      exact hfirst
  | cons event rest ih =>
      obtain ⟨next, hnext, hrest⟩ := run_cons_eq_some.mp hrun
      obtain ⟨hhead, htail⟩ := halong next hnext
      exact ih (hstep first event next hfirst hhead hnext) htail hrest

/-- What every allowed step preserves, every run of allowed steps preserves. -/
theorem run_invariant_of_guarded (inv : State → Prop) {allowed : State → Event → Prop}
    (hstep : ∀ state event next, inv state → allowed state event →
      step state event = some next → inv next)
    {first last : State} {events : List Event} (hfirst : inv first)
    (hguard : Guarded step allowed first events)
    (hrun : run step first events = some last) : inv last :=
  run_invariant_of_along inv hstep hfirst hguard hrun

theorem guarded_of_forall_mem {allowed : Event → Prop} {first : State} {events : List Event}
    (hallowed : ∀ event ∈ events, allowed event) :
    Guarded step (fun _ event => allowed event) first events := by
  induction events generalizing first with
  | nil => trivial
  | cons event rest ih =>
      intro next hnext
      exact ⟨hallowed event List.mem_cons_self,
        ih fun other hother => hallowed other (List.mem_cons_of_mem _ hother)⟩

/-! ## Costs -/

/-- A weight that never falls, and grows with each step of some kind, bounds the
number of these steps. -/
theorem run_countP_le (weight : State → Nat) (counted : Event → Bool)
    (hstep : ∀ state event next, step state event = some next →
      weight state + (if counted event then 1 else 0) ≤ weight next)
    {first last : State} {events : List Event} (hrun : run step first events = some last) :
    weight first + events.countP counted ≤ weight last := by
  induction events generalizing first with
  | nil =>
      cases hrun
      exact Nat.le_refl _
  | cons event rest ih =>
      obtain ⟨next, hnext, hrest⟩ := run_cons_eq_some.mp hrun
      have hhead := hstep first event next hnext
      have htail := ih hrest
      rw [List.countP_cons]
      omega

/-- A weight that every step lowers bounds the length of the run. -/
theorem run_length_le (weight : State → Nat)
    (hstep : ∀ state event next, step state event = some next → weight next < weight state)
    {first last : State} {events : List Event} (hrun : run step first events = some last) :
    events.length + weight last ≤ weight first := by
  induction events generalizing first with
  | nil =>
      cases hrun
      simp
  | cons event rest ih =>
      obtain ⟨next, hnext, hrest⟩ := run_cons_eq_some.mp hrun
      have hhead := hstep first event next hnext
      have htail := ih hrest
      rw [List.length_cons]
      omega

open Classical in
/-- How many steps of a run are taken from a state and with an event of some kind. -/
noncomputable def countAlong (step : State → Event → Option State)
    (counted : State → Event → Prop) : State → List Event → Nat
  | _, [] => 0
  | state, event :: rest =>
      match step state event with
      | none => 0
      | some next =>
          (if counted state event then 1 else 0) + countAlong step counted next rest

theorem countAlong_cons_of_pos {counted : State → Event → Prop} {state next : State}
    {event : Event} {rest : List Event} (hstep : step state event = some next)
    (hcounted : counted state event) : countAlong step counted state (event :: rest) =
      1 + countAlong step counted next rest := by
  rw [countAlong, hstep]
  dsimp only
  rw [if_pos hcounted]

theorem countAlong_cons_of_neg {counted : State → Event → Prop} {state next : State}
    {event : Event} {rest : List Event} (hstep : step state event = some next)
    (hnot : ¬ counted state event) : countAlong step counted state (event :: rest) =
      countAlong step counted next rest := by
  rw [countAlong, hstep]
  dsimp only
  rw [if_neg hnot, Nat.zero_add]

/-! ## Properties of all steps -/

namespace Along

variable {relation other : State → Event → State → Prop}

theorem mono (himp : ∀ state event next, relation state event next → other state event next)
    {first : State} {events : List Event} (halong : Along step relation first events) :
    Along step other first events := by
  induction events generalizing first with
  | nil => trivial
  | cons event rest ih =>
      intro next hnext
      obtain ⟨hhead, htail⟩ := halong next hnext
      exact ⟨himp _ _ _ hhead, ih htail⟩

theorem cons {state next : State} {event : Event} {rest : List Event}
    (hstep : step state event = some next) (hhead : relation state event next)
    (htail : Along step relation next rest) : Along step relation state (event :: rest) := by
  intro other hother
  cases hstep.symm.trans hother
  exact ⟨hhead, htail⟩

theorem append {first middle : State} {events more : List Event}
    (halong : Along step relation first events) (hrun : run step first events = some middle)
    (hmore : Along step relation middle more) : Along step relation first (events ++ more) := by
  induction events generalizing first with
  | nil =>
      cases hrun
      exact hmore
  | cons event rest ih =>
      obtain ⟨next, hnext, hrest⟩ := run_cons_eq_some.mp hrun
      obtain ⟨hhead, htail⟩ := halong next hnext
      exact .cons hnext hhead (ih htail hrest)

theorem behind {first middle : State} {events more : List Event}
    (halong : Along step relation first (events ++ more))
    (hrun : run step first events = some middle) : Along step relation middle more := by
  induction events generalizing first with
  | nil =>
      cases hrun
      exact halong
  | cons event rest ih =>
      obtain ⟨next, hnext, hrest⟩ := run_cons_eq_some.mp hrun
      exact ih (halong next hnext).2 hrest

theorem and {first : State} {events : List Event} (halong : Along step relation first events)
    (hother : Along step other first events) :
    Along step (fun state event next => relation state event next ∧ other state event next)
      first events := by
  induction events generalizing first with
  | nil => trivial
  | cons event rest ih =>
      intro next hnext
      obtain ⟨hhead, htail⟩ := halong next hnext
      obtain ⟨hhead', htail'⟩ := hother next hnext
      exact ⟨⟨hhead, hhead'⟩, ih htail htail'⟩

/-- Two relations that an invariant makes equivalent hold along the same runs. -/
theorem congr_of_invariant (inv : State → Prop)
    (hstep : ∀ state event next, inv state → step state event = some next → inv next)
    (hiff : ∀ state event next, inv state → step state event = some next →
      (relation state event next ↔ other state event next))
    {first : State} {events : List Event} (hfirst : inv first) :
    Along step relation first events ↔ Along step other first events := by
  induction events generalizing first with
  | nil => exact Iff.rfl
  | cons event rest ih =>
      constructor
      all_goals
        intro halong next hnext
        obtain ⟨hhead, htail⟩ := halong next hnext
        have hinv := hstep first event next hfirst hnext
      · exact ⟨(hiff _ _ _ hfirst hnext).mp hhead, (ih hinv).mp htail⟩
      · exact ⟨(hiff _ _ _ hfirst hnext).mpr hhead, (ih hinv).mpr htail⟩

/-- Allowed steps that keep an invariant are in a relation all along. -/
theorem of_guarded (inv : State → Prop) {allowed : State → Event → Prop}
    (hkeep : ∀ state event next, inv state → allowed state event →
      step state event = some next → inv next ∧ relation state event next)
    {first : State} {events : List Event} (hfirst : inv first)
    (hguard : Guarded step allowed first events) : Along step relation first events := by
  induction events generalizing first with
  | nil => trivial
  | cons event rest ih =>
      intro next hnext
      obtain ⟨hallowed, hrest⟩ := hguard next hnext
      obtain ⟨hinv, hhead⟩ := hkeep first event next hfirst hallowed hnext
      exact ⟨hhead, ih hinv hrest⟩

end Along

theorem Throughout.last {property : State → Prop} {first last : State} {events : List Event}
    (hthroughout : Throughout step property first events)
    (hrun : run step first events = some last) : property last :=
  run_invariant_of_along property (fun _ _ _ _ hnext _ => hnext) hthroughout.1 hthroughout.2 hrun

/-- What an invariant that allowed steps keep implies holds throughout a run of them. -/
theorem throughout_of_guarded (inv : State → Prop) {property : State → Prop}
    {allowed : State → Event → Prop} (hprop : ∀ state, inv state → property state)
    (hkeep : ∀ state event next, inv state → allowed state event →
      step state event = some next → inv next)
    {first : State} {events : List Event} (hfirst : inv first)
    (hguard : Guarded step allowed first events) : Throughout step property first events := by
  refine ⟨hprop first hfirst, Along.of_guarded inv ?_ hfirst hguard⟩
  intro state event next hinv hallowed hnext
  have hnextInv := hkeep state event next hinv hallowed hnext
  exact ⟨hnextInv, hprop next hnextInv⟩

/-! ## Exact conditions -/

/-- When allowed steps keep an invariant and are in the relation, and a step that
is not allowed is not, all steps of a run are in the relation exactly when all
are allowed. Both may use what is given of every step. -/
theorem along_iff_guarded_of (inv : State → Prop) {relation : State → Event → State → Prop}
    {given allowed : State → Event → Prop}
    (hkeep : ∀ state event next, inv state → given state event → allowed state event →
      step state event = some next → inv next ∧ relation state event next)
    (hbreak : ∀ state event next, inv state → given state event → ¬ allowed state event →
      step state event = some next → ¬ relation state event next)
    {first : State} {events : List Event} (hfirst : inv first)
    (hgiven : Guarded step given first events) :
    Along step relation first events ↔ Guarded step allowed first events := by
  induction events generalizing first with
  | nil => exact Iff.rfl
  | cons event rest ih =>
      constructor
      · intro halong next hnext
        obtain ⟨hhead, htail⟩ := halong next hnext
        obtain ⟨hevent, hrest⟩ := hgiven next hnext
        have hallowed : allowed first event := by
          by_contra hnot
          exact hbreak first event next hfirst hevent hnot hnext hhead
        have hinv := (hkeep first event next hfirst hevent hallowed hnext).1
        exact ⟨hallowed, (ih hinv hrest).mp htail⟩
      · intro hguard next hnext
        obtain ⟨hallowed, htail⟩ := hguard next hnext
        obtain ⟨hevent, hrest⟩ := hgiven next hnext
        obtain ⟨hinv, hhead⟩ := hkeep first event next hfirst hevent hallowed hnext
        exact ⟨hhead, (ih hinv hrest).mpr htail⟩

/-- When allowed steps keep an invariant that implies the property, and a step
that is not allowed breaks the property at once, the property holds throughout
a run exactly when all its steps are allowed. -/
theorem throughout_iff_guarded_of (inv : State → Prop) {property : State → Prop}
    {given allowed : State → Event → Prop}
    (hprop : ∀ state, inv state → property state)
    (hkeep : ∀ state event next, inv state → given state event → allowed state event →
      step state event = some next → inv next)
    (hbreak : ∀ state event next, inv state → given state event → ¬ allowed state event →
      step state event = some next → ¬ property next)
    {first : State} {events : List Event} (hfirst : inv first)
    (hgiven : Guarded step given first events) :
    Throughout step property first events ↔ Guarded step allowed first events := by
  have hiff : Along step (fun _ _ next => property next) first events ↔
      Guarded step allowed first events := by
    apply along_iff_guarded_of inv _ hbreak hfirst hgiven
    intro state event next hinv hevent hallowed hnext
    have hnextInv := hkeep state event next hinv hevent hallowed hnext
    exact ⟨hnextInv, hprop next hnextInv⟩
  exact ⟨fun hthroughout => hiff.mp hthroughout.2, fun hguard => ⟨hprop first hfirst, hiff.mpr hguard⟩⟩

theorem guarded_true (first : State) (events : List Event) :
    Guarded step (fun _ _ => True) first events :=
  @guarded_of_forall_mem _ _ step (fun _ => True) first events fun _ _ => trivial

theorem along_iff_guarded (inv : State → Prop) {relation : State → Event → State → Prop}
    {allowed : State → Event → Prop}
    (hkeep : ∀ state event next, inv state → allowed state event →
      step state event = some next → inv next ∧ relation state event next)
    (hbreak : ∀ state event next, inv state → ¬ allowed state event →
      step state event = some next → ¬ relation state event next)
    {first : State} {events : List Event} (hfirst : inv first) :
    Along step relation first events ↔ Guarded step allowed first events :=
  along_iff_guarded_of inv (fun state event next hinv _ => hkeep state event next hinv)
    (fun state event next hinv _ => hbreak state event next hinv) hfirst (guarded_true first events)

theorem throughout_iff_guarded (inv : State → Prop) {property : State → Prop}
    {allowed : State → Event → Prop}
    (hprop : ∀ state, inv state → property state)
    (hkeep : ∀ state event next, inv state → allowed state event →
      step state event = some next → inv next)
    (hbreak : ∀ state event next, inv state → ¬ allowed state event →
      step state event = some next → ¬ property next)
    {first : State} {events : List Event} (hfirst : inv first) :
    Throughout step property first events ↔ Guarded step allowed first events :=
  throughout_iff_guarded_of inv hprop (fun state event next hinv _ => hkeep state event next hinv)
    (fun state event next hinv _ => hbreak state event next hinv) hfirst (guarded_true first events)

end Transition
