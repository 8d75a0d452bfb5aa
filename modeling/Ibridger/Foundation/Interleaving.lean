import Ibridger.Foundation.Runs
import Mathlib.Logic.Function.Basic

/-! # Interleavings of independent systems

A family of systems, each with its own state, whose events come in any order.
What is seen of one of them is a run of it alone.
-/

namespace Transition

universe uState uEvent uIndex

variable {State : Type uState} {Event : Type uEvent} {Index : Type uIndex} [DecidableEq Index]
variable {step : State → Event → Option State}

/-- One of the systems takes a step, the others stay as they are. -/
def interleave (step : State → Event → Option State) (states : Index → State)
    (event : Index × Event) : Option (Index → State) :=
  (step (states event.1) event.2).map (Function.update states event.1)

/-- The events of one of the systems. -/
def eventsOf (index : Index) (events : List (Index × Event)) : List Event :=
  events.filterMap fun event => if event.1 = index then some event.2 else none

theorem eventsOf_cons_self (event : Index × Event) (rest : List (Index × Event)) :
    eventsOf event.1 (event :: rest) = event.2 :: eventsOf event.1 rest := by
  simp [eventsOf]

theorem eventsOf_cons_of_ne {index : Index} {event : Index × Event} (hindex : event.1 ≠ index)
    (rest : List (Index × Event)) : eventsOf index (event :: rest) = eventsOf index rest := by
  simp [eventsOf, hindex]

theorem mem_of_mem_eventsOf {index : Index} {event : Event} {events : List (Index × Event)}
    (hmem : event ∈ eventsOf index events) : (index, event) ∈ events := by
  obtain ⟨⟨other, own⟩, hown, heq⟩ := List.mem_filterMap.mp hmem
  split at heq
  next hindex =>
    cases heq
    subst hindex
    exact hown
  · cases heq

/-- Each system runs through its own events. -/
theorem run_eventsOf {states last : Index → State} {events : List (Index × Event)}
    (hrun : run (interleave step) states events = some last) (index : Index) :
    run step (states index) (eventsOf index events) = some (last index) := by
  induction events generalizing states with
  | nil =>
      cases hrun
      rfl
  | cons event rest ih =>
      obtain ⟨next, hnext, hrest⟩ := run_cons_eq_some.mp hrun
      obtain ⟨state, hstate, rfl⟩ := Option.map_eq_some_iff.mp hnext
      have htail := ih hrest
      by_cases hindex : event.1 = index
      · subst hindex
        rw [Function.update_self] at htail
        rw [eventsOf_cons_self]
        exact run_cons_eq_some.mpr ⟨state, hstate, htail⟩
      · rw [Function.update_of_ne (Ne.symm hindex)] at htail
        rw [eventsOf_cons_of_ne hindex]
        exact htail

end Transition
