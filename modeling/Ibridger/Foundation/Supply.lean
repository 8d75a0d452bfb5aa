import Ibridger.Foundation.Runs
import Mathlib.Algebra.Ring.Nat

/-! # Supply and demand

A system that is supplied with something and passes it on to those who order it. What it
has in stock and what it owes change together, so the totals of a run tell whether there
has ever been more in stock than was owed.
-/

namespace Transition

universe uState uEvent

variable {State : Type uState} {Event : Type uEvent}

/-- The books of a system: deliveries take as much off the stock as off what is owed. -/
structure Account (step : State → Event → Option State) where
  stock : State → Nat
  owed : State → Nat
  supplied : Event → Nat
  ordered : Event → Nat
  balanced : ∀ state event next, step state event = some next →
    stock next + owed state + ordered event = stock state + owed next + supplied event

namespace Account

variable {step : State → Event → Option State} (account : Account step)

/-- Nothing is in stock that nobody waits for. -/
def NoSurplus (state : State) : Prop := account.stock state ≤ account.owed state

/-- What the event supplies has been ordered. -/
def Expected (state : State) (event : Event) : Prop :=
  account.stock state + account.supplied event ≤ account.owed state + account.ordered event

/-- At no point has more been supplied than ordered. -/
def Covered (events : List Event) : Prop :=
  ∀ seen, seen <+: events →
    (seen.map account.supplied).sum ≤ (seen.map account.ordered).sum

variable {account} {state next first last : State} {event : Event} {events : List Event}

theorem noSurplus_iff_expected (hstep : step state event = some next) :
    account.NoSurplus next ↔ account.Expected state event := by
  have hbalanced := account.balanced state event next hstep
  unfold NoSurplus Expected
  omega

/-- From an opening balance on, every supply is expected exactly if the totals stay
covered. -/
theorem guarded_iff_of_opening (hfirst : account.NoSurplus first)
    (hrun : run step first events = some last) :
    Guarded step account.Expected first events ↔ ∀ seen, seen <+: events →
      account.stock first + (seen.map account.supplied).sum ≤
        account.owed first + (seen.map account.ordered).sum := by
  induction events generalizing first with
  | nil =>
      constructor
      · intro _ seen hseen
        rw [List.prefix_nil.mp hseen]
        exact hfirst
      · intro _
        trivial
  | cons event rest ih =>
      obtain ⟨next, hstep, hrest⟩ := run_cons_eq_some.mp hrun
      have hbalanced := account.balanced first event next hstep
      constructor
      · intro hguard seen hseen
        obtain ⟨hevent, htail⟩ := hguard next hstep
        rcases List.prefix_cons_iff.mp hseen with rfl | ⟨more, rfl, hmore⟩
        · exact hfirst
        · -- the totals of a longer prefix continue the books of the next state
          have hcovered :=
            (ih ((noSurplus_iff_expected hstep).mpr hevent) hrest).mp htail more hmore
          simp only [List.map_cons, List.sum_cons]
          omega
      · intro hcovered other hother
        obtain rfl : next = other := Option.some.inj (hstep.symm.trans hother)
        have hevent : account.Expected first event := by
          have hone := hcovered [event] (by simp)
          simpa [Expected] using hone
        refine ⟨hevent, (ih ((noSurplus_iff_expected hstep).mpr hevent) hrest).mpr ?_⟩
        intro more hmore
        have hlonger := hcovered (event :: more) ((List.prefix_cons_inj event).mpr hmore)
        simp only [List.map_cons, List.sum_cons] at hlonger
        omega

/-- Where the books open with nothing, the totals decide. -/
theorem guarded_iff_covered (hstock : account.stock first = 0) (howed : account.owed first = 0)
    (hrun : run step first events = some last) :
    Guarded step account.Expected first events ↔ account.Covered events := by
  have hfirst : account.NoSurplus first := by simp [NoSurplus, hstock, howed]
  rw [guarded_iff_of_opening hfirst hrun, hstock, howed]
  simp only [Nat.zero_add]
  rfl

end Account

end Transition
