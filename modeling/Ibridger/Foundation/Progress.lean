import Ibridger.Foundation.Runs
import Mathlib.Data.Prod.Lex
import Mathlib.Algebra.Ring.Nat

/-! # Progress

A system takes some of its steps by itself, in an order that is not fixed. What
is inevitable happens in whatever order it takes them.
-/

namespace Transition

universe uState uEvent uRank

variable {State : Type uState} {Event : Type uEvent}
variable (step : State → Event → Option State) (own : State → Event → Prop) (goal : State → Prop)

/-- The goal is reached, or the system can go on by itself, and whichever of its
own steps it takes, the goal stays inevitable. -/
inductive Inevitable : State → Prop where
  | reached (state : State) (hgoal : goal state) : Inevitable state
  | ahead (state : State)
      (henabled : ∃ event next, own state event ∧ step state event = some next)
      (hnext : ∀ event next, own state event → step state event = some next → Inevitable next) :
      Inevitable state

variable {step own goal}

/-- A goal is inevitable where a rank falls with every step and, until the goal is
reached, some step can be taken. -/
theorem inevitable_of_rank {Rank : Type uRank} [Preorder Rank] [WellFoundedLT Rank]
    (inv : State → Prop) (rank : State → Rank)
    (hstep : ∀ state event next, inv state → ¬ goal state → own state event →
      step state event = some next → inv next ∧ rank next < rank state)
    (henabled : ∀ state, inv state → ¬ goal state →
      ∃ event next, own state event ∧ step state event = some next)
    {state : State} (hinv : inv state) : Inevitable step own goal state := by
  induction hrank : rank state using WellFoundedLT.induction generalizing state with
  | ind level ih =>
      by_cases hgoal : goal state
      · exact .reached state hgoal
      · refine .ahead state (henabled state hinv hgoal) ?_
        intro event next hown hnext
        obtain ⟨hkept, hfalls⟩ := hstep state event next hinv hgoal hown hnext
        rw [hrank] at hfalls
        exact ih (rank next) hfalls hkept rfl

theorem Inevitable.mono {other : State → Prop} {state : State}
    (hinevitable : Inevitable step own goal state) (himp : ∀ last, goal last → other last) :
    Inevitable step own other state := by
  induction hinevitable with
  | reached state hgoal => exact .reached state (himp state hgoal)
  | ahead state henabled hnext ih => exact .ahead state henabled ih

/-! ## Ranks of tables -/

/-- An entry that weighs less makes the table weigh less. -/
theorem sum_map_set_lt {Entry : Type uState} {entries : List Entry} {k : Nat} {entry new : Entry}
    (weight : Entry → Nat) (hentry : entries[k]? = some entry)
    (hweight : weight new < weight entry) :
    ((entries.set k new).map weight).sum < (entries.map weight).sum := by
  obtain ⟨hk, rfl⟩ := List.getElem?_eq_some_iff.mp hentry
  have hsplit : entries = entries.take k ++ entries[k] :: entries.drop (k + 1) := by
    rw [List.getElem_cons_drop, List.take_append_drop]
  rw [List.set_eq_take_append_cons_drop, if_pos hk]
  conv_rhs => rw [hsplit]
  simp only [List.map_append, List.map_cons, List.sum_append, List.sum_cons]
  omega

end Transition
