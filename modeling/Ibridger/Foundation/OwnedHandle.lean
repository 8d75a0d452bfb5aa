import Ibridger.Foundation.Runs

/-! # Handles released under a liveness flag

An object owns a handle and a flag. Closing releases the handle if the flag is
set and clears it. A failing operation also clears the flag, but releases
nothing, so a close after it has no effect.

The handle is released exactly once precisely when no operation fails while the
flag is set. `throughout_balanced_iff` transfers this to every system whose
steps act on its handle in this way.
-/

namespace OwnedHandle

open Transition

universe uState uEvent

/-- What an operation does to the flag and the handle. -/
inductive Action where
  | use
  | fail
  | close
deriving DecidableEq, Repr

structure Handle where
  live : Bool
  released : Nat
deriving DecidableEq, Repr

namespace Handle

def act (handle : Handle) : Action → Handle
  | .use => handle
  | .fail => { handle with live := false }
  | .close => if handle.live then ⟨false, handle.released + 1⟩ else handle

/-- An operation that clears the flag exactly when it fails. -/
theorem act_use_or_fail (live : Bool) (released : Nat) (failed : Bool) :
    (⟨live, released⟩ : Handle).act (if failed then .fail else .use) =
      ⟨live && !failed, released⟩ := by
  cases failed <;> simp [act]

/-- Released once if the flag is clear, not at all while it is set. -/
def Balanced (handle : Handle) : Prop :=
  handle.released = if handle.live then 0 else 1

/-- Without failures the handle stays in use, or is released as it is closed. -/
theorem Balanced.act {handle : Handle} (hbalanced : handle.Balanced) {action : Action}
    (hallowed : handle.live = true → action ≠ .fail) : (handle.act action).Balanced := by
  cases action with
  | use => exact hbalanced
  | fail =>
      cases hlive : handle.live with
      | true => exact absurd rfl (hallowed hlive)
      | false => simpa [Balanced, Handle.act, hlive] using hbalanced
  | close =>
      cases hlive : handle.live with
      | true => simpa [Balanced, Handle.act, hlive] using hbalanced
      | false => simpa [Balanced, Handle.act, hlive] using hbalanced

/-- A failure of a live handle leaves it unreleased for good. -/
theorem Balanced.not_act_fail {handle : Handle} (hbalanced : handle.Balanced)
    (hlive : handle.live = true) : ¬ (handle.act .fail).Balanced := by
  simp only [Balanced, hlive, ↓reduceIte] at hbalanced
  simp [Balanced, Handle.act, hbalanced]

/-- Not released while the flag is set, and never more than once. -/
def AtMostOnce (handle : Handle) : Prop :=
  handle.released ≤ if handle.live then 0 else 1

theorem AtMostOnce.act {handle : Handle} (honce : handle.AtMostOnce) (action : Action) :
    (handle.act action).AtMostOnce := by
  cases hlive : handle.live <;> cases action <;>
    simp only [AtMostOnce, Handle.act, hlive, Bool.false_eq_true, ↓reduceIte] at honce ⊢ <;> omega

end Handle

variable {State : Type uState} {Event : Type uEvent}
variable {step : State → Event → Option State}

/-- A system whose steps act on one owned handle, as long as `inv` holds. -/
structure Owns (step : State → Event → Option State) (inv : State → Prop)
    (view : State → Handle) (action : Event → Action) : Prop where
  keeps : ∀ state event next, inv state → step state event = some next → inv next
  acts : ∀ state event next, inv state → step state event = some next →
    view next = (view state).act (action event)

namespace Owns

variable {inv : State → Prop} {view : State → Handle} {action : Event → Action}

/-- The handle is balanced in every state of a run exactly when no operation of
the run fails on a live handle. -/
theorem throughout_balanced_iff (howns : Owns step inv view action) (first : State)
    (events : List Event) (hinv : inv first) (hfirst : (view first).Balanced) :
    Throughout step (fun state => (view state).Balanced) first events ↔
      Guarded step (fun state event => (view state).live = true → action event ≠ .fail)
        first events := by
  apply throughout_iff_guarded (fun state => inv state ∧ (view state).Balanced)
  · exact fun state hstate => hstate.2
  · rintro state event next ⟨hstate, hbalanced⟩ hallowed hnext
    refine ⟨howns.keeps _ _ _ hstate hnext, ?_⟩
    rw [howns.acts _ _ _ hstate hnext]
    exact hbalanced.act hallowed
  · rintro state event next ⟨hstate, hbalanced⟩ hnot hnext
    rw [howns.acts _ _ _ hstate hnext]
    rw [Classical.not_imp, not_ne_iff] at hnot
    rw [hnot.2]
    exact hbalanced.not_act_fail hnot.1
  · exact ⟨hinv, hfirst⟩

/-- Whatever fails, the handle is never released twice. -/
theorem atMostOnce (howns : Owns step inv view action) {first last : State}
    {events : List Event} (hinv : inv first) (hfirst : (view first).AtMostOnce)
    (hrun : run step first events = some last) : (view last).AtMostOnce := by
  have hboth : inv last ∧ (view last).AtMostOnce := by
    refine run_invariant (fun state => inv state ∧ (view state).AtMostOnce) ?_
      ⟨hinv, hfirst⟩ hrun
    rintro state event next ⟨hstate, honce⟩ hnext
    refine ⟨howns.keeps _ _ _ hstate hnext, ?_⟩
    rw [howns.acts _ _ _ hstate hnext]
    exact honce.act _
  exact hboth.2

end Owns

end OwnedHandle
