import Ibridger.Foundation.Runs
import Mathlib.Data.Finset.Card
import Mathlib.Data.Finset.Filter
import Mathlib.Logic.Function.Basic

/-! # The numbers that a kernel gives out

A kernel gives out a number for what it opens, and takes it back as that is closed. It may
then give out the same number again. Objects hold numbers, and some of them will close
what they hold.

A table is sound if every number that is held is open and has one holder, so that no object
closes, or uses, what belongs to another. It accounts for its numbers if every open one has
a holder that will close it.
-/

universe uOwner

@[ext] structure HandleTable (Owner : Type uOwner) where
  opened : Finset Nat
  held : Owner → Option Nat
  closes : Owner → Bool

namespace HandleTable

variable {Owner : Type uOwner}

structure Sound (table : HandleTable Owner) : Prop where
  opened : ∀ owner number, table.held owner = some number → number ∈ table.opened
  single : ∀ owner other number, table.held owner = some number →
    table.held other = some number → owner = other

/-- Some object is going to close the number. -/
def Claimed (table : HandleTable Owner) (number : Nat) : Prop :=
  ∃ owner, table.held owner = some number ∧ table.closes owner = true

open Classical in
/-- What is open and will stay so. -/
noncomputable def lost (table : HandleTable Owner) : Finset Nat :=
  table.opened.filter fun number => ¬ table.Claimed number

open Classical in
theorem mem_lost {table : HandleTable Owner} {number : Nat} :
    number ∈ table.lost ↔ number ∈ table.opened ∧ ¬ table.Claimed number :=
  Finset.mem_filter

/-- Every open number is going to be closed. -/
def Accounted (table : HandleTable Owner) : Prop :=
  ∀ number ∈ table.opened, table.Claimed number

theorem accounted_iff_lost {table : HandleTable Owner} : table.Accounted ↔ table.lost = ∅ := by
  rw [Finset.eq_empty_iff_forall_notMem]
  simp only [Accounted, mem_lost, not_and, not_not]

def empty : HandleTable Owner where
  opened := ∅
  held := fun _ => none
  closes := fun _ => false

theorem empty_sound : (empty : HandleTable Owner).Sound :=
  ⟨fun _ _ hheld => (by cases hheld), fun _ _ _ hheld => (by cases hheld)⟩

theorem empty_lost : (empty : HandleTable Owner).lost = ∅ :=
  accounted_iff_lost.mp fun _ hnumber => absurd hnumber (Finset.notMem_empty _)

variable {table : HandleTable Owner} {owner other : Owner} {number : Nat}

/-- A number that is held is lost exactly when its holder will not close it. -/
theorem Sound.held_mem_lost_iff (hsound : table.Sound) (hheld : table.held owner = some number) :
    number ∈ table.lost ↔ table.closes owner ≠ true := by
  rw [mem_lost]
  constructor
  · rintro ⟨-, hunclaimed⟩ hcloses
    exact hunclaimed ⟨owner, hheld, hcloses⟩
  · refine fun hcloses => ⟨hsound.opened owner number hheld, ?_⟩
    rintro ⟨holder, hholder, hclaims⟩
    rw [hsound.single holder owner number hholder hheld] at hclaims
    exact hcloses hclaims

/-- What an object forgets is lost with what has been lost. -/
def Forgets (table : HandleTable Owner) (owner : Owner) (next : HandleTable Owner) : Prop :=
  ∀ number, number ∈ next.lost ↔ number ∈ table.lost ∨ table.held owner = some number

/-- Either nothing more is lost, or the step leaks and one number more is. -/
def Loses (table : HandleTable Owner) (leaks : Prop) (next : HandleTable Owner) : Prop :=
  ¬ leaks ∧ next.lost = table.lost ∨
    leaks ∧ ∃ number, number ∉ table.lost ∧ next.lost = insert number table.lost

/-- To forget a number leaks if it would have been closed. -/
theorem Forgets.loses {next : HandleTable Owner} {leaks : Prop}
    (hforgets : table.Forgets owner next) (hsound : table.Sound)
    (hleaks : leaks ↔ table.held owner ≠ none ∧ table.closes owner = true) :
    table.Loses leaks next := by
  cases hheld : table.held owner with
  | none =>
      refine .inl ⟨fun hleak => (hleaks.mp hleak).1 hheld, Finset.ext fun kept => ?_⟩
      rw [hforgets, hheld]
      exact or_iff_left (Option.some_ne_none kept).symm
  | some number =>
      have hnext : next.lost = insert number table.lost := by
        ext kept
        rw [hforgets, hheld, Finset.mem_insert, Option.some_inj, or_comm, eq_comm]
      have hlost := hsound.held_mem_lost_iff hheld
      by_cases hcloses : table.closes owner = true
      · refine .inr ⟨hleaks.mpr ⟨hheld ▸ Option.some_ne_none number, hcloses⟩, number, ?_, hnext⟩
        exact fun hmem => hlost.mp hmem hcloses
      · refine .inl ⟨fun hleak => hcloses (hleaks.mp hleak).2, hnext.trans ?_⟩
        exact Finset.insert_eq_of_mem (hlost.mpr hcloses)

variable [DecidableEq Owner]

/-- The kernel gives a number to an object, which forgets the one that it held. -/
def give (table : HandleTable Owner) (owner : Owner) (number : Nat) : HandleTable Owner where
  opened := insert number table.opened
  held := Function.update table.held owner (some number)
  closes := Function.update table.closes owner true

/-- An object forgets its number. -/
def drop (table : HandleTable Owner) (owner : Owner) : HandleTable Owner :=
  { table with
    held := Function.update table.held owner none
    closes := Function.update table.closes owner false }

/-- An object closes its number. -/
def shut (table : HandleTable Owner) (owner : Owner) (number : Nat) : HandleTable Owner :=
  { table.drop owner with opened := table.opened.erase number }

/-- An object keeps its number, but will not close it. -/
def disown (table : HandleTable Owner) (owner : Owner) : HandleTable Owner :=
  { table with closes := Function.update table.closes owner false }

/-- An object hands its number to another one, which will close it. -/
def pass (table : HandleTable Owner) (owner other : Owner) : HandleTable Owner :=
  { table with
    held := Function.update (Function.update table.held other (table.held owner)) owner none
    closes := Function.update (Function.update table.closes other true) owner false }

theorem update_held_eq_some {value : Option Nat} :
    Function.update table.held owner value other = some number ↔
      other = owner ∧ value = some number ∨ other ≠ owner ∧ table.held other = some number := by
  rw [Function.update_apply]
  by_cases hother : other = owner
  · simp [hother]
  · simp [hother]

/-! ## Giving out -/

theorem Sound.give (hsound : table.Sound) (hnew : number ∉ table.opened) (owner : Owner) :
    (table.give owner number).Sound := by
  have hother : ∀ holder, table.held holder ≠ some number :=
    fun holder hholder => hnew (hsound.opened holder number hholder)
  constructor
  · intro holder held hheld
    rcases update_held_eq_some.mp hheld with ⟨-, hsame⟩ | ⟨-, hheld⟩
    · cases hsame
      exact Finset.mem_insert_self _ _
    · exact Finset.mem_insert_of_mem (hsound.opened holder held hheld)
  · intro first second held hfirst hsecond
    rcases update_held_eq_some.mp hfirst with ⟨rfl, hsame⟩ | ⟨-, hfirst⟩
    · cases hsame
      rcases update_held_eq_some.mp hsecond with ⟨rfl, -⟩ | ⟨-, hsecond⟩
      · rfl
      · exact absurd hsecond (hother second)
    · rcases update_held_eq_some.mp hsecond with ⟨-, hsame⟩ | ⟨-, hsecond⟩
      · cases hsame
        exact absurd hfirst (hother first)
      · exact hsound.single first second held hfirst hsecond

/-! ## Forgetting and disowning -/

theorem Sound.drop (hsound : table.Sound) (owner : Owner) : (table.drop owner).Sound := by
  have hkept : ∀ {holder number}, (table.drop owner).held holder = some number →
      table.held holder = some number := by
    intro holder number hheld
    rcases update_held_eq_some.mp hheld with ⟨-, hsame⟩ | ⟨-, hheld⟩
    · cases hsame
    · exact hheld
  exact ⟨fun holder number hheld => hsound.opened holder number (hkept hheld),
    fun first second number hfirst hsecond =>
      hsound.single first second number (hkept hfirst) (hkept hsecond)⟩

theorem Sound.disown (hsound : table.Sound) (owner : Owner) : (table.disown owner).Sound :=
  ⟨hsound.opened, hsound.single⟩

/-! ## Closing -/

theorem Sound.shut (hsound : table.Sound) (hheld : table.held owner = some number) :
    (table.shut owner number).Sound := by
  refine ⟨?_, (hsound.drop owner).single⟩
  intro holder kept hholder
  rcases update_held_eq_some.mp hholder with ⟨-, hsame⟩ | ⟨hne, hkept⟩
  · cases hsame
  · refine Finset.mem_erase.mpr ⟨?_, hsound.opened holder kept hkept⟩
    -- the number of another holder is another one
    rintro rfl
    exact hne (hsound.single holder owner kept hkept hheld)

/-! ## Handing over -/

theorem pass_held_eq_some {holder : Owner} (hne : other ≠ owner) :
    (table.pass owner other).held holder = some number ↔
      holder = other ∧ table.held owner = some number ∨
        holder ≠ owner ∧ holder ≠ other ∧ table.held holder = some number := by
  rw [pass]
  dsimp only
  rw [Function.update_apply, Function.update_apply]
  by_cases howner : holder = owner
  · subst howner
    simp [hne.symm]
  · by_cases hother : holder = other
    · simp [hother, hne]
    · simp [howner, hother]

theorem Sound.pass (hsound : table.Sound) (hne : other ≠ owner) :
    (table.pass owner other).Sound := by
  constructor
  · intro holder held hheld
    rcases (pass_held_eq_some hne).mp hheld with ⟨-, hheld⟩ | ⟨-, -, hheld⟩
    · exact hsound.opened owner held hheld
    · exact hsound.opened holder held hheld
  · intro first second held hfirst hsecond
    rcases (pass_held_eq_some hne).mp hfirst with ⟨rfl, hpassed⟩ | ⟨howner, -, hkept⟩
    · rcases (pass_held_eq_some hne).mp hsecond with ⟨rfl, -⟩ | ⟨howner, -, hkept⟩
      · rfl
      · exact absurd (hsound.single second owner held hkept hpassed) howner
    · rcases (pass_held_eq_some hne).mp hsecond with ⟨rfl, hpassed⟩ | ⟨-, -, hsecond⟩
      · exact absurd (hsound.single first owner held hkept hpassed) howner
      · exact hsound.single first second held hkept hsecond

/-! ## What is lost -/

/-- One object changes what it holds, or whether it will close it. -/
theorem Sound.claimed_update (hsound : table.Sound) {opened : Finset Nat} {value : Option Nat}
    {closes : Bool} :
    Claimed ⟨opened, Function.update table.held owner value,
        Function.update table.closes owner closes⟩ number ↔
      value = some number ∧ closes = true ∨
        table.Claimed number ∧ table.held owner ≠ some number := by
  constructor
  · rintro ⟨holder, hheld, hcloses⟩
    dsimp only at hheld hcloses
    by_cases hholder : holder = owner
    · rw [hholder, Function.update_self] at hheld hcloses
      exact .inl ⟨hheld, hcloses⟩
    · rw [Function.update_of_ne hholder] at hheld hcloses
      refine .inr ⟨⟨holder, hheld, hcloses⟩, ?_⟩
      exact fun howner => hholder (hsound.single holder owner number hheld howner)
  · rintro (⟨hvalue, hcloses⟩ | ⟨⟨holder, hheld, hcloses⟩, hother⟩)
    · exact ⟨owner, (Function.update_self ..).trans hvalue, (Function.update_self ..).trans hcloses⟩
    · have hholder : holder ≠ owner := by
        rintro rfl
        exact hother hheld
      exact ⟨holder, (Function.update_of_ne hholder ..).trans hheld,
        (Function.update_of_ne hholder ..).trans hcloses⟩

theorem Sound.give_forgets (hsound : table.Sound) (hnew : number ∉ table.opened) (owner : Owner) :
    table.Forgets owner (table.give owner number) := by
  intro kept
  have hopened : table.held owner = some kept → kept ∈ table.opened := hsound.opened owner kept
  have hfresh : kept ∈ table.opened → number ≠ kept := by
    rintro hkept rfl
    exact hnew hkept
  rw [mem_lost, mem_lost, HandleTable.give, hsound.claimed_update, Finset.mem_insert, Option.some_inj]
  constructor
  · rintro ⟨rfl | hkept, hunclaimed⟩
    · exact absurd (.inl ⟨rfl, rfl⟩) hunclaimed
    · by_cases hheld : table.held owner = some kept
      · exact .inr hheld
      · exact .inl ⟨hkept, fun hclaimed => hunclaimed (.inr ⟨hclaimed, hheld⟩)⟩
  · rintro (⟨hkept, hunclaimed⟩ | hheld)
    · refine ⟨.inr hkept, ?_⟩
      rintro (⟨hsame, -⟩ | ⟨hclaimed, -⟩)
      · exact hfresh hkept hsame
      · exact hunclaimed hclaimed
    · refine ⟨.inr (hopened hheld), ?_⟩
      rintro (⟨hsame, -⟩ | ⟨-, hother⟩)
      · exact hfresh (hopened hheld) hsame
      · exact hother hheld

/-- An object that will not close anything. -/
theorem Sound.quit_forgets (hsound : table.Sound) (owner : Owner) {value : Option Nat} :
    table.Forgets owner ⟨table.opened, Function.update table.held owner value,
      Function.update table.closes owner false⟩ := by
  intro kept
  have hopened : table.held owner = some kept → kept ∈ table.opened := hsound.opened owner kept
  rw [mem_lost, mem_lost, hsound.claimed_update]
  constructor
  · rintro ⟨hkept, hunclaimed⟩
    by_cases hheld : table.held owner = some kept
    · exact .inr hheld
    · exact .inl ⟨hkept, fun hclaimed => hunclaimed (.inr ⟨hclaimed, hheld⟩)⟩
  · rintro (⟨hkept, hunclaimed⟩ | hheld)
    · refine ⟨hkept, ?_⟩
      rintro (⟨-, hcloses⟩ | ⟨hclaimed, -⟩)
      · cases hcloses
      · exact hunclaimed hclaimed
    · refine ⟨hopened hheld, ?_⟩
      rintro (⟨-, hcloses⟩ | ⟨-, hother⟩)
      · cases hcloses
      · exact hother hheld

theorem Sound.disown_forgets (hsound : table.Sound) (owner : Owner) :
    table.Forgets owner (table.disown owner) := by
  have hdisown : table.disown owner = ⟨table.opened,
      Function.update table.held owner (table.held owner),
      Function.update table.closes owner false⟩ := by
    rw [Function.update_eq_self]
    rfl
  rw [hdisown]
  exact hsound.quit_forgets owner

theorem Sound.lost_shut (hsound : table.Sound) (hheld : table.held owner = some number)
    (hcloses : table.closes owner = true) : (table.shut owner number).lost = table.lost := by
  have hclaimed : table.Claimed number := ⟨owner, hheld, hcloses⟩
  ext kept
  rw [mem_lost, mem_lost, HandleTable.shut, HandleTable.drop]
  dsimp only
  rw [hsound.claimed_update, Finset.mem_erase, hheld]
  constructor
  · rintro ⟨⟨hne, hkept⟩, hunclaimed⟩
    refine ⟨hkept, fun hclaimed => hunclaimed (.inr ⟨hclaimed, ?_⟩)⟩
    exact fun hsame => hne (Option.some_inj.mp hsame).symm
  · rintro ⟨hkept, hunclaimed⟩
    refine ⟨⟨?_, hkept⟩, ?_⟩
    · rintro rfl
      exact hunclaimed hclaimed
    · rintro (⟨hnone, -⟩ | ⟨hclaimed, -⟩)
      · cases hnone
      · exact hunclaimed hclaimed

theorem claimed_pass (hne : other ≠ owner) (hnone : table.held other = none)
    (hcloses : table.closes owner = true) :
    (table.pass owner other).Claimed number ↔ table.Claimed number := by
  have hkept : ∀ {holder}, holder ≠ owner → holder ≠ other →
      (table.pass owner other).closes holder = table.closes holder := fun howner hother =>
    (Function.update_of_ne howner ..).trans (Function.update_of_ne hother ..)
  have hgiven : (table.pass owner other).closes other = true :=
    (Function.update_of_ne hne ..).trans (Function.update_self ..)
  constructor
  · rintro ⟨holder, hheld, hholder⟩
    rcases (pass_held_eq_some hne).mp hheld with ⟨-, hpassed⟩ | ⟨howner, hother, hsame⟩
    · exact ⟨owner, hpassed, hcloses⟩
    · exact ⟨holder, hsame, hkept howner hother ▸ hholder⟩
  · rintro ⟨holder, hheld, hholder⟩
    by_cases howner : holder = owner
    · rw [howner] at hheld
      exact ⟨other, (pass_held_eq_some hne).mpr (.inl ⟨rfl, hheld⟩), hgiven⟩
    · have hother : holder ≠ other := by
        rintro rfl
        rw [hnone] at hheld
        cases hheld
      exact ⟨holder, (pass_held_eq_some hne).mpr (.inr ⟨howner, hother, hheld⟩),
        (hkept howner hother).trans hholder⟩

theorem lost_pass (hne : other ≠ owner) (hnone : table.held other = none)
    (hcloses : table.closes owner = true) : (table.pass owner other).lost = table.lost := by
  ext kept
  rw [mem_lost, mem_lost, claimed_pass hne hnone hcloses]
  rfl

/-! ## Systems -/

/-- What a step does to a table. It leaks if an object forgets a number, or will not close
it any more, that it would have closed. -/
inductive Turn (table : HandleTable Owner) (leaks : Prop) : HandleTable Owner → Prop where
  | same (hkept : ¬ leaks) : Turn table leaks table
  | give (owner : Owner) (number : Nat) (hnew : number ∉ table.opened)
      (hleaks : leaks ↔ table.held owner ≠ none ∧ table.closes owner = true) :
      Turn table leaks (table.give owner number)
  | drop (owner : Owner)
      (hleaks : leaks ↔ table.held owner ≠ none ∧ table.closes owner = true) :
      Turn table leaks (table.drop owner)
  | disown (owner : Owner)
      (hleaks : leaks ↔ table.held owner ≠ none ∧ table.closes owner = true) :
      Turn table leaks (table.disown owner)
  | shut (owner : Owner) (number : Nat) (hheld : table.held owner = some number)
      (hcloses : table.closes owner = true) (hkept : ¬ leaks) :
      Turn table leaks (table.shut owner number)
  | pass (owner other : Owner) (hne : other ≠ owner) (hnone : table.held other = none)
      (hcloses : table.closes owner = true) (hkept : ¬ leaks) :
      Turn table leaks (table.pass owner other)
  /-- What has been handed over is replaced at once. -/
  | replace (owner other : Owner) (number : Nat) (hne : other ≠ owner)
      (hnone : table.held other = none) (hcloses : table.closes owner = true)
      (hnew : number ∉ table.opened) (hkept : ¬ leaks) :
      Turn table leaks ((table.pass owner other).give owner number)

namespace Turn

variable {next : HandleTable Owner} {leaks : Prop}

theorem sound (hturn : Turn table leaks next) (hsound : table.Sound) : next.Sound := by
  cases hturn with
  | same => exact hsound
  | give owner number hnew => exact hsound.give hnew owner
  | drop owner => exact hsound.drop owner
  | disown owner => exact hsound.disown owner
  | shut owner number hheld => exact hsound.shut hheld
  | pass owner other hne => exact hsound.pass hne
  | replace owner other number hne _ _ hnew => exact (hsound.pass hne).give hnew owner

theorem loses (hturn : Turn table leaks next) (hsound : table.Sound) :
    table.Loses leaks next := by
  cases hturn with
  | same hkept => exact .inl ⟨hkept, rfl⟩
  | give owner number hnew hleaks => exact (hsound.give_forgets hnew owner).loses hsound hleaks
  | drop owner hleaks => exact (hsound.quit_forgets owner).loses hsound hleaks
  | disown owner hleaks => exact (hsound.disown_forgets owner).loses hsound hleaks
  | shut owner number hheld hcloses hkept => exact .inl ⟨hkept, hsound.lost_shut hheld hcloses⟩
  | pass owner other hne hnone hcloses hkept => exact .inl ⟨hkept, lost_pass hne hnone hcloses⟩
  | replace owner other number hne hnone hcloses hnew hkept =>
      refine .inl ⟨hkept, Eq.trans ?_ (lost_pass hne hnone hcloses)⟩
      ext kept
      -- what has been handed over has left nothing to forget
      have hempty : (table.pass owner other).held owner = none := Function.update_self ..
      rw [(hsound.pass hne).give_forgets hnew owner kept, hempty]
      exact or_iff_left (Option.some_ne_none kept).symm

theorem accounted_iff (hturn : Turn table leaks next) (hsound : table.Sound)
    (haccounted : table.Accounted) : next.Accounted ↔ ¬ leaks := by
  rw [accounted_iff_lost] at haccounted ⊢
  rcases hturn.loses hsound with ⟨hkept, hlost⟩ | ⟨hleaks, number, -, hlost⟩
  · exact iff_of_true (hlost.trans haccounted) hkept
  · rw [hlost]
    exact iff_of_false (Finset.insert_ne_empty _ _) (not_not.mpr hleaks)

end Turn

section Systems

open Transition

universe uState uEvent

variable {State : Type uState} {Event : Type uEvent} {step : State → Event → Option State}

/-- A system whose steps act on a table by turns, as long as `inv` holds. -/
structure Turns (step : State → Event → Option State) (inv : State → Prop)
    (view : State → HandleTable Owner) (leaks : State → Event → Prop) : Prop where
  keeps : ∀ state event next, inv state → step state event = some next → inv next
  turns : ∀ state event next, inv state → step state event = some next →
    Turn (view state) (leaks state event) (view next)

namespace Turns

variable {inv : State → Prop} {view : State → HandleTable Owner} {leaks : State → Event → Prop}

theorem throughout_sound (hturns : Turns step inv view leaks) (first : State)
    (events : List Event) (hinv : inv first) (hsound : (view first).Sound) :
    Throughout step (fun state => (view state).Sound) first events := by
  refine throughout_of_guarded (fun state => inv state ∧ (view state).Sound)
    (fun state hstate => hstate.2) ?_ ⟨hinv, hsound⟩ (guarded_true first events)
  rintro state event next ⟨hstate, hsound⟩ - hstep
  exact ⟨hturns.keeps _ _ _ hstate hstep, (hturns.turns _ _ _ hstate hstep).sound hsound⟩

/-- Every number is accounted for throughout a run exactly when no step of it leaks. -/
theorem throughout_accounted_iff (hturns : Turns step inv view leaks) (first : State)
    (events : List Event) (hinv : inv first) (hsound : (view first).Sound)
    (haccounted : (view first).Accounted) :
    Throughout step (fun state => (view state).Accounted) first events ↔
      Guarded step (fun state event => ¬ leaks state event) first events := by
  apply throughout_iff_guarded
    (fun state => inv state ∧ (view state).Sound ∧ (view state).Accounted)
  · exact fun state hstate => hstate.2.2
  · rintro state event next ⟨hstate, hsound, haccounted⟩ hquiet hstep
    have hturn := hturns.turns _ _ _ hstate hstep
    exact ⟨hturns.keeps _ _ _ hstate hstep, hturn.sound hsound,
      (hturn.accounted_iff hsound haccounted).mpr hquiet⟩
  · rintro state event next ⟨hstate, hsound, haccounted⟩ hleaks hstep hnext
    exact hleaks (((hturns.turns _ _ _ hstate hstep).accounted_iff hsound haccounted).mp hnext)
  · exact ⟨hinv, hsound, haccounted⟩

/-- Each step that leaks loses one number, for good. -/
theorem card_lost (hturns : Turns step inv view leaks) {first last : State}
    {events : List Event} (hinv : inv first) (hsound : (view first).Sound)
    (hrun : run step first events = some last) :
    (view last).lost.card = (view first).lost.card + countAlong step leaks first events := by
  induction events generalizing first with
  | nil =>
      cases hrun
      rfl
  | cons event rest ih =>
      obtain ⟨next, hnext, hrest⟩ := run_cons_eq_some.mp hrun
      have hturn := hturns.turns first event next hinv hnext
      rw [ih (hturns.keeps first event next hinv hnext) (hturn.sound hsound) hrest]
      rcases hturn.loses hsound with ⟨hkept, hlost⟩ | ⟨hleaks, number, hnew, hlost⟩
      · rw [countAlong_cons_of_neg hnext hkept, hlost]
      · rw [countAlong_cons_of_pos hnext hleaks, hlost, Finset.card_insert_of_notMem hnew,
          Nat.add_assoc]

end Turns

end Systems

end HandleTable
