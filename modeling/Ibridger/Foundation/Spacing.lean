import Mathlib.Data.List.ReduceOption

/-! # Fillers between the entries of a list

A list whose entries have marked places between them. Without the marks it is
the plain list; with a filler at every mark it is the filled one.
-/

namespace Spacing

universe u

variable {Entry : Type u}

def plain (spaced : List (Option Entry)) : List Entry :=
  spaced.reduceOption

def filled (filler : Entry) (spaced : List (Option Entry)) : List Entry :=
  spaced.map fun slot => slot.getD filler

variable {spaced : List (Option Entry)} {filler entry : Entry}

@[simp] theorem plain_nil : plain ([] : List (Option Entry)) = [] := rfl

@[simp] theorem plain_cons_some : plain (some entry :: spaced) = entry :: plain spaced :=
  List.reduceOption_cons_of_some _ _

@[simp] theorem plain_cons_none : plain (none :: spaced) = plain spaced :=
  List.reduceOption_cons_of_none _

@[simp] theorem filled_nil : filled filler [] = [] := rfl

@[simp] theorem filled_cons_some :
    filled filler (some entry :: spaced) = entry :: filled filler spaced := rfl

@[simp] theorem filled_cons_none :
    filled filler (none :: spaced) = filler :: filled filler spaced := rfl

/-- Fillers keep a property that the entries and the filler have. -/
theorem forall_mem_filled {property : Entry → Prop} (hfiller : property filler)
    (hplain : ∀ entry ∈ plain spaced, property entry) :
    ∀ entry ∈ filled filler spaced, property entry := by
  intro entry hentry
  obtain ⟨slot, hslot, rfl⟩ := List.mem_map.mp hentry
  cases slot with
  | none => exact hfiller
  | some entry => exact hplain entry (List.reduceOption_mem_iff.mpr hslot)

/-- Up to the first filler, the entries are where they were. -/
theorem getElem?_filled (filler : Entry) {r : Nat} (hnone : none ∉ spaced.take (r + 1)) :
    (filled filler spaced)[r]? = (plain spaced)[r]? := by
  induction spaced generalizing r with
  | nil => rfl
  | cons slot spaced ih =>
      cases slot with
      | none => exact absurd List.mem_cons_self hnone
      | some entry =>
          rw [filled_cons_some, plain_cons_some]
          cases r with
          | zero => rfl
          | succ r =>
              apply ih
              exact fun hmem => hnone (List.mem_cons_of_mem _ hmem)

/-- Behind a filler comes another filler or an entry that had been further in front. -/
theorem getElem?_filled_of_mem {r : Nat} (hnone : none ∈ spaced.take (r + 1))
    (hentry : (filled filler spaced)[r]? = some entry) :
    entry = filler ∨ ∃ k < r, (plain spaced)[k]? = some entry := by
  induction spaced generalizing r with
  | nil => cases hentry
  | cons slot spaced ih =>
      cases slot with
      | some first =>
          rw [plain_cons_some]
          cases r with
          | zero => cases List.mem_singleton.mp hnone
          | succ r =>
              obtain hfirst | hlater := List.mem_cons.mp hnone
              · cases hfirst
              · rcases ih hlater hentry with rfl | ⟨k, hk, hplain⟩
                · exact .inl rfl
                · exact .inr ⟨k + 1, Nat.succ_lt_succ hk, hplain⟩
      | none =>
          rw [plain_cons_none]
          cases r with
          | zero => exact .inl (Option.some_inj.mp hentry).symm
          | succ r =>
              by_cases hlater : none ∈ spaced.take (r + 1)
              · rcases ih hlater hentry with rfl | ⟨k, hk, hplain⟩
                · exact .inl rfl
                · exact .inr ⟨k, Nat.lt_succ_of_lt hk, hplain⟩
              · refine .inr ⟨r, Nat.lt_succ_self r, ?_⟩
                rw [← getElem?_filled filler hlater]
                exact hentry

end Spacing
