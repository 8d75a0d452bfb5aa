import Mathlib.Algebra.Ring.Nat
import Mathlib.Data.List.Induction
import Mathlib.Data.List.Nodup
import Mathlib.Data.List.Pairwise

/-! # Objects that hold strings

`metadata` is an object with strings as properties. Its properties have an order, in
which array indices come first, and an assignment to one of them may end at a setter
that the object inherits.
-/

namespace Ibridger.Js

/-- The number that a key is an array index for. -/
def arrayIndex? (key : String) : Option Nat :=
  let index := key.toList.foldl (fun n digit => n * 10 + (digit.toNat - 48)) 0
  if toString index = key ∧ index < 2 ^ 32 - 1 then some index else none

theorem eq_of_arrayIndex? {first second : String} {index : Nat}
    (hfirst : arrayIndex? first = some index) (hsecond : arrayIndex? second = some index) :
    first = second := by
  have hkey : ∀ {key}, arrayIndex? key = some index → toString index = key := by
    intro key hindex
    obtain ⟨⟨hstring, -⟩, heq⟩ := Option.ite_none_right_eq_some.mp hindex
    rwa [← Option.some_inj.mp heq]
  rw [← hkey hfirst, ← hkey hsecond]

/-- Whether a property stands before the other one when that one is added later. -/
def precedes (first second : String) : Bool :=
  match arrayIndex? second, arrayIndex? first with
  | none, _ => true
  | some j, some i => i < j
  | some _, none => false

theorem precedes_trans {first second third : String} (hfirst : precedes first second)
    (hsecond : precedes second third) : precedes first third := by
  unfold precedes at *
  split at hsecond
  next hthird => rw [hthird]
  next k j hthird hj =>
    rw [hj] at hfirst
    rw [hthird]
    split at hfirst
    next hnone => cases hnone
    next j' i hj' hi =>
      cases hj'
      rw [hi]
      simp only [decide_eq_true_eq] at hfirst hsecond ⊢
      omega
    next => cases hfirst
  next => cases hsecond

theorem precedes_of_not {first second : String} (hne : first ≠ second)
    (hnot : ¬ precedes first second) : precedes second first := by
  unfold precedes at *
  split at hnot
  next => exact absurd rfl hnot
  next j i hj hi =>
    rw [hi, hj]
    simp only [decide_eq_true_eq] at hnot ⊢
    have hother : i ≠ j := fun hsame => hne (eq_of_arrayIndex? hi (hsame ▸ hj))
    omega
  next j hj hi => rw [hi]

/-- A new property gets its place among the others. -/
def insertEntry (entry : String × String) : List (String × String) → List (String × String)
  | [] => [entry]
  | first :: rest =>
      if precedes first.1 entry.1 then first :: insertEntry entry rest
      else entry :: first :: rest

theorem insertEntry_perm (entry : String × String) (entries : List (String × String)) :
    (insertEntry entry entries).Perm (entry :: entries) := by
  induction entries with
  | nil => exact .refl _
  | cons first rest ih =>
      rw [insertEntry]
      split
      · exact (ih.cons first).trans (.swap _ _ _)
      · exact .refl _

theorem insertEntry_pairwise {entry : String × String} {entries : List (String × String)}
    (hordered : (entries.map Prod.fst).Pairwise (precedes · ·))
    (hnew : entry.1 ∉ entries.map Prod.fst) :
    ((insertEntry entry entries).map Prod.fst).Pairwise (precedes · ·) := by
  induction entries with
  | nil => exact List.pairwise_singleton _ _
  | cons first rest ih =>
      rw [List.map_cons, List.mem_cons, not_or] at hnew
      obtain ⟨hne, hnew⟩ := hnew
      have hsplit := hordered
      rw [List.map_cons, List.pairwise_cons] at hsplit
      obtain ⟨hbefore, hrest⟩ := hsplit
      rw [insertEntry]
      split
      next hfirst =>
        rw [List.map_cons, List.pairwise_cons]
        refine ⟨?_, ih hrest hnew⟩
        intro key hkey
        rcases List.mem_cons.mp (((insertEntry_perm entry rest).map Prod.fst).mem_iff.mp hkey) with
          rfl | hold
        · exact hfirst
        · exact hbefore key hold
      next hfirst =>
        have hbehind := precedes_of_not (Ne.symm hne) hfirst
        rw [List.map_cons, List.pairwise_cons]
        refine ⟨?_, hordered⟩
        intro key hkey
        rcases List.mem_cons.mp hkey with rfl | hold
        · exact hbehind
        · exact precedes_trans hbehind (hbefore key hold)

theorem insertEntry_of_precedes {entry : String × String} {entries : List (String × String)}
    (hall : ∀ key ∈ entries.map Prod.fst, precedes key entry.1) :
    insertEntry entry entries = entries ++ [entry] := by
  induction entries with
  | nil => rfl
  | cons first rest ih =>
      obtain ⟨hfirst, hrest⟩ := List.forall_mem_cons.mp hall
      rw [insertEntry, if_pos hfirst, ih hrest, List.cons_append]

/-- The own properties of an object, in the order in which `Object.keys` lists them. -/
structure StringRecord where
  entries : List (String × String)
  nodup : (entries.map Prod.fst).Nodup
  ordered : (entries.map Prod.fst).Pairwise (precedes · ·)
deriving DecidableEq

namespace StringRecord

theorem ext {first second : StringRecord} (hentries : first.entries = second.entries) :
    first = second := by
  cases first
  cases second
  cases hentries
  rfl

/-- `{}` -/
def empty : StringRecord := ⟨[], .nil, .nil⟩

def keys (record : StringRecord) : List String :=
  record.entries.map Prod.fst

def get? (record : StringRecord) (key : String) : Option String :=
  record.entries.lookup key

/-- The property of an own key is replaced where it stands. -/
def replace (record : StringRecord) (key value : String) : StringRecord :=
  have hkeys : (record.entries.map fun entry => if entry.1 = key then (key, value) else entry).map
      Prod.fst = record.entries.map Prod.fst := by
    rw [List.map_map]
    apply List.map_congr_left
    intro entry _
    by_cases hsame : entry.1 = key
    · rw [Function.comp_apply, if_pos hsame, hsame]
    · rw [Function.comp_apply, if_neg hsame]
  { entries := record.entries.map fun entry => if entry.1 = key then (key, value) else entry
    nodup := by rw [hkeys]; exact record.nodup
    ordered := by rw [hkeys]; exact record.ordered }

/-- A property is added for a key that is not there. -/
def add (record : StringRecord) (key value : String) (hnew : key ∉ record.keys) : StringRecord where
  entries := insertEntry (key, value) record.entries
  nodup := ((insertEntry_perm (key, value) record.entries).map Prod.fst).nodup_iff.mpr
    (List.nodup_cons.mpr ⟨hnew, record.nodup⟩)
  ordered := insertEntry_pairwise record.ordered hnew

/-- `record[key] = value`. The setter of `__proto__` takes no strings. -/
def set (record : StringRecord) (key value : String) : StringRecord :=
  if key = "__proto__" then record
  else if hmem : key ∈ record.keys then record.replace key value
  else record.add key value hmem

theorem set_of_new {record : StringRecord} {key : String} (value : String)
    (hproto : key ≠ "__proto__") (hnew : key ∉ record.keys) :
    record.set key value = record.add key value hnew := by
  rw [set, if_neg hproto, dif_neg hnew]

/-- The object without one of its properties. -/
def erase (record : StringRecord) (key : String) : StringRecord where
  entries := record.entries.filter fun entry => entry.1 ≠ key
  nodup := record.nodup.sublist (List.filter_sublist.map _)
  ordered := record.ordered.sublist (List.filter_sublist.map _)

theorem erase_of_not_mem {record : StringRecord} {key : String} (hnew : key ∉ record.keys) :
    record.erase key = record := by
  apply ext
  rw [erase, List.filter_eq_self]
  intro entry hentry
  exact decide_eq_true fun hsame => hnew (hsame ▸ List.mem_map_of_mem hentry)

/-- The properties of an object are assigned one after the other to a new one, which gets
all of them but `__proto__`. -/
theorem foldl_set (record : StringRecord) :
    record.entries.foldl (fun other entry => other.set entry.1 entry.2) empty =
      record.erase "__proto__" := by
  obtain ⟨entries, hnodup, hordered⟩ := record
  apply ext
  rw [erase]
  dsimp only
  induction entries using List.reverseRecOn with
  | nil => rfl
  | append_singleton entries entry ih =>
      rw [List.map_append, List.map_singleton] at hnodup hordered
      obtain ⟨hbefore, -, hnew⟩ := List.nodup_append.mp hnodup
      obtain ⟨hsorted, -, hprecedes⟩ := List.pairwise_append.mp hordered
      have hentries := ih hbefore hsorted
      have hsub : (entries.filter fun entry => entry.1 ≠ "__proto__").map Prod.fst ⊆
          entries.map Prod.fst := (List.filter_sublist.map _).subset
      rw [List.foldl_append, List.foldl_cons, List.foldl_nil, List.filter_append]
      generalize entries.foldl (fun other entry => other.set entry.1 entry.2) empty = record
        at hentries
      by_cases hproto : entry.1 = "__proto__"
      · rw [set, if_pos hproto, hentries, List.filter_cons_of_neg (by simpa using hproto),
          List.filter_nil, List.append_nil]
      · have hkeys : record.keys ⊆ entries.map Prod.fst := by
          rw [keys, hentries]
          exact hsub
        have hmem : entry.1 ∉ record.keys :=
          fun hmem => hnew entry.1 (hkeys hmem) entry.1 (List.mem_singleton_self _) rfl
        have hlast : ∀ key ∈ record.keys, precedes key entry.1 :=
          fun key hkey => hprecedes key (hkeys hkey) entry.1 (List.mem_singleton_self _)
        rw [set_of_new entry.2 hproto hmem, List.filter_cons_of_pos (by simpa using hproto),
          List.filter_nil, ← hentries]
        exact insertEntry_of_precedes hlast

theorem get?_eq_some_iff {record : StringRecord} {key value : String} :
    record.get? key = some value ↔ (key, value) ∈ record.entries := by
  rw [get?, List.lookup_eq_some_iff]
  constructor
  · rintro ⟨before, after, hentries, -⟩
    rw [hentries]
    exact List.mem_append_right _ List.mem_cons_self
  · intro hmem
    obtain ⟨before, after, hentries⟩ := List.append_of_mem hmem
    refine ⟨before, after, hentries, ?_⟩
    intro entry hentry
    have hnodup := record.nodup
    rw [hentries, List.map_append, List.map_cons, List.nodup_append] at hnodup
    have hne := hnodup.2.2 entry.1 (List.mem_map_of_mem hentry) key List.mem_cons_self
    simpa using Ne.symm hne

theorem mem_replace {record : StringRecord} {key value : String} (hmem : key ∈ record.keys)
    {entry : String × String} : entry ∈ (record.replace key value).entries ↔
      entry = (key, value) ∨ entry.1 ≠ key ∧ entry ∈ record.entries := by
  constructor
  · intro hentry
    obtain ⟨old, hold, rfl⟩ := List.mem_map.mp hentry
    by_cases hsame : old.1 = key
    · rw [if_pos hsame]
      exact .inl rfl
    · rw [if_neg hsame]
      exact .inr ⟨hsame, hold⟩
  · rintro (rfl | ⟨hne, hold⟩)
    · obtain ⟨old, hold, hsame⟩ := List.mem_map.mp hmem
      exact List.mem_map.mpr ⟨old, hold, if_pos hsame⟩
    · exact List.mem_map.mpr ⟨entry, hold, if_neg hne⟩

theorem mem_set {record : StringRecord} {key value : String} (hproto : key ≠ "__proto__")
    {entry : String × String} : entry ∈ (record.set key value).entries ↔
      entry = (key, value) ∨ entry.1 ≠ key ∧ entry ∈ record.entries := by
  by_cases hmem : key ∈ record.keys
  · rw [set, if_neg hproto, dif_pos hmem]
    exact mem_replace hmem
  · rw [set_of_new value hproto hmem]
    refine ((insertEntry_perm (key, value) record.entries).mem_iff.trans List.mem_cons).trans ?_
    apply or_congr_right
    refine ⟨fun hold => ⟨?_, hold⟩, And.right⟩
    rintro rfl
    exact hmem (List.mem_map_of_mem hold)

/-- An assigned property is found, and the others are not changed. -/
theorem get?_set (record : StringRecord) {key : String} (value : String)
    (hproto : key ≠ "__proto__") (other : String) :
    (record.set key value).get? other = if other = key then some value else record.get? other := by
  apply Option.ext
  intro found
  rw [get?_eq_some_iff, mem_set hproto]
  split
  next hsame => simp [hsame, eq_comm]
  next hne =>
    rw [get?_eq_some_iff]
    simp [hne]

end StringRecord

end Ibridger.Js
