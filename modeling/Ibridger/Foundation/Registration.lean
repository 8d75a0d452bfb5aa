import Mathlib.Data.Finmap

/-! # Registrations

Values are registered under keys, one after the other. Either the first registration under
a key counts, and a table refuses the later ones, or the last one counts and replaces the
others.
-/

namespace Registration

universe uKey uValue uEvent

variable {Key : Type uKey} {Value : Type uValue} {Event : Type uEvent} [DecidableEq Key]

/-- What an event registers under a key. -/
def under (registers : Event → Option (Key × Value)) (key : Key) (event : Event) :
    Option Value :=
  (registers event).bind fun entry => if entry.1 = key then some entry.2 else none

/-- What the first registration under a key registers. -/
def first (registers : Event → Option (Key × Value)) (key : Key) (events : List Event) :
    Option Value :=
  events.findSome? (under registers key)

/-- What the last registration under a key registers. -/
def last (registers : Event → Option (Key × Value)) (key : Key) (events : List Event) :
    Option Value :=
  events.reverse.findSome? (under registers key)

variable {registers : Event → Option (Key × Value)} {key other : Key} {value : Value}
  {event : Event} {events : List Event} {table : Finmap fun _ : Key => Value}

theorem under_of_none (hevent : registers event = none) : under registers key event = none := by
  rw [under, hevent]
  rfl

theorem under_of_some (hevent : registers event = some (other, value)) :
    under registers key event = if other = key then some value else none := by
  rw [under, hevent]
  rfl

theorem of_under_eq_some (hunder : under registers key event = some value) :
    registers event = some (key, value) := by
  obtain ⟨⟨other, present⟩, hevent, hentry⟩ := Option.bind_eq_some_iff.mp hunder
  rw [Option.ite_none_right_eq_some] at hentry
  obtain ⟨rfl, hpresent⟩ := hentry
  cases hpresent
  exact hevent

theorem first_concat :
    first registers key (events ++ [event]) =
      (first registers key events).or (under registers key event) := by
  rw [first, List.findSome?_append, List.findSome?_singleton]
  rfl

theorem last_concat :
    last registers key (events ++ [event]) =
      (under registers key event).or (last registers key events) := by
  rw [last, List.reverse_concat, List.findSome?_cons]
  cases under registers key event with
  | none => rfl
  | some value => rfl

/-- What counts has been registered. -/
theorem exists_of_last (hlast : last registers key events = some value) :
    ∃ event ∈ events, registers event = some (key, value) := by
  obtain ⟨event, hevent, hunder⟩ := List.exists_of_findSome?_eq_some hlast
  exact ⟨event, List.mem_reverse.mp hevent, of_under_eq_some hunder⟩

/-! ## Tables -/

theorem lookup_insert :
    (table.insert other value).lookup key =
      if other = key then some value else table.lookup key := by
  by_cases hkey : other = key
  · subst hkey
    simp
  · rw [Finmap.lookup_insert_of_ne table (Ne.symm hkey), if_neg hkey]

/-- A new key does not change what is found under the keys of the table. -/
theorem lookup_insert_of_notMem (hother : other ∉ table) :
    (table.insert other value).lookup key =
      (table.lookup key).or (if other = key then some value else none) := by
  rw [lookup_insert]
  by_cases hkey : other = key
  · subst hkey
    rw [Finmap.lookup_eq_none.mpr hother]
    simp
  · simp [hkey]

/-- A key that is taken adds nothing to what is found. -/
theorem lookup_or_of_mem (hother : other ∈ table) :
    (table.lookup key).or (if other = key then some value else none) = table.lookup key := by
  by_cases hkey : other = key
  · subst hkey
    obtain ⟨present, hpresent⟩ := Finmap.mem_iff.mp hother
    rw [hpresent]
    rfl
  · simp [hkey]

/-- Each key of a table has one entry. -/
theorem count_keys (table : Finmap fun _ : Key => Value) (key : Key) :
    (table.entries.map Sigma.fst).count key = if (table.lookup key).isSome then 1 else 0 := by
  have hnodup : (table.entries.map Sigma.fst).Nodup := Multiset.nodup_keys.mpr table.nodupKeys
  have hmem : key ∈ table.entries.map Sigma.fst ↔ (table.lookup key).isSome = true :=
    Finmap.lookup_isSome.symm
  rw [Multiset.count_eq_of_nodup hnodup]
  simp only [hmem]

end Registration
