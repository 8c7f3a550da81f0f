/-
# The registry of atomic propositions

Propositions have names in the property file and numbers in formulas.  A registry gives out
the numbers `0, 1, 2, …` in the order in which names are first met, and gives a name the
number it already has.  It keeps the names by number and, for quick look-up, the numbers by
name; the two always agree, and no name stands twice (`names_nodup`).
-/

import Std.Data.HashMap

namespace ActorLtl

/-- The names of the atomic propositions met so far, with their numbers. -/
structure Registry where
  /-- The names, each at its own number. -/
  names : Array String
  /-- The number of each name. -/
  indices : Std.HashMap String Nat
  /-- Name and number determine each other. -/
  indices_iff : ∀ (name : String) (index : Nat),
    indices[name]? = some index ↔ names[index]? = some name

namespace Registry

/-- The registry that has met no name. -/
def empty : Registry where
  names := #[]
  indices := ∅
  indices_iff := by simp

instance : Inhabited Registry := ⟨empty⟩
instance : EmptyCollection Registry := ⟨empty⟩

/-- The number of a name, if the name has been met. -/
def lookup? (r : Registry) (name : String) : Option Nat := r.indices[name]?

/-- How many names have been met; also the number the next new name gets. -/
def size (r : Registry) : Nat := r.names.size

/-- Whether no name has been met. -/
def isEmpty (r : Registry) : Bool := r.names.isEmpty

/-- The names in the order of their numbers. -/
def nameList (r : Registry) : List String := r.names.toList

/-- Forgets every name; the next one gets number 0. -/
def reset (_ : Registry) : Registry := empty

theorem lookup?_eq_some_iff {r : Registry} {name : String} {index : Nat} :
    r.lookup? name = some index ↔ r.names[index]? = some name :=
  r.indices_iff name index

/-- **A name is unknown exactly if it is not listed.** -/
theorem lookup?_eq_none_iff {r : Registry} {name : String} :
    r.lookup? name = none ↔ name ∉ r.nameList := by
  constructor
  · intro h mem
    obtain ⟨index, hi, he⟩ := List.getElem_of_mem mem
    have : r.lookup? name = some index := by
      rw [lookup?_eq_some_iff, ← he]; simp [nameList]
    simp [h] at this
  · intro h
    cases found : r.lookup? name with
    | none => rfl
    | some index =>
      rw [lookup?_eq_some_iff] at found
      exact absurd (by simpa [nameList] using Array.mem_of_getElem? found) h

/-- **No name is listed twice.** -/
theorem names_nodup (r : Registry) : r.nameList.Nodup := by
  rw [List.nodup_iff_pairwise_ne, List.pairwise_iff_getElem]
  intro i j hi hj hij same
  have one : r.lookup? (r.nameList[i]) = some i := by
    rw [lookup?_eq_some_iff]; simp [nameList]
  have two : r.lookup? (r.nameList[j]) = some j := by
    rw [lookup?_eq_some_iff]; simp [nameList]
  rw [same, two] at one
  have := Option.some.inj one
  omega

/-- Adds a name that has not been met. -/
def add (r : Registry) (name : String) (new : r.lookup? name = none) : Registry where
  names := r.names.push name
  indices := r.indices.insert name r.names.size
  indices_iff := by
    intro other index
    rw [Std.HashMap.getElem?_insert, Array.getElem?_push]
    have known := r.indices_iff other index
    have unknown : ∀ i, r.names[i]? ≠ some name := fun i h => by
      have := lookup?_eq_some_iff.2 h
      simp [new] at this
    by_cases same : name = other
    · subst same
      simp only [BEq.rfl, ite_true, Option.some.injEq]
      constructor
      · rintro rfl; simp
      · intro h
        split at h
        · simp_all
        · exact absurd h (unknown index)
    · simp only [beq_iff_eq, same, ite_false]
      rw [known]
      constructor
      · intro h
        rw [if_neg]
        · exact h
        · rintro rfl; simp at h
      · intro h
        split at h
        · simp_all
        · exact h

/-- The number of a name, a new one if the name has not been met, and the registry that
knows it. -/
def intern (r : Registry) (name : String) : Nat × Registry :=
  match h : r.lookup? name with
  | some index => (index, r)
  | none => (r.size, r.add name h)

/-- **Interning a known name changes nothing.** -/
theorem intern_of_lookup? {r : Registry} {name : String} {index : Nat}
    (h : r.lookup? name = some index) : r.intern name = (index, r) := by
  unfold intern
  split <;> simp_all

/-- **Interning a new name appends it.** -/
theorem intern_of_not_mem {r : Registry} {name : String} (h : name ∉ r.nameList) :
    (r.intern name).1 = r.size ∧ (r.intern name).2.nameList = r.nameList ++ [name] := by
  have new := lookup?_eq_none_iff.2 h
  unfold intern
  split
  · simp_all
  · simp [add, nameList]

/-- **The number that interning gives is the number of the name afterwards.** -/
theorem lookup?_intern (r : Registry) (name : String) :
    (r.intern name).2.lookup? name = some (r.intern name).1 := by
  cases h : r.lookup? name with
  | some index => simp [intern_of_lookup? h, h]
  | none =>
    unfold intern
    split
    · simp_all
    · simp [lookup?, add, size]

/-- **Interning keeps the names and appends at most one.** -/
theorem nameList_prefix_intern (r : Registry) (name : String) :
    r.nameList <+: (r.intern name).2.nameList := by
  by_cases h : name ∈ r.nameList
  · cases found : r.lookup? name with
    | none => exact absurd h (lookup?_eq_none_iff.1 found)
    | some index => simp [intern_of_lookup? found]
  · rw [(intern_of_not_mem h).2]; exact List.prefix_append ..

end Registry
end ActorLtl
