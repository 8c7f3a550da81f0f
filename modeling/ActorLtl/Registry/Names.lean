/-
# Interning several names

`internAll` interns names one after the other.  What that does to the list of names is
`newNames`: of the names that come in, those that are not known, each where it is met first.
The list of names only ever grows at its end (`nameList_internAll`), so whatever has a number
keeps it.
-/

import ActorLtl.Registry

namespace ActorLtl

/-- The names of a list that are not known, each once, in the order in which they are met. -/
def newNames (known : List String) : List String → List String
  | [] => []
  | name :: names =>
      if name ∈ known then newNames known names
      else name :: newNames (known ++ [name]) names

/-- **Nothing is lost:** afterwards every name of the list is known. -/
theorem mem_newNames_iff {name : String} {known names : List String} :
    name ∈ known ++ newNames known names ↔ name ∈ known ∨ name ∈ names := by
  induction names generalizing known with
  | nil => simp [newNames]
  | cons first names ih =>
    unfold newNames
    split
    · rw [ih]
      constructor
      · rintro (h | h)
        · exact .inl h
        · exact .inr (List.mem_cons_of_mem _ h)
      · rintro (h | h)
        · exact .inl h
        · rcases List.mem_cons.1 h with rfl | h
          · exact .inl ‹_›
          · exact .inr h
    · have := @ih (known ++ [first])
      rw [List.append_assoc, List.singleton_append] at this
      rw [this]
      simp only [List.mem_append, List.mem_cons, List.not_mem_nil, or_false]
      exact or_assoc

/-- **New names are the first occurrences** of those that are not known. -/
theorem newNames_eq_eraseDups (known names : List String) :
    newNames known names = (names.filter (· ∉ known)).eraseDups := by
  induction names generalizing known with
  | nil => rfl
  | cons first names ih =>
    unfold newNames
    split
    · rename_i mem
      rw [ih, List.filter_cons_of_neg (by simpa using mem)]
    · rename_i new
      rw [ih, List.filter_cons_of_pos (by simpa using new), List.eraseDups_cons, List.filter_filter]
      -- After the first, a name is new if it was new before and is another one.
      congr 2
      apply List.filter_congr
      intro name _
      rw [Bool.eq_iff_iff]
      simp [and_comm]

namespace Registry

/-- Interns names one after the other. -/
def internAll (r : Registry) (names : List String) : Registry :=
  names.foldl (fun r name => (r.intern name).2) r

@[simp] theorem internAll_nil (r : Registry) : r.internAll [] = r := rfl

@[simp] theorem internAll_cons (r : Registry) (name : String) (names : List String) :
    r.internAll (name :: names) = (r.intern name).2.internAll names := rfl

theorem internAll_append (r : Registry) (names more : List String) :
    r.internAll (names ++ more) = (r.internAll names).internAll more := by
  simp [internAll]

/-- **Interning appends the names that are new.** -/
theorem nameList_internAll (r : Registry) (names : List String) :
    (r.internAll names).nameList = r.nameList ++ newNames r.nameList names := by
  induction names generalizing r with
  | nil => simp [newNames]
  | cons name names ih =>
    rw [internAll_cons, ih]
    by_cases h : name ∈ r.nameList
    · cases found : r.lookup? name with
      | none => exact absurd h (lookup?_eq_none_iff.1 found)
      | some index => simp [intern_of_lookup? found, newNames, h]
    · simp [(intern_of_not_mem h).2, newNames, h]

end Registry
end ActorLtl
