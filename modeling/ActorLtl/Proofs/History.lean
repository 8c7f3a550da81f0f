/-
# What a registry's history tells

A registry knows nothing but the names that have come in since it was last emptied, in the order in
which they came in first (`Registry.run_eq_internAll`).  So the number of a name can be told from
the history alone: it is how many other names had come in when the name came in first (`numberIn`).
As long as the registry is not emptied, more names come in behind those, and no number changes.
-/

import ActorLtl.Proofs.Independence
import ActorLtl.Registry.History
import Mathlib.Data.Finset.Card
import Mathlib.Data.List.Induction
import Mathlib.Data.List.TakeWhile

namespace ActorLtl

/-- How many names stand in a list before a name stands there first; all, if it does not stand
there. -/
def numberIn (names : List String) (name : String) : Nat :=
  (names.takeWhile (· ≠ name)).toFinset.card

theorem numberIn_of_not_mem {names : List String} {name : String} (new : name ∉ names) :
    numberIn names name = names.toFinset.card := by
  have all : names.takeWhile (· ≠ name) = names :=
    List.takeWhile_eq_self_iff.2 fun other mem => by
      simpa using fun same : other = name => new (same ▸ mem)
  rw [numberIn, all]

/-- What comes after the first occurrence does not matter. -/
theorem numberIn_of_split {before after : List String} {name : String} (first : name ∉ before) :
    numberIn (before ++ name :: after) name = before.toFinset.card := by
  have all : ∀ other ∈ before, decide (other ≠ name) = true := fun other mem => by
    simpa using fun same : other = name => first (same ▸ mem)
  rw [numberIn, List.takeWhile_append_of_pos all, List.takeWhile_cons_of_neg (by simp),
    List.append_nil]

namespace Registry

variable {name : String} {names : List String}

/-! ## Names that come into an empty registry -/

theorem mem_nameList_internAll_empty : name ∈ (internAll ∅ names).nameList ↔ name ∈ names := by
  rw [mem_nameList_internAll]
  exact or_iff_right List.not_mem_nil

/-- **A registry holds as many names as have come in,** repetitions apart. -/
theorem size_internAll (names : List String) : (internAll ∅ names).size = names.toFinset.card := by
  have same : (internAll ∅ names).nameList.toFinset = names.toFinset := by
    ext name
    rw [List.mem_toFinset, List.mem_toFinset, mem_nameList_internAll_empty]
  rw [← same, List.toFinset_card_of_nodup (names_nodup _)]
  rfl

/-- **A name has as its number how many had come in before it.** -/
theorem number_internAll (names : List String) (name : String) :
    (internAll ∅ names).number name = numberIn names name := by
  by_cases known : name ∈ names
  · -- Its number is the one it is given at its first occurrence; names behind that do not change it.
    obtain ⟨before, after, rfl, first⟩ := List.eq_append_cons_of_mem known
    have new : name ∉ (internAll ∅ before).nameList := fun mem =>
      first (mem_nameList_internAll_empty.1 mem)
    have later : (internAll ∅ (before ++ name :: after)).Extends
        ((internAll ∅ before).intern name).2 := by
      rw [internAll_append, internAll_cons]
      exact internAll_extends _ after
    rw [numberIn_of_split first, ← number_eq_of_extends_intern later, (intern_of_not_mem new).1,
      size_internAll]
  · have new : name ∉ (internAll ∅ names).nameList := fun mem =>
      known (mem_nameList_internAll_empty.1 mem)
    rw [numberIn_of_not_mem known, number, (intern_of_not_mem new).1, size_internAll]

/-- **A name that has come in is found under its number,** no other is found. -/
theorem lookup?_internAll (names : List String) (name : String) :
    (internAll ∅ names).lookup? name =
      if name ∈ names then some (numberIn names name) else none := by
  split
  · rename_i known
    have listed := getElem?_number (mem_nameList_internAll_empty.2 known)
    rw [number_internAll] at listed
    rw [lookup?_eq_some_iff]
    simpa [nameList] using listed
  · rename_i unknown
    rw [lookup?_eq_none_iff, mem_nameList_internAll_empty]
    exact unknown

/-- **The number of a known name is no other name's,** also not of one that is still to come. -/
theorem number_eq_number_iff {r : Registry} {name' : String} (known : name ∈ r.nameList) :
    r.number name' = r.number name ↔ name' = name := by
  by_cases known' : name' ∈ r.nameList
  · exact number_inj known' known
  · have next : r.number name' = r.nameList.length := (intern_of_not_mem known').1
    rw [next]
    exact ⟨fun same => absurd (number_lt known) (Nat.not_lt.2 (Nat.le_of_eq same)),
      fun same => absurd (same ▸ known) known'⟩

/-! ## Histories -/

/-- **An operation brings its names into a registry,** or empties it. -/
theorem Operation.apply_internAll (op : Operation) (names : List String) :
    op.apply (internAll ∅ names) = internAll ∅ (op.interned names) := by
  cases op with
  | intern name =>
    show _ = internAll ∅ (names ++ [name])
    rw [internAll_append]
    rfl
  | lookup name => rfl
  | reset => rfl
  | convert e =>
    show (e.convert.run (internAll ∅ names)).2 = internAll ∅ (names ++ e.keys)
    rw [Expression.convert_registry, internAll_append]
  | assemble limit d =>
    show ((d.assemble limit).run (internAll ∅ names)).2 = internAll ∅ (if _ then _ else _)
    rw [Definition.assemble_registry, Definition.keys]
    cases d.excessiveDepth? limit with
    | some depth => rfl
    | none => exact (internAll_append ..).symm

/-- **A registry is what has come in since it was last emptied.** -/
theorem run_eq_internAll (history : List Operation) :
    run history = internAll ∅ (interned history) := by
  induction history using List.reverseRecOn with
  | nil => rfl
  | append_singleton history op ih =>
    rw [run_concat, interned_concat, ih, Operation.apply_internAll]

/-- As long as a registry is not emptied, names only come in. -/
theorem exists_interned_append (history : List Operation) {later : List Operation}
    (kept : .reset ∉ later) : ∃ more, interned (history ++ later) = interned history ++ more := by
  induction later using List.reverseRecOn with
  | nil => exact ⟨[], by rw [List.append_nil, List.append_nil]⟩
  | append_singleton later op ih =>
    obtain ⟨more, same⟩ := ih fun mem => kept (List.mem_append_left _ mem)
    rw [← List.append_assoc, interned_concat, same]
    cases op with
    | intern name => exact ⟨more ++ [name], List.append_assoc ..⟩
    | lookup name => exact ⟨more, rfl⟩
    | reset => exact absurd (List.mem_append_right _ (List.mem_singleton.2 rfl)) kept
    | convert e => exact ⟨more ++ e.keys, List.append_assoc ..⟩
    | assemble limit d =>
      cases excessive : d.excessiveDepth? limit with
      | some depth => exact ⟨more, by simp [Operation.interned, excessive]⟩
      | none =>
        exact ⟨more ++ Expression.slotKeys d.expression, by simp [Operation.interned, excessive]⟩

/-- **As long as a registry is not emptied, it is extended.** -/
theorem run_append_extends (history : List Operation) {later : List Operation}
    (kept : .reset ∉ later) : (run (history ++ later)).Extends (run history) := by
  obtain ⟨more, same⟩ := exists_interned_append history kept
  rw [run_eq_internAll, run_eq_internAll, same, internAll_append]
  exact internAll_extends _ more

/-- **Numbers are told from the history.** -/
theorem number_run (history : List Operation) :
    (run history).number = numberIn (interned history) :=
  funext fun name => by rw [run_eq_internAll, number_internAll]

/-- **A registry numbers names in the order in which they come in,** whatever has been done with it.
At the end of every history the numbers by name and the names by number are inverse to each other,
no name is listed twice, and all of it is told from the names that have come in since the registry
was last emptied: their count is its size, and the number that interning gives, also for the
propositions of a formula, is how many other names came in before this one.  So one name always has
one number, other names have others, and a name keeps its number until the registry is emptied. -/
theorem run_numbers (history : List Operation) :
    let r := run history
    let names := interned history
    ((∀ name index, r.lookup? name = some index ↔ r.nameList[index]? = some name) ∧
      (∀ name, r.lookup? name = if name ∈ names then some (numberIn names name) else none) ∧
      r.nameList.Nodup ∧ r.size = names.toFinset.card ∧ (r.isEmpty ↔ names = [])) ∧
    ((∀ name, (r.intern name).1 = numberIn names name) ∧
      (∀ e : Expression, (e.convert.run r).1 = e.formula (numberIn (names ++ e.keys))) ∧
      ∀ limit (d : Definition), d.excessiveDepth? limit = none →
        ((d.assemble limit).run r).1.map LabelledFormula.formula =
          .ok (Expression.slotFormula (numberIn (names ++ Expression.slotKeys d.expression))
            d.expression)) ∧
    ∀ later : List Operation, .reset ∉ later →
      (∀ (index : Nat) (name : String), r.nameList[index]? = some name →
        (run (history ++ later)).nameList[index]? = some name) ∧
      ∀ name name', ((run (history ++ .intern name :: later)).intern name').1 =
        (r.intern name).1 ↔ name' = name := by
  intro r names
  have state : r = internAll ∅ names := run_eq_internAll history
  have listed : ∀ name, name ∈ r.nameList ↔ name ∈ names := fun name => by
    rw [state, mem_nameList_internAll_empty]
  have numbers : ∀ more, (r.internAll more).number = numberIn (names ++ more) := fun more =>
    funext fun name => by rw [state, ← internAll_append, number_internAll]
  refine ⟨⟨fun name index => ?_, fun name => ?_, names_nodup r, ?_, ?_⟩,
    ⟨fun name => ?_, fun e => ?_, fun limit d within => ?_⟩,
    fun later kept => ⟨fun index name stands => ?_, fun name name' => ?_⟩⟩
  · rw [lookup?_eq_some_iff, nameList, Array.getElem?_toList]
  · rw [state, lookup?_internAll]
  · rw [state, size_internAll]
  · rw [isEmpty, ← Array.isEmpty_toList, List.isEmpty_iff, List.eq_nil_iff_forall_not_mem,
      List.eq_nil_iff_forall_not_mem]
    exact forall_congr' fun name => not_congr (listed name)
  · exact congrFun (number_run history) name
  · rw [Expression.convert_run e r (Extends.refl _), numbers]
  · rw [Definition.assemble_run within, ← numbers]
    rfl
  · obtain ⟨more, same⟩ := run_append_extends history kept
    rw [← same, List.getElem?_append_left (List.getElem?_eq_some_iff.1 stands).1]
    exact stands
  · have after := run_append_extends (history ++ [.intern name]) kept
    rw [run_concat, List.append_assoc] at after
    show (run _).number name' = _ ↔ _
    rw [number_eq_of_extends_intern after]
    have known : name ∈ (r.internAll [name]).nameList :=
      mem_nameList_internAll.2 (.inr (List.mem_singleton.2 rfl))
    exact number_eq_number_iff (after.subset known)

/-- A registry is emptied after a name, a definition that is nested too deeply leaves nothing in it,
and a comparison brings in its operands before itself. -/
theorem run_numbers_emptied :
    let x : Expression := .term 0 (some "x") none
    let y : Expression := .term 1 (some "y") none
    let less : Expression := .binary "<" (some y) (some x)
    let deep : Definition := ⟨"deep", some (.unary "!" (some x))⟩
    let shallow : Definition := ⟨"shallow", some less⟩
    let history : List Operation :=
      [.intern "old", .reset, .lookup "x", .assemble 1 deep, .convert y, .intern "y"]
    (run history).size = 1 ∧ ((run history).intern "old").1 = 1 ∧
      (((shallow.assemble 2).run (run history)).1.map LabelledFormula.formula = .ok (.atom 2)) ∧
      ((run (history ++ [.intern "z", .assemble 2 shallow])).intern "z").1 = 1 := by
  intro x y less deep shallow history
  obtain ⟨⟨-, -, -, size, -⟩, ⟨numbers, -, assembled⟩, later⟩ := run_numbers history
  have new : ((run history).intern "z").1 = 1 := (numbers "z").trans (by decide +kernel)
  refine ⟨size.trans (by decide +kernel), (numbers "old").trans (by decide +kernel), ?_, ?_⟩
  · have named : numberIn (interned history ++ less.keys) less.canonical = 2 := by decide +kernel
    rw [assembled 2 shallow (by decide +kernel)]
    exact congrArg (fun index => Except.ok (Formula.atom index)) named
  · obtain ⟨-, same⟩ := later [.assemble 2 shallow] (by simp)
    rw [(same "z" "z").2 rfl, new]

end Registry
end ActorLtl
