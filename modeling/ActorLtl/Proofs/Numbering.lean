/-
# How conversion numbers propositions

A name has the same number in every registry that extends one in which it is known
(`Registry.number_eq_of_extends`).  So the formula that conversion builds with numbers given out
on the way is the formula that the numbers of any later registry give, and what it does to the
registry is to intern the expression's keys (`Expression.convert_run`).
-/

import ActorLtl.Definition
import ActorLtl.Expression.Keys
import ActorLtl.Registry.Names

namespace ActorLtl
namespace Registry

/-- The number of a name: the one that it has, or the one that it would be given next. -/
def number (r : Registry) (name : String) : Nat := (r.intern name).1

/-- Whether `later` knows all that `r` knows, under the same numbers. -/
def Extends (later r : Registry) : Prop := r.nameList <+: later.nameList

variable {r s later : Registry} {name : String} {names more : List String}

theorem Extends.refl (r : Registry) : r.Extends r := List.prefix_refl _

theorem Extends.trans (h : later.Extends s) (h' : s.Extends r) : later.Extends r :=
  List.IsPrefix.trans h' h

/-- **Interning extends a registry.** -/
theorem internAll_extends (r : Registry) (names : List String) :
    (r.internAll names).Extends r := by
  rw [Extends, nameList_internAll]
  exact List.prefix_append ..

/-- A registry that extends the one after several names extends the one before the last. -/
theorem Extends.of_internAll_append (h : later.Extends (r.internAll (names ++ more))) :
    later.Extends (r.internAll names) := by
  rw [internAll_append] at h
  exact h.trans (internAll_extends _ more)

theorem mem_nameList_internAll :
    name ∈ (r.internAll names).nameList ↔ name ∈ r.nameList ∨ name ∈ names := by
  rw [nameList_internAll]
  exact mem_newNames_iff

/-- **A known name stands at its number.** -/
theorem getElem?_number (known : name ∈ r.nameList) : r.nameList[r.number name]? = some name := by
  cases found : r.lookup? name with
  | none => exact absurd known (lookup?_eq_none_iff.1 found)
  | some index =>
    rw [number, intern_of_lookup? found]
    simpa [nameList] using lookup?_eq_some_iff.1 found

/-- A known name is found under its number. -/
theorem lookup?_of_mem (known : name ∈ r.nameList) : r.lookup? name = some (r.number name) := by
  have listed := getElem?_number known
  exact lookup?_eq_some_iff.2 (by simpa [nameList] using listed)

/-- **Interning known names changes nothing.** -/
theorem internAll_of_known (known : ∀ name ∈ names, name ∈ r.nameList) :
    r.internAll names = r := by
  induction names with
  | nil => rfl
  | cons name names ih =>
    rw [List.forall_mem_cons] at known
    rw [internAll_cons, intern_of_lookup? (lookup?_of_mem known.1)]
    exact ih known.2

/-- **A position is the number of the name that stands there.** -/
theorem number_eq_of_getElem? {index : Nat} (h : r.nameList[index]? = some name) :
    r.number name = index := by
  have found : r.lookup? name = some index :=
    lookup?_eq_some_iff.2 (by simpa [nameList] using h)
  rw [number, intern_of_lookup? found]

/-- **A known name keeps its number.** -/
theorem number_eq_of_extends (h : later.Extends r) (known : name ∈ r.nameList) :
    later.number name = r.number name := by
  obtain ⟨rest, split⟩ := h
  have listed := getElem?_number known
  have inside : r.number name < r.nameList.length := (List.getElem?_eq_some_iff.1 listed).1
  apply number_eq_of_getElem?
  rw [← split, List.getElem?_append_left inside, listed]

/-- **The number that interning gives is the number of the name from then on.** -/
theorem number_eq_of_extends_intern (h : later.Extends (r.intern name).2) :
    (r.intern name).1 = later.number name := by
  have found := lookup?_intern r name
  have listed : (r.intern name).2.nameList[(r.intern name).1]? = some name := by
    simpa [nameList] using lookup?_eq_some_iff.1 found
  rw [number_eq_of_extends h (List.mem_of_getElem? listed), number_eq_of_getElem? listed]

/-- **Known names are told apart by their numbers.** -/
theorem number_inj {name' : String} (known : name ∈ r.nameList) (known' : name' ∈ r.nameList) :
    r.number name = r.number name' ↔ name = name' := by
  constructor
  · intro same
    have listed := getElem?_number known
    rw [same, getElem?_number known'] at listed
    exact (Option.some.inj listed).symm
  · rintro rfl
    rfl

end Registry

/-- **A sequence of two steps** runs the second on what the first leaves. -/
theorem run_bind_eq {σ α β : Type} (first : StateM σ α) (next : α → StateM σ β) (s : σ) :
    (first >>= next).run s = (next (first.run s).1).run (first.run s).2 := rfl

namespace Expression

variable {later : Registry}

/-- A proposition is built with the number that its name has from then on. -/
theorem proposition_run_of_extends {name : String} {r : Registry}
    (h : later.Extends (r.internAll [name])) :
    (proposition name).run r = (.atom (later.number name), r.internAll [name]) := by
  rw [proposition_run, Registry.number_eq_of_extends_intern h]
  rfl

/-- A node with operator is what its operator makes of the operands, or else a proposition of its
own, which takes one key more. -/
theorem made_or_asProposition_run (e : Expression) {made : Option Formula} {names : List String}
    {r : Registry} (h : later.Extends (r.internAll (names ++ e.ownKey made.isSome))) :
    (made.elim e.asProposition pure : StateM Registry Formula).run (r.internAll names) =
      (made.getD (.atom (later.number e.canonical)),
        r.internAll (names ++ e.ownKey made.isSome)) := by
  rw [Registry.internAll_append] at h ⊢
  cases made with
  | some f => rfl
  | none => exact proposition_run_of_extends h

mutual
/-- **Conversion in two passes.**  Conversion interns the keys of the expression and builds its
formula from the numbers that the keys have in any later registry. -/
theorem convert_run : (e : Expression) → (r : Registry) → later.Extends (r.internAll e.keys) →
    e.convert.run r = (e.formula later.number, r.internAll e.keys)
  | .binary operator left right, r, h => by
      rw [keys] at h ⊢
      have toLeft : later.Extends (r.internAll (slotKeys left)) := by
        rw [List.append_assoc] at h
        exact h.of_internAll_append
      have toRight : later.Extends ((r.internAll (slotKeys left)).internAll (slotKeys right)) := by
        rw [← Registry.internAll_append]
        exact h.of_internAll_append
      rw [convert_binary_eq, formula, run_bind_eq, convertSlot_run left r toLeft, run_bind_eq,
        convertSlot_run right _ toRight, ← Registry.internAll_append]
      rw [← Formula.isSome_between? (slotFormula later.number left)
        (slotFormula later.number right)] at h ⊢
      exact made_or_asProposition_run _ h
  | .unary operator operand, r, h => by
      rw [keys] at h ⊢
      rw [convert_unary_eq, formula, run_bind_eq, convertSlot_run operand r h.of_internAll_append]
      rw [← Formula.isSome_before? (slotFormula later.number operand)] at h ⊢
      exact made_or_asProposition_run _ h
  | .member .., r, h => proposition_run_of_extends h
  | .term id none _, r, h => by
      rw [keys] at h ⊢
      rw [convert, formula]
      exact proposition_run_of_extends h
  | .term id (some name) none, r, h => proposition_run_of_extends h
  | .term id (some name) (some []), r, h => proposition_run_of_extends h
  | .term id (some name) (some (first :: _)), r, h => by
      rw [keys] at h ⊢
      rw [convert, formula]
      split
      · rename_i unnamed
        rw [if_pos unnamed] at h
        exact proposition_run_of_extends h
      · rename_i named
        rw [if_neg named] at h
        rw [run_bind_eq, convert_run first r h.of_internAll_append]
        have told := Formula.called?_eq (formula later.number first) name
        cases temporal : TemporalCall.ofName? name with
        | some call =>
          have letter : name ∈ TemporalCall.letters :=
            TemporalCall.mem_letters_iff.2 (by rw [temporal]; rfl)
          rw [told, temporal, if_pos letter, List.append_nil]
          rfl
        | none =>
          have other : name ∉ TemporalCall.letters := fun letter => by
            rw [TemporalCall.mem_letters_iff, temporal] at letter
            cases letter
          rw [if_neg other, Registry.internAll_append] at h
          rw [told, temporal, if_neg other, Registry.internAll_append]
          exact proposition_run_of_extends h
  | .literal id none, r, h => proposition_run_of_extends h
  | .literal _ (some value), r, h => by
      rw [keys] at h ⊢
      rw [convert, formula]
      rw [truthValue?]
      by_cases yes : value.toLower = "true"
      · simp only [yes, true_or, if_true]
        rfl
      · by_cases no : value.toLower = "false"
        · simp only [no, or_true, if_true]
          rfl
        · simp only [yes, no, or_false, if_false] at h ⊢
          exact proposition_run_of_extends h
  | .ternary condition thenPart elsePart, r, h => by
      rw [keys] at h ⊢
      have toThen := h.of_internAll_append
      rw [convert, formula, run_bind_eq, convertSlot_run condition r toThen.of_internAll_append]
      rw [Registry.internAll_append] at toThen
      rw [run_bind_eq, convertSlot_run thenPart _ toThen, ← Registry.internAll_append]
      rw [Registry.internAll_append] at h
      rw [run_bind_eq, convertSlot_run elsePart _ h, ← Registry.internAll_append]
      rfl
  | .group _, r, h => proposition_run_of_extends h
  | .cast .., r, h => proposition_run_of_extends h
  | .typeTest .., r, h => proposition_run_of_extends h
  | .choice _, r, h => proposition_run_of_extends h
/-- **A slot is converted in two passes.** -/
theorem convertSlot_run : (slot : Option Expression) → (r : Registry) →
    later.Extends (r.internAll (slotKeys slot)) →
    (convertSlot slot).run r = (slotFormula later.number slot, r.internAll (slotKeys slot))
  | none, _, _ => rfl
  | some e, r, h => convert_run e r h
end

/-- **What a registry knows already is converted without a change to it.** -/
theorem convertSlot_run_of_known (slot : Option Expression) {r : Registry}
    (known : ∀ key ∈ slotKeys slot, key ∈ r.nameList) :
    (convertSlot slot).run r = (slotFormula r.number slot, r) := by
  have settled : r.internAll (slotKeys slot) = r := Registry.internAll_of_known known
  have complete : r.Extends (r.internAll (slotKeys slot)) := by
    rw [settled]
    exact .refl r
  rw [convertSlot_run slot r complete, settled]

/-- **Conversion interns the keys** and does nothing else to the registry. -/
theorem convert_registry (e : Expression) (r : Registry) :
    (e.convert.run r).2 = r.internAll e.keys := by
  rw [convert_run e r (Registry.Extends.refl _)]

/-- **Conversion appends the keys that are new** to the names of the registry. -/
theorem nameList_convert (e : Expression) (r : Registry) :
    (e.convert.run r).2.nameList = r.nameList ++ newNames r.nameList e.keys := by
  rw [convert_registry, Registry.nameList_internAll]

end Expression
end ActorLtl
