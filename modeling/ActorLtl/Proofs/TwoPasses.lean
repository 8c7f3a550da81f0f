/-
# Conversion in two passes that know no registry

Conversion is one pass, and it takes a registry along.  What it does can be told in two passes
without one.  The first lists the keys of the expression, and of these the ones that the registry
does not know go behind its names, each where it stands first.  The second builds the formula, and
the number of a key is its position in that list (`Expression.convertSlot_twoPasses`).  An
expression that is converted again finds all its keys in the list, so it changes nothing.
-/

import ActorLtl.Proofs.Numbering
import Mathlib.Data.List.Basic

namespace ActorLtl
namespace Registry

/-- **The number of a name is its position among the names,** or else the first that is free. -/
theorem number_eq_idxOf (r : Registry) (name : String) :
    r.number name = r.nameList.idxOf name := by
  by_cases known : name ∈ r.nameList
  · have inside : r.nameList.idxOf name < r.nameList.length := List.idxOf_lt_length_iff.2 known
    exact number_eq_of_getElem? (List.getElem?_eq_some_iff.2 ⟨inside, List.getElem_idxOf inside⟩)
  · rw [number, (intern_of_not_mem known).1, List.idxOf_eq_length known]
    rfl

/-- **A name is looked up among the names.** -/
theorem lookup?_eq_idxOf? (r : Registry) (name : String) :
    r.lookup? name = r.nameList.idxOf? name := by
  by_cases known : name ∈ r.nameList
  · obtain ⟨index, found⟩ := Option.isSome_iff_exists.1 (List.isSome_idxOf?.2 known)
    rw [lookup?_of_mem known, number_eq_idxOf, List.idxOf_eq_getD_idxOf?, found, Option.getD_some]
  · rw [lookup?_eq_none_iff.2 known, List.idxOf?_eq_none_iff.2 known]

/-- **Interning puts the new names behind the others,** each where it comes first. -/
theorem nameList_internAll_eq_eraseDups (r : Registry) (names : List String) :
    (r.internAll names).nameList =
      r.nameList ++ (names.filter (· ∉ r.nameList)).eraseDups := by
  rw [nameList_internAll, newNames_eq_eraseDups]

end Registry

namespace Expression

/-- **One pass is as good as two.**  Conversion of what a slot holds leaves the names of the
registry as they are and puts the keys that are new behind them, in the order of their first
occurrences; what is looked up afterwards is a position in that list.  The formula is the one that
the positions in the list give.  Converted again, at any time before the registry is emptied, the
expression has the same formula and changes nothing. -/
theorem convertSlot_twoPasses (slot : Option Expression) (r : Registry) :
    let names := r.nameList ++ ((slotKeys slot).filter (· ∉ r.nameList)).eraseDups
    let converted := (convertSlot slot).run r
    converted.2.nameList = names ∧ (∀ name, converted.2.lookup? name = names.idxOf? name) ∧
      converted.1 = slotFormula (fun name => names.idxOf name) slot ∧
      ∀ later : Registry, later.Extends converted.2 →
        (convertSlot slot).run later = (converted.1, later) := by
  intro names converted
  have onePass : converted = (slotFormula (r.internAll (slotKeys slot)).number slot,
      r.internAll (slotKeys slot)) := convertSlot_run slot r (Registry.Extends.refl _)
  have listed : converted.2.nameList = names := by
    rw [onePass]
    exact Registry.nameList_internAll_eq_eraseDups r (slotKeys slot)
  refine ⟨listed, fun name => ?_, ?_, fun later after => ?_⟩
  · rw [Registry.lookup?_eq_idxOf?, listed]
  · have numbers : (r.internAll (slotKeys slot)).number = fun name => names.idxOf name := by
      funext name
      rw [Registry.number_eq_idxOf, ← listed, onePass]
    rw [onePass, numbers]
  · rw [onePass] at after ⊢
    have known : ∀ name ∈ slotKeys slot, name ∈ later.nameList := fun name mem =>
      after.subset (Registry.mem_nameList_internAll.2 (.inr mem))
    -- Both runs may take their numbers from the later registry, which knows every key.
    have first := convertSlot_run slot r after
    have formulas : slotFormula (r.internAll (slotKeys slot)).number slot =
        slotFormula later.number slot := congrArg Prod.fst (onePass.symm.trans first)
    rw [convertSlot_run_of_known slot known, formulas]

/-- An equivalence of a call, whose second argument is not converted, and a temporal operator, whose
second operand is converted in vain.  The registry knows one of the names, and has met another when
the expression is converted again. -/
theorem convertSlot_twoPasses_equivalence :
    let term (id : NodeId) (name : String) : Expression := .term id (some name) none
    let opened : Expression := .member (some (term 2 "door")) (some (term 3 "open"))
    let call : Expression := .term 0 (some "asked") (some [term 1 "b", term 4 "c"])
    let slot := some (.binary "iff" (some call) (some (.binary "F" (some opened) (some call))))
    let r := (Registry.empty.intern "b").2
    let converted := (convertSlot slot).run r
    let later := (converted.2.intern "closed").2
    let asked : Formula := .atom 1
    let reached : Formula := .eventually (.atom 2)
    converted.2.nameList = ["b", "asked", "door.open"] ∧
      converted.1 = .and (.or (.negation asked) reached) (.or asked (.negation reached)) ∧
      later.Extends converted.2 ∧ (convertSlot slot).run later = (converted.1, later) := by
  intro term opened call slot r converted later asked reached
  obtain ⟨listed, -, built, again⟩ := convertSlot_twoPasses slot r
  have still : later.Extends converted.2 := Registry.nameList_prefix_intern _ _
  have known : r.nameList = ["b"] := (Registry.intern_of_not_mem List.not_mem_nil).2
  rw [known] at listed built
  have names : ["b"] ++ ((slotKeys slot).filter (· ∉ ["b"])).eraseDups =
      ["b", "asked", "door.open"] := by decide +kernel
  rw [names] at listed built
  exact ⟨listed, built.trans rfl, still, again later still⟩

end Expression
end ActorLtl
