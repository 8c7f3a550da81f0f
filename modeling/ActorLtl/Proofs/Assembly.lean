/-
# What assembly gives

The propositions of a converted formula are the numbers of the expression's keys
(`Expression.exists_key_of_mem_atoms`), and after conversion every key has a name.  So assembly
never meets a proposition without a name: it refuses what is nested too deeply and otherwise
gives the formula with the registry's names (`Definition.assemble_run`).
-/

import ActorLtl.Definition
import ActorLtl.Formula.Named
import ActorLtl.Proofs.Congruence
import ActorLtl.Proofs.Numbering

namespace ActorLtl
namespace Formula

/-! ## Propositions of a formula -/

mutual
/-- The propositions of a formula come before whatever follows. -/
theorem atomsOnto_eq : (f : Formula) → (rest : List Nat) →
    f.atomsOnto rest = f.atomsOnto [] ++ rest
  | constant _, rest => rfl
  | atom _, rest => rfl
  | negation f, rest => atomsOnto_eq f rest
  | conjunction fs, rest => listAtomsOnto_eq fs rest
  | disjunction fs, rest => listAtomsOnto_eq fs rest
  | next f, rest => atomsOnto_eq f rest
  | globally f, rest => atomsOnto_eq f rest
  | eventually f, rest => atomsOnto_eq f rest
  | strongUntil f g, rest => by
      simp only [atomsOnto]
      rw [atomsOnto_eq f, atomsOnto_eq g, atomsOnto_eq f (atomsOnto g []), List.append_assoc]
  | weakUntil f g, rest => by
      simp only [atomsOnto]
      rw [atomsOnto_eq f, atomsOnto_eq g, atomsOnto_eq f (atomsOnto g []), List.append_assoc]
  | strongRelease f g, rest => by
      simp only [atomsOnto]
      rw [atomsOnto_eq f, atomsOnto_eq g, atomsOnto_eq f (atomsOnto g []), List.append_assoc]
  | release f g, rest => by
      simp only [atomsOnto]
      rw [atomsOnto_eq f, atomsOnto_eq g, atomsOnto_eq f (atomsOnto g []), List.append_assoc]
theorem listAtomsOnto_eq : (fs : List Formula) → (rest : List Nat) →
    listAtomsOnto fs rest = listAtomsOnto fs [] ++ rest
  | [], rest => rfl
  | f :: fs, rest => by
      simp only [listAtomsOnto]
      rw [atomsOnto_eq f, listAtomsOnto_eq fs, atomsOnto_eq f (listAtomsOnto fs []),
        List.append_assoc]
end

section Atoms

variable {i index : Nat} {f g : Formula} {fs : List Formula} {rest : List Nat}

theorem mem_atomsOnto : i ∈ f.atomsOnto rest ↔ i ∈ f.atoms ∨ i ∈ rest := by
  rw [atomsOnto_eq, List.mem_append, mem_atoms]

theorem mem_listAtomsOnto : i ∈ listAtomsOnto fs [] ↔ ∃ f ∈ fs, i ∈ f.atoms := by
  induction fs with
  | nil => simp [listAtomsOnto]
  | cons f fs ih => simp [listAtomsOnto, mem_atomsOnto, ih]

@[simp] theorem mem_atoms_constant {value : Bool} : i ∈ (constant value).atoms ↔ False := by
  simp [mem_atoms, atomsOnto]

@[simp] theorem mem_atoms_atom : i ∈ (atom index).atoms ↔ i = index := by
  simp [mem_atoms, atomsOnto]

@[simp] theorem mem_atoms_negation : i ∈ (negation f).atoms ↔ i ∈ f.atoms := by
  simp [mem_atoms, atomsOnto]

@[simp] theorem mem_atoms_next : i ∈ (next f).atoms ↔ i ∈ f.atoms := by
  simp [mem_atoms, atomsOnto]

@[simp] theorem mem_atoms_globally : i ∈ (globally f).atoms ↔ i ∈ f.atoms := by
  simp [mem_atoms, atomsOnto]

@[simp] theorem mem_atoms_eventually : i ∈ (eventually f).atoms ↔ i ∈ f.atoms := by
  simp [mem_atoms, atomsOnto]

@[simp] theorem mem_atoms_conjunction : i ∈ (conjunction fs).atoms ↔ ∃ f ∈ fs, i ∈ f.atoms := by
  rw [mem_atoms, atomsOnto, mem_listAtomsOnto]

@[simp] theorem mem_atoms_disjunction : i ∈ (disjunction fs).atoms ↔ ∃ f ∈ fs, i ∈ f.atoms := by
  rw [mem_atoms, atomsOnto, mem_listAtomsOnto]

@[simp] theorem mem_atoms_strongUntil :
    i ∈ (strongUntil f g).atoms ↔ i ∈ f.atoms ∨ i ∈ g.atoms := by
  rw [mem_atoms, atomsOnto, mem_atomsOnto, ← mem_atoms]

@[simp] theorem mem_atoms_weakUntil :
    i ∈ (weakUntil f g).atoms ↔ i ∈ f.atoms ∨ i ∈ g.atoms := by
  rw [mem_atoms, atomsOnto, mem_atomsOnto, ← mem_atoms]

@[simp] theorem mem_atoms_strongRelease :
    i ∈ (strongRelease f g).atoms ↔ i ∈ f.atoms ∨ i ∈ g.atoms := by
  rw [mem_atoms, atomsOnto, mem_atomsOnto, ← mem_atoms]

@[simp] theorem mem_atoms_release : i ∈ (release f g).atoms ↔ i ∈ f.atoms ∨ i ∈ g.atoms := by
  rw [mem_atoms, atomsOnto, mem_atomsOnto, ← mem_atoms]

theorem mem_atoms_and : i ∈ (f.and g).atoms ↔ i ∈ f.atoms ∨ i ∈ g.atoms := by
  simp [Formula.and]

theorem mem_atoms_or : i ∈ (f.or g).atoms ↔ i ∈ f.atoms ∨ i ∈ g.atoms := by
  simp [Formula.or]

end Atoms

/-- Which propositions occur in a formula is told from its operands. -/
theorem isCongruence_atoms (good : Nat → Prop) :
    IsCongruence fun f _ => ∀ i ∈ f.atoms, good i where
  constant _ := by simp
  negation h i mem := h i (mem_atoms_negation.1 mem)
  and h h' i mem := (mem_atoms_and.1 mem).elim (h i) (h' i)
  or h h' i mem := (mem_atoms_or.1 mem).elim (h i) (h' i)
  next h i mem := h i (mem_atoms_next.1 mem)
  globally h i mem := h i (mem_atoms_globally.1 mem)
  eventually h i mem := h i (mem_atoms_eventually.1 mem)
  strongUntil h h' i mem := (mem_atoms_strongUntil.1 mem).elim (h i) (h' i)
  weakUntil h h' i mem := (mem_atoms_weakUntil.1 mem).elim (h i) (h' i)
  strongRelease h h' i mem := (mem_atoms_strongRelease.1 mem).elim (h i) (h' i)
  release h h' i mem := (mem_atoms_release.1 mem).elim (h i) (h' i)

/-- **Conversion joins two formulas at a time.** -/
theorem isCongruence_operandCounts :
    IsCongruence fun f _ => ∀ n ∈ f.operandCounts, n = 2 where
  constant _ := by simp [operandCounts]
  negation h := by simpa [operandCounts] using h
  and h h' := by
    simpa [Formula.and, operandCounts, listOperandCounts, or_imp, forall_and] using ⟨h, h'⟩
  or h h' := by
    simpa [Formula.or, operandCounts, listOperandCounts, or_imp, forall_and] using ⟨h, h'⟩
  next h := by simpa [operandCounts] using h
  globally h := by simpa [operandCounts] using h
  eventually h := by simpa [operandCounts] using h
  strongUntil h h' := by simpa [operandCounts, or_imp, forall_and] using ⟨h, h'⟩
  weakUntil h h' := by simpa [operandCounts, or_imp, forall_and] using ⟨h, h'⟩
  strongRelease h h' := by simpa [operandCounts, or_imp, forall_and] using ⟨h, h'⟩
  release h h' := by simpa [operandCounts, or_imp, forall_and] using ⟨h, h'⟩

end Formula

/-! ## Converted formulas -/

namespace Expression

/-- **A converted formula has no propositions but the numbers of keys.** -/
theorem exists_key_of_mem_atoms {number : String → Nat} {slot : Option Expression} {i : Nat}
    (h : i ∈ (slotFormula number slot).atoms) : ∃ name ∈ slotKeys slot, number name = i := by
  let isKey : Nat → Prop := fun i => ∃ name ∈ slotKeys slot, number name = i
  refine good_slotFormula (Formula.isCongruence_atoms isKey) slot
    (fun name mem i atom => ⟨name, mem, ?_⟩) i h
  exact (Formula.mem_atoms_atom.1 atom).symm

/-- **A converted formula joins two formulas at a time.** -/
theorem operandCounts_slotFormula (number : String → Nat) (slot : Option Expression) :
    ∀ n ∈ (slotFormula number slot).operandCounts, n = 2 :=
  good_slotFormula Formula.isCongruence_operandCounts slot
    fun name _ => by simp [Formula.operandCounts]

end Expression

namespace Registry

variable {r : Registry} {name : String}

/-- **Numbers of known names are below the size.** -/
theorem number_lt (known : name ∈ r.nameList) : r.number name < r.nameList.length :=
  (List.getElem?_eq_some_iff.1 (getElem?_number known)).1

end Registry

namespace Definition

/-- **Assembly of what is not nested too deeply** interns the keys, and gives the formula with the
numbers and the names of the registry afterwards. -/
theorem assemble_run {limit : Nat} {d : Definition} (within : d.excessiveDepth? limit = none)
    (r : Registry) :
    (d.assemble limit).run r =
      let after := r.internAll (Expression.slotKeys d.expression)
      (.ok ⟨Expression.slotFormula after.number d.expression, after.nameList⟩, after) := by
  let after := r.internAll (Expression.slotKeys d.expression)
  have converted := Expression.convertSlot_run d.expression r (Registry.Extends.refl after)
  have complete : (LabelledFormula.mk (Expression.slotFormula after.number d.expression)
      after.nameList).firstUnlabelled? = none := by
    rw [LabelledFormula.firstUnlabelled?_eq_none_iff]
    intro i mem
    obtain ⟨name, key, rfl⟩ := Expression.exists_key_of_mem_atoms mem
    exact Registry.number_lt (Registry.mem_nameList_internAll.2 (.inr key))
  simp only [assemble, within]
  rw [run_bind_eq, converted, run_bind_eq]
  split
  · rename_i index found
    have none_eq : none = some index := complete.symm.trans found
    cases none_eq
  · rfl

end Definition
end ActorLtl
