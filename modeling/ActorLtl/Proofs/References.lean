/-
# When all references are declared

The check of a property model walks over its expressions and keeps the first name that is not
declared.  There is none exactly if every name that occurs before a dot is declared, at any depth of
any definition (`PropertyModel.check_eq_ok_iff`).
-/

import ActorLtl.Model

namespace ActorLtl
namespace Expression

/-- The names whose members an expression accesses, in the order of the walk. -/
def referredNames (e : Expression) : List String :=
  (e.nodes 1).filterMap fun node => node.2.referredName?

/-- **The walk finds the first undeclared name** among the nodes that it meets. -/
theorem firstUndeclared?_eq_findSome? {m : ActorModel} {e : Expression} :
    e.firstUndeclared? m = (e.nodes 1).findSome? fun node => node.2.undeclaredName? m := by
  have walk (nodes : List (Nat × Expression)) (found : Option String) :
      nodes.foldl (fun found node => found.or (node.2.undeclaredName? m)) found =
        found.or (nodes.findSome? fun node => node.2.undeclaredName? m) := by
    induction nodes generalizing found with
    | nil => simp
    | cons node nodes ih =>
      rw [List.foldl_cons, ih, Option.or_assoc, List.findSome?_cons]
      cases node.2.undeclaredName? m <;> simp
  rw [firstUndeclared?, fold_eq_foldl, walk, Option.none_or]

/-- It is the first that is not declared among the names that the walk meets. -/
theorem firstUndeclared?_eq_find? {m : ActorModel} {e : Expression} :
    e.firstUndeclared? m = e.referredNames.find? (!m.hasInstance ·) := by
  rw [firstUndeclared?_eq_findSome?, referredNames]
  induction e.nodes 1 with
  | nil => rfl
  | cons node nodes ih =>
    rw [List.findSome?_cons, ih, List.filterMap_cons, undeclaredName?]
    cases node.2.referredName? with
    | none => rfl
    | some name =>
      rw [List.find?_cons, Option.bind_some]
      cases m.hasInstance name <;> rfl

/-- The names in a slot. -/
def slotReferredNames (slot : Option Expression) : List String :=
  (slot.map referredNames).getD []

end Expression

namespace PropertyModel

/-- The names whose members the definitions of all sections access. -/
def referredNames (p : PropertyModel) : List String :=
  p.all.flatMap fun d => Expression.slotReferredNames d.expression

/-- The complaint is about the first name that is not declared. -/
theorem complaint?_eq_find? (m : ActorModel) (d : Definition) :
    complaint? m d = ((Expression.slotReferredNames d.expression).find?
      (!m.hasInstance ·)).map (SourceError.unknownInstance d.name) := by
  rw [complaint?]
  cases d.expression with
  | none => rfl
  | some e => exact congrArg (Option.map _) Expression.firstUndeclared?_eq_find?

/-- There is no complaint about a definition exactly if its references are declared. -/
theorem complaint?_eq_none_iff {m : ActorModel} {d : Definition} :
    complaint? m d = none ↔
      ∀ name ∈ Expression.slotReferredNames d.expression, m.hasInstance name := by
  rw [complaint?_eq_find?, Option.map_eq_none_iff, List.find?_eq_none]
  simp

/-- **A property model passes exactly if all its references are declared.** -/
theorem check_eq_ok_iff {m : ActorModel} {p : PropertyModel} :
    p.check m = .ok p ↔ ∀ name ∈ p.referredNames, m.hasInstance name := by
  have found : p.check m = .ok p ↔ p.all.findSome? (complaint? m) = none := by
    rw [check]
    cases p.all.findSome? (complaint? m) <;> simp
  rw [found, List.findSome?_eq_none_iff, referredNames]
  simp only [complaint?_eq_none_iff, List.mem_flatMap]
  exact ⟨fun h name ⟨d, mem, inside⟩ => h d mem name inside,
    fun h d mem name inside => h name ⟨d, mem, inside⟩⟩

/-- What passes is the property model itself. -/
theorem eq_of_check_eq_ok {m : ActorModel} {p p' : PropertyModel} (h : p.check m = .ok p') :
    p' = p := by
  rw [check] at h
  cases found : p.all.findSome? (complaint? m) with
  | none =>
    rw [found] at h
    exact (Except.ok.inj h).symm
  | some complaint =>
    rw [found] at h
    cases h

end PropertyModel
end ActorLtl
