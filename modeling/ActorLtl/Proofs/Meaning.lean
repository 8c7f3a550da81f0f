/-
# Conversion keeps the meaning

`Expression.Holds` reads an expression as a timed property of a trace of names, `Formula.Holds`
reads a formula as a timed property of a trace of numbers.  If each key of an expression is true
under its number where it is true by name, then the expression and its formula are the same timed
property (`Expression.holds_formula`).  The numbers of any later registry are of that kind.
-/

import ActorLtl.Expression.Meaning
import ActorLtl.Proofs.Numbering

namespace ActorLtl

variable {named : Trace String} {numbered : Trace Nat}

namespace Formula

/-- An implication is written as a disjunction. -/
theorem holds_implies (left right : Formula) :
    (or (.negation left) right).Holds numbered =
      fun t => left.Holds numbered t → right.Holds numbered t := by
  funext t
  simp only [holds_or, Holds, eq_iff_iff]
  grind

/-- An equivalence is written as two implications, the second the other way round. -/
theorem holds_iff (left right : Formula) :
    (and (or (.negation left) right) (or left (.negation right))).Holds numbered =
      fun t => left.Holds numbered t ↔ right.Holds numbered t := by
  funext t
  simp only [holds_and, holds_or, Holds, eq_iff_iff]
  grind

/-- **What a text makes of two formulas** means what the text means between the meanings of both. -/
theorem map_holds_between? (left right : Formula) (text : String) :
    (between? left right text).map (·.Holds numbered) =
      Timed.between? (left.Holds numbered) (right.Holds numbered) text := by
  have both : (and left right).Holds numbered =
      fun t => left.Holds numbered t ∧ right.Holds numbered t :=
    funext fun t => propext holds_and
  have either : (or left right).Holds numbered =
      fun t => left.Holds numbered t ∨ right.Holds numbered t :=
    funext fun t => propext holds_or
  unfold between? Timed.between?
  split <;> simp [both, either, holds_implies, holds_iff, Holds]

/-- So does what a text makes of one formula, -/
theorem map_holds_before? (operand : Formula) (text : String) :
    (before? operand text).map (·.Holds numbered) =
      Timed.before? (operand.Holds numbered) text := by
  unfold before? Timed.before?
  split <;> simp [Holds]

/-- and what a call makes of its argument. -/
theorem map_holds_called? (argument : Formula) (name : String) :
    (called? argument name).map (·.Holds numbered) =
      Timed.called? (argument.Holds numbered) name := by
  unfold called? Timed.called?
  split <;> simp [Holds]

end Formula

namespace Expression

/-- Whether each of several names is true under its number where it is true by name. -/
def Agrees (number : String → Nat) (numbered : Trace Nat) (named : Trace String)
    (names : List String) : Prop :=
  ∀ name ∈ names, ∀ t, numbered t (number name) ↔ named t name

variable {number : String → Nat} {names more : List String} {name : String}

theorem Agrees.left (h : Agrees number numbered named (names ++ more)) :
    Agrees number numbered named names :=
  fun name mem => h name (List.mem_append_left _ mem)

theorem Agrees.right (h : Agrees number numbered named (names ++ more)) :
    Agrees number numbered named more :=
  fun name mem => h name (List.mem_append_right _ mem)

/-- The proposition of a name is the name. -/
theorem Agrees.holds_atom (h : Agrees number numbered named [name]) :
    (Formula.atom (number name)).Holds numbered = fun t => named t name := by
  rw [Formula.Holds]
  exact funext fun t => propext (h name (List.mem_singleton.2 rfl) t)

/-- What an operator makes of its operands, or else the proposition of the whole node. -/
theorem holds_getD {e : Expression} {made : Option Formula} {meant : Option Timed}
    (same : made.map (·.Holds numbered) = meant)
    (h : Agrees number numbered named (e.ownKey made.isSome)) :
    (made.getD (.atom (number e.canonical))).Holds numbered =
      meant.getD fun t => named t e.canonical := by
  subst same
  cases made with
  | some f => rfl
  | none => exact h.holds_atom

mutual
/-- **An expression and its formula are the same timed property,** if the expression's keys agree
with their numbers. -/
theorem holds_formula : (e : Expression) → Agrees number numbered named e.keys →
    (e.formula number).Holds numbered = e.Holds named
  | .binary operator left right, h => by
      rw [keys] at h
      have ofLeft := holds_slotFormula left h.left.left
      have ofRight := holds_slotFormula right h.left.right
      rw [formula, Holds, ← ofLeft, ← ofRight]
      have own := h.right
      rw [← Formula.isSome_between? (slotFormula number left) (slotFormula number right)] at own
      exact holds_getD (Formula.map_holds_between? ..) own
  | .unary operator operand, h => by
      rw [keys] at h
      rw [formula, Holds, ← holds_slotFormula operand h.left]
      have own := h.right
      rw [← Formula.isSome_before? (slotFormula number operand)] at own
      exact holds_getD (Formula.map_holds_before? ..) own
  | .member .., h => h.holds_atom
  | .term id none _, h => by
      rw [keys] at h
      rw [formula, Holds, h.holds_atom]
  | .term id (some name) none, h => h.holds_atom
  | .term id (some name) (some []), h => h.holds_atom
  | .term id (some name) (some (first :: _)), h => by
      rw [keys] at h
      rw [formula, Holds]
      split
      · rename_i unnamed
        rw [if_pos unnamed] at h
        exact h.holds_atom
      · rename_i present
        rw [if_neg present] at h
        rw [← holds_formula first h.left, ← Formula.map_holds_called?]
        cases called : (formula number first).called? name with
        | some f => rfl
        | none =>
          rw [if_neg (Formula.called?_eq_none_iff.1 called)] at h
          exact h.right.holds_atom
  | .literal id none, h => h.holds_atom
  | .literal _ (some value), h => by
      rw [keys] at h
      rw [formula, Holds]
      split
      · simp [Formula.Holds]
      · rename_i notTrue
        split
        · simp [Formula.Holds]
        · rename_i notFalse
          rw [if_neg (not_or.2 ⟨notTrue, notFalse⟩)] at h
          exact h.holds_atom
  | .ternary condition thenPart elsePart, h => by
      rw [keys] at h
      have ofCondition := holds_slotFormula condition h.left.left
      have ofThen := holds_slotFormula thenPart h.left.right
      have ofElse := holds_slotFormula elsePart h.right
      rw [formula, Holds, ← ofCondition, ← ofThen, ← ofElse]
      funext t
      simp only [Formula.holds_or, Formula.holds_and, Formula.Holds, eq_iff_iff]
      grind
  | .group _, h => h.holds_atom
  | .cast .., h => h.holds_atom
  | .typeTest .., h => h.holds_atom
  | .choice _, h => h.holds_atom
/-- **A slot and its formula are the same timed property.** -/
theorem holds_slotFormula : (slot : Option Expression) →
    Agrees number numbered named (slotKeys slot) →
    (slotFormula number slot).Holds numbered = SlotHolds named slot
  | none, _ => by simp [slotFormula, SlotHolds, Formula.Holds]
  | some e, h => holds_formula e h
end

/-- The numbers of a registry agree with the names that it knows. -/
theorem agrees_number {r : Registry} (known : ∀ name ∈ names, name ∈ r.nameList) :
    Agrees r.number (r.onNumbers named) named names := by
  intro name mem t
  have listed := Registry.getElem?_number (known name mem)
  simp [Registry.onNumbers, listed]

/-- **Conversion keeps the meaning.**  Whatever the registry and the trace, the formula of an
expression holds where the expression does, each number standing for the name that it has after
the conversion or at any time later. -/
theorem holds_convert_iff (e : Expression) (r later : Registry) (trace : Trace String) (t : Nat)
    (h : later.Extends (e.convert.run r).2) :
    (e.convert.run r).1.Holds (later.onNumbers trace) t ↔ e.Holds trace t := by
  rw [convert_registry] at h
  have known : ∀ name ∈ e.keys, name ∈ later.nameList := fun name mem =>
    h.subset (Registry.mem_nameList_internAll.2 (.inr mem))
  rw [convert_run e r h, holds_formula e (agrees_number known)]

/-- A request that is granted later, converted with an empty registry and read under a registry
that has met one name more. -/
theorem holds_convert_iff_response :
    let e : Expression := .unary "globally" (some (.binary "->" (some (.term 0 (some "asked") none))
      (some (.unary "F" (some (.member (some (.term 1 (some "door") none))
        (some (.term 2 (some "open") none))))))))
    let trace : Trace String := fun t name => t = 2 ∧ name = "asked" ∨ t = 5 ∧ name = "door.open"
    let later := ((e.convert.run ∅).2.intern "closed").2
    later.Extends (e.convert.run ∅).2 ∧ (e.convert.run ∅).1.Holds (later.onNumbers trace) 0 := by
  intro e trace later
  have still : later.Extends (e.convert.run ∅).2 := Registry.nameList_prefix_intern _ _
  refine ⟨still, (holds_convert_iff e ∅ later trace 0 still).2 ?_⟩
  show ∀ u, 0 ≤ u → trace u "asked" → ∃ v, u ≤ v ∧ trace v "door.open"
  rintro u - (⟨rfl, -⟩ | ⟨-, other⟩)
  · exact ⟨5, by omega, .inr ⟨rfl, rfl⟩⟩
  · simp at other

end Expression
end ActorLtl
