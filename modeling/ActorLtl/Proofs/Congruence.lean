/-
# One expression under two numberings

Conversion makes formulas of formulas in eleven ways only.  A relation between formulas that
passes along all of them (`Formula.IsCongruence`) holds between the formulas that two numberings
give of one expression, as soon as it holds between the propositions of the expression's keys
(`Expression.related_formula`).  A property of single formulas is a relation that looks at one side
(`Expression.good_slotFormula`), so what only depends on how formulas are built needs no induction
over expressions of its own.
-/

import ActorLtl.Expression.Keys

namespace ActorLtl

/-- Whether a relation between formulas passes from operands to all that conversion makes of
them. -/
structure Formula.IsCongruence (R : Formula → Formula → Prop) : Prop where
  constant (value : Bool) : R (.constant value) (.constant value)
  negation {f g : Formula} : R f g → R (.negation f) (.negation g)
  and {f f' g g' : Formula} : R f g → R f' g' → R (f.and f') (g.and g')
  or {f f' g g' : Formula} : R f g → R f' g' → R (f.or f') (g.or g')
  next {f g : Formula} : R f g → R (.next f) (.next g)
  globally {f g : Formula} : R f g → R (.globally f) (.globally g)
  eventually {f g : Formula} : R f g → R (.eventually f) (.eventually g)
  strongUntil {f f' g g' : Formula} : R f g → R f' g' → R (.strongUntil f f') (.strongUntil g g')
  weakUntil {f f' g g' : Formula} : R f g → R f' g' → R (.weakUntil f f') (.weakUntil g g')
  strongRelease {f f' g g' : Formula} :
    R f g → R f' g' → R (.strongRelease f f') (.strongRelease g g')
  release {f f' g g' : Formula} : R f g → R f' g' → R (.release f f') (.release g g')

section Operators

variable {R : Formula → Formula → Prop}
  {left left' right right' operand operand' own own' : Formula}

/-- A node with two operand slots relates its two formulas if its operands do, and if its own
proposition does where it is used. -/
theorem Formula.related_between (c : Formula.IsCongruence R) (text : String)
    (ofLeft : R left left') (ofRight : R right right')
    (ofOwn : decide (text ∈ BinaryOperator.connectives.flatten) = false → R own own') :
    R ((between? left right text).getD own) ((between? left' right' text).getD own') := by
  rw [← isSome_between? left right] at ofOwn
  rw [between?_eq] at ofOwn ⊢
  rw [between?_eq]
  generalize BinaryOperator.ofSpelling? text = spelt at ofOwn ⊢
  cases spelt with
  | none => exact ofOwn rfl
  | some op =>
    cases op with
    | and => exact c.and ofLeft ofRight
    | or => exact c.or ofLeft ofRight
    | implies => exact c.or (c.negation ofLeft) ofRight
    | iff => exact c.and (c.or (c.negation ofLeft) ofRight) (c.or ofLeft (c.negation ofRight))
    | globally => exact c.globally ofLeft
    | eventually => exact c.eventually ofLeft
    | next => exact c.next ofLeft
    | strongUntil => exact c.strongUntil ofLeft ofRight
    | weakUntil => exact c.weakUntil ofLeft ofRight
    | strongRelease => exact c.strongRelease ofLeft ofRight
    | release => exact c.release ofLeft ofRight
    | comparison _ | arithmetic _ => exact ofOwn rfl

/-- A node with one operand slot relates its two formulas. -/
theorem Formula.related_before (c : Formula.IsCongruence R) (text : String)
    (ofOperand : R operand operand')
    (ofOwn : decide (text ∈ UnaryOperator.connectives.flatten) = false → R own own') :
    R ((before? operand text).getD own) ((before? operand' text).getD own') := by
  rw [← isSome_before? operand] at ofOwn
  rw [before?_eq] at ofOwn ⊢
  rw [before?_eq]
  generalize UnaryOperator.ofSpelling? text = spelt at ofOwn ⊢
  cases spelt with
  | none => exact ofOwn rfl
  | some op =>
    cases op with
    | not => exact c.negation ofOperand
    | globally => exact c.globally ofOperand
    | eventually => exact c.eventually ofOperand
    | next => exact c.next ofOperand
    | sign => exact ofOwn rfl

/-- So does a call with an argument. -/
theorem Formula.related_called (c : Formula.IsCongruence R) (name : String)
    (ofOperand : R operand operand') (ofOwn : name ∉ TemporalCall.letters → R own own') :
    R ((called? operand name).getD own) ((called? operand' name).getD own') := by
  rw [TemporalCall.mem_letters_iff] at ofOwn
  rw [called?_eq, called?_eq]
  generalize TemporalCall.ofName? name = called at ofOwn ⊢
  cases called with
  | none => exact ofOwn Bool.false_ne_true
  | some call =>
    cases call with
    | globally => exact c.globally ofOperand
    | eventually => exact c.eventually ofOperand
    | next => exact c.next ofOperand

end Operators

namespace Expression

variable {R : Formula → Formula → Prop} {number number' : String → Nat}
  {names more : List String} {name : String}

/-- Whether two numberings relate the propositions of several names. -/
def Relates (R : Formula → Formula → Prop) (number number' : String → Nat)
    (names : List String) : Prop :=
  ∀ name ∈ names, R (.atom (number name)) (.atom (number' name))

theorem Relates.left (h : Relates R number number' (names ++ more)) :
    Relates R number number' names :=
  fun name mem => h name (List.mem_append_left _ mem)

theorem Relates.right (h : Relates R number number' (names ++ more)) :
    Relates R number number' more :=
  fun name mem => h name (List.mem_append_right _ mem)

theorem Relates.single (h : Relates R number number' [name]) :
    R (.atom (number name)) (.atom (number' name)) :=
  h name (List.mem_singleton.2 rfl)

theorem Relates.own {e : Expression} {connective : Bool}
    (h : Relates R number number' (e.ownKey connective)) (opaque_ : connective = false) :
    R (.atom (number e.canonical)) (.atom (number' e.canonical)) := by
  subst opaque_
  exact h.single

mutual
/-- **What relates the keys relates the formulas.**  A relation that conversion respects holds
between the formulas that two numberings give, if it holds between the keys' propositions. -/
theorem related_formula (c : Formula.IsCongruence R) : (e : Expression) →
    Relates R number number' e.keys → R (e.formula number) (e.formula number')
  | .binary operator left right, h => by
      rw [keys] at h
      exact Formula.related_between c operator (related_slotFormula c left h.left.left)
        (related_slotFormula c right h.left.right) h.right.own
  | .unary operator operand, h => by
      rw [keys] at h
      exact Formula.related_before c operator (related_slotFormula c operand h.left) h.right.own
  | .member .., h => h.single
  | .term id none _, h => by
      rw [keys] at h
      rw [formula, formula]
      exact h.single
  | .term id (some name) none, h => h.single
  | .term id (some name) (some []), h => h.single
  | .term id (some name) (some (first :: _)), h => by
      rw [keys] at h
      rw [formula, formula]
      split
      · rename_i unnamed
        rw [if_pos unnamed] at h
        exact h.single
      · rename_i present
        rw [if_neg present] at h
        refine Formula.related_called c name (related_formula c first h.left) fun other => ?_
        rw [if_neg other] at h
        exact h.right.single
  | .literal id none, h => h.single
  | .literal _ (some value), h => by
      rw [keys] at h
      rw [formula, formula]
      split
      · exact c.constant true
      · rename_i notTrue
        split
        · exact c.constant false
        · rename_i notFalse
          rw [if_neg (not_or.2 ⟨notTrue, notFalse⟩)] at h
          exact h.single
  | .ternary condition thenPart elsePart, h => by
      rw [keys] at h
      have ofCondition := related_slotFormula c condition h.left.left
      have ofThen := related_slotFormula c thenPart h.left.right
      have ofElse := related_slotFormula c elsePart h.right
      exact c.or (c.and ofCondition ofThen) (c.and (c.negation ofCondition) ofElse)
  | .group _, h => h.single
  | .cast .., h => h.single
  | .typeTest .., h => h.single
  | .choice _, h => h.single
/-- **What relates the keys relates the formulas of a slot.** -/
theorem related_slotFormula (c : Formula.IsCongruence R) : (slot : Option Expression) →
    Relates R number number' (slotKeys slot) →
    R (slotFormula number slot) (slotFormula number' slot)
  | none, _ => c.constant false
  | some e, h => related_formula c e h
end

/-- **What holds of the keys holds of the formula,** for a property that passes from operands to
all that conversion makes of them. -/
theorem good_slotFormula {good : Formula → Prop} (c : Formula.IsCongruence fun f _ => good f)
    (slot : Option Expression) (h : ∀ name ∈ slotKeys slot, good (.atom (number name))) :
    good (slotFormula number slot) :=
  @related_slotFormula (fun f _ => good f) number number c slot h

end Expression
end ActorLtl
