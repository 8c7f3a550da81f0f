/-
# Which expressions are one proposition

Some expressions are converted to a single proposition.  `Expression.propositionName?` says what it
is called: the canonical text of an opaque expression, the name of a term, the value of a literal.
Two such expressions that are converted while one registry grows are the same proposition exactly if
the names are the same (`Expression.IsProposition.eq_iff`), whatever comes in between.
-/

import ActorLtl.Proofs.Numbering

namespace ActorLtl
namespace Expression

/-- Whether the expression is a proposition as a whole, called by its canonical text. -/
def isOpaque : Expression → Bool
  | binary operator _ _ => operator ∉ BinaryOperator.connectives.flatten
  | unary operator _ => operator ∉ UnaryOperator.connectives.flatten
  | member .. => true
  | term .. => false
  | literal .. => false
  | ternary .. => false
  | group _ => true
  | cast .. => true
  | typeTest .. => true
  | choice _ => true

/-- What the proposition is called that the expression is, if it is a single one. -/
def propositionName? : Expression → Option String
  | term id none _ => some ("$term#" ++ toString id)
  | term id (some name) none => some (if name = "" then "$term#" ++ toString id else name)
  | term id (some name) (some []) => some (if name = "" then "$term#" ++ toString id else name)
  | term id (some name) (some (_ :: _)) =>
      if name = "" then some ("$term#" ++ toString id)
      else if name ∈ TemporalCall.letters then none else some name
  | literal id none => some ("$literal#" ++ toString id)
  | literal _ (some value) =>
      if value.toLower = "true" ∨ value.toLower = "false" then none else some value
  | e => if e.isOpaque then some e.canonical else none

theorem propositionName?_of_isOpaque {e : Expression} (h : e.isOpaque) :
    e.propositionName? = some e.canonical := by
  cases e with
  | term _ _ _ | literal _ _ => cases h
  | _ => simp only [propositionName?, h, if_true]

/-- **An opaque expression is the proposition of its canonical text,** which is one of its keys. -/
theorem formula_of_isOpaque {e : Expression} (h : e.isOpaque) :
    e.canonical ∈ e.keys ∧ ∀ number, e.formula number = .atom (number e.canonical) := by
  cases e with
  | binary operator left right =>
    rw [isOpaque, decide_eq_true_iff] at h
    constructor
    · simp [keys, ownKey, h]
    · intro number
      rw [formula, Formula.between?_eq_none_iff.2 h]
      rfl
  | unary operator operand =>
    rw [isOpaque, decide_eq_true_iff] at h
    constructor
    · simp [keys, ownKey, h]
    · intro number
      rw [formula, Formula.before?_eq_none_iff.2 h]
      rfl
  | member _ _ | group _ | cast _ _ | typeTest _ _ | choice _ =>
    exact ⟨List.mem_singleton.2 rfl, fun _ => rfl⟩
  | term _ _ _ | literal _ _ | ternary _ _ _ => cases h

/-- **A single proposition is called by one of the expression's keys.** -/
theorem formula_of_propositionName? {e : Expression} {name : String}
    (h : e.propositionName? = some name) :
    name ∈ e.keys ∧ ∀ number, e.formula number = .atom (number name) := by
  by_cases whole : e.isOpaque
  · rw [propositionName?_of_isOpaque whole] at h
    obtain rfl := Option.some.inj h
    exact formula_of_isOpaque whole
  match e, h with
  | .term _ none _, h =>
    obtain rfl := Option.some.inj h
    exact ⟨by simp [keys], fun _ => by rw [formula]⟩
  | .term _ (some _) none, h =>
    obtain rfl := Option.some.inj h
    exact ⟨List.mem_singleton.2 rfl, fun _ => rfl⟩
  | .term _ (some _) (some []), h =>
    obtain rfl := Option.some.inj h
    exact ⟨List.mem_singleton.2 rfl, fun _ => rfl⟩
  | .term _ (some own) (some (_ :: _)), h =>
    rw [propositionName?] at h
    rw [keys]
    split at h
    · rename_i unnamed
      obtain rfl := Option.some.inj h
      exact ⟨by simp [unnamed], fun _ => by rw [formula, if_pos unnamed]⟩
    · rename_i present
      split at h
      · cases h
      · rename_i ordinary
        obtain rfl := Option.some.inj h
        refine ⟨by simp [present, ordinary], fun _ => ?_⟩
        rw [formula, if_neg present, Formula.called?_eq_none_iff.2 ordinary]
        rfl
  | .literal _ none, h =>
    obtain rfl := Option.some.inj h
    exact ⟨List.mem_singleton.2 rfl, fun _ => rfl⟩
  | .literal _ (some value), h =>
    rw [propositionName?] at h
    split at h
    · cases h
    · rename_i noTruth
      obtain rfl := Option.some.inj h
      refine ⟨by simp [keys, noTruth], fun _ => ?_⟩
      rw [not_or] at noTruth
      rw [formula, if_neg noTruth.1, if_neg noTruth.2]
  | .binary _ _ _, h | .unary _ _, h | .ternary _ _ _, h =>
    simp only [propositionName?, whole] at h
    cases h
  | .member _ _, _ | .group _, _ | .cast _ _, _ | .typeTest _ _, _ | .choice _, _ =>
    exact absurd rfl whole

/-- **The proposition's number is where its name stands** once the keys are in. -/
theorem convert_eq_atom {e : Expression} {name : String} (h : e.propositionName? = some name)
    {r : Registry} {i : Nat} (stands : (e.convert.run r).2.nameList[i]? = some name) :
    (e.convert.run r).1 = .atom i := by
  rw [convert_run e r (Registry.Extends.refl _)] at stands ⊢
  rw [(formula_of_propositionName? h).2, Registry.number_eq_of_getElem? stands]

/-- An expression that is a single proposition is converted to it. -/
theorem exists_atom_of_propositionName? {e : Expression} {name : String}
    (h : e.propositionName? = some name) (r : Registry) : ∃ i, (e.convert.run r).1 = .atom i := by
  rw [convert_run e r (Registry.Extends.refl _), (formula_of_propositionName? h).2]
  exact ⟨_, rfl⟩

/-- Whether the expression, converted at some time since the registry was last emptied, is
proposition `i` by itself. -/
def IsProposition (later : Registry) (e : Expression) (i : Nat) : Prop :=
  ∃ r : Registry, later.Extends (e.convert.run r).2 ∧ (e.convert.run r).1 = .atom i

namespace IsProposition

variable {later : Registry} {e e' : Expression} {i j : Nat} {name name' : String}

theorem formula_eq (h : IsProposition later e i) :
    e.formula later.number = .atom i ∧ ∀ key ∈ e.keys, key ∈ later.nameList := by
  obtain ⟨r, after, made⟩ := h
  rw [convert_registry] at after
  rw [convert_run e r after] at made
  exact ⟨made, fun key mem => after.subset (Registry.mem_nameList_internAll.2 (.inr mem))⟩

/-- **The proposition has the number of its name.** -/
theorem number_eq (h : IsProposition later e i) (named : e.propositionName? = some name) :
    name ∈ later.nameList ∧ later.number name = i := by
  obtain ⟨made, known⟩ := h.formula_eq
  obtain ⟨key, single⟩ := formula_of_propositionName? named
  rw [single] at made
  exact ⟨known name key, Formula.atom.inj made⟩

/-- An expression whose keys are known is its proposition, since it can be converted now. -/
theorem of_known (known : ∀ key ∈ e.keys, key ∈ later.nameList)
    (named : e.propositionName? = some name) : e.IsProposition later (later.number name) := by
  have now : e.convert.run later = (e.formula later.number, later) :=
    convertSlot_run_of_known (some e) known
  refine ⟨later, ?_, ?_⟩
  · rw [now]
    exact .refl later
  · rw [now, (formula_of_propositionName? named).2]

/-- **One name, one proposition,** in whatever order the expressions are converted. -/
theorem eq_iff (h : IsProposition later e i) (named : e.propositionName? = some name)
    (h' : IsProposition later e' j) (named' : e'.propositionName? = some name') :
    i = j ↔ name = name' := by
  obtain ⟨known, rfl⟩ := h.number_eq named
  obtain ⟨known', rfl⟩ := h'.number_eq named'
  exact Registry.number_inj known known'

end IsProposition

/-- Two expressions that are single propositions, the second converted at any time after the first,
have the same number exactly if they have the same name. -/
theorem exists_atoms_of_propositionName? {e e' : Expression} {name name' : String}
    (h : e.propositionName? = some name) (h' : e'.propositionName? = some name')
    {r s : Registry} (after : s.Extends (e.convert.run r).2) :
    ∃ i j, (e.convert.run r).1 = .atom i ∧ (e'.convert.run s).1 = .atom j ∧
      (i = j ↔ name = name') := by
  obtain ⟨i, made⟩ := exists_atom_of_propositionName? h r
  obtain ⟨j, made'⟩ := exists_atom_of_propositionName? h' s
  have later : (e'.convert.run s).2.Extends (e.convert.run r).2 := by
    rw [convert_registry e' s]
    exact (Registry.internAll_extends s e'.keys).trans after
  exact ⟨i, j, made, made',
    IsProposition.eq_iff ⟨r, later, made⟩ h ⟨s, .refl _, made'⟩ h'⟩

end Expression
end ActorLtl
