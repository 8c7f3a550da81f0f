/-
# Formulas of linear temporal logic

Formulas over numbered atomic propositions.  Conjunctions and disjunctions take any number
of operands.  A formula does not know what its propositions are called; a `LabelledFormula`
adds the list of their names, proposition `i` being named by entry `i`.
-/

namespace ActorLtl

/-- A formula of linear temporal logic over atomic propositions `0, 1, 2, …`. -/
inductive Formula where
  | constant (value : Bool)
  | atom (index : Nat)
  | negation (operand : Formula)
  | conjunction (operands : List Formula)
  | disjunction (operands : List Formula)
  /-- `X operand`: at the next position. -/
  | next (operand : Formula)
  /-- `G operand`: from here on. -/
  | globally (operand : Formula)
  /-- `F operand`: here or later. -/
  | eventually (operand : Formula)
  /-- `left U right`: `left` until `right`, which comes. -/
  | strongUntil (left right : Formula)
  /-- `left W right`: `left` until `right`, or for ever. -/
  | weakUntil (left right : Formula)
  /-- `left M right`: `right` up to and with the position of `left`, which comes. -/
  | strongRelease (left right : Formula)
  /-- `left R right`: `right` up to and with the position of `left`, or for ever. -/
  | release (left right : Formula)
  deriving Repr, BEq, Inhabited

namespace Formula

/-- The conjunction of two formulas. -/
def and (left right : Formula) : Formula := conjunction [left, right]

/-- The disjunction of two formulas. -/
def or (left right : Formula) : Formula := disjunction [left, right]

mutual
/-- The propositions of a formula as they occur, left to right, followed by `rest`. -/
def atomsOnto : Formula → List Nat → List Nat
  | constant _, rest => rest
  | atom index, rest => index :: rest
  | negation f, rest => atomsOnto f rest
  | conjunction fs, rest => listAtomsOnto fs rest
  | disjunction fs, rest => listAtomsOnto fs rest
  | next f, rest => atomsOnto f rest
  | globally f, rest => atomsOnto f rest
  | eventually f, rest => atomsOnto f rest
  | strongUntil f g, rest => atomsOnto f (atomsOnto g rest)
  | weakUntil f g, rest => atomsOnto f (atomsOnto g rest)
  | strongRelease f g, rest => atomsOnto f (atomsOnto g rest)
  | release f g, rest => atomsOnto f (atomsOnto g rest)
/-- The propositions of several formulas, followed by `rest`. -/
def listAtomsOnto : List Formula → List Nat → List Nat
  | [], rest => rest
  | f :: fs, rest => atomsOnto f (listAtomsOnto fs rest)
end

/-- Puts a number into an ascending list, unless it is there. -/
def insertAscending (n : Nat) : List Nat → List Nat
  | [] => [n]
  | m :: ms => if n < m then n :: m :: ms else if n = m then m :: ms else m :: insertAscending n ms

@[simp] theorem mem_insertAscending {i n : Nat} {ms : List Nat} :
    i ∈ insertAscending n ms ↔ i = n ∨ i ∈ ms := by
  induction ms with
  | nil => simp [insertAscending]
  | cons m ms ih =>
    unfold insertAscending
    split
    · simp
    · split
      · subst_vars; simp
      · simp [ih]; grind

/-- The propositions of a formula, ascending and each once. -/
def atoms (f : Formula) : List Nat := (f.atomsOnto []).foldr insertAscending []

/-- **`atoms` lists what occurs.** -/
theorem mem_atoms {i : Nat} {f : Formula} : i ∈ f.atoms ↔ i ∈ f.atomsOnto [] := by
  unfold atoms
  induction f.atomsOnto [] with
  | nil => simp
  | cons n ns ih => simp [ih]

/-- An ascending list without repetitions stays one. -/
theorem insertAscending_pairwise {n : Nat} {ms : List Nat} (h : ms.Pairwise (· < ·)) :
    (insertAscending n ms).Pairwise (· < ·) := by
  induction ms with
  | nil => simp [insertAscending]
  | cons m ms ih =>
    rw [List.pairwise_cons] at h
    unfold insertAscending
    split
    · rw [List.pairwise_cons]
      refine ⟨fun i hi => ?_, List.pairwise_cons.2 h⟩
      rcases List.mem_cons.1 hi with rfl | hi
      · assumption
      · exact Nat.lt_trans ‹n < m› (h.1 i hi)
    · split
      · exact List.pairwise_cons.2 h
      · refine List.pairwise_cons.2 ⟨fun i hi => ?_, ih h.2⟩
        rcases mem_insertAscending.1 hi with rfl | hi
        · omega
        · exact h.1 i hi

/-- **`atoms` ascends,** so no proposition is listed twice. -/
theorem atoms_pairwise (f : Formula) : f.atoms.Pairwise (· < ·) := by
  unfold atoms
  induction f.atomsOnto [] with
  | nil => simp
  | cons n ns ih => exact insertAscending_pairwise ih

mutual
/-- How deep temporal operators are nested in one another. -/
def temporalDepth : Formula → Nat
  | constant _ => 0
  | atom _ => 0
  | negation f => temporalDepth f
  | conjunction fs => listTemporalDepth fs
  | disjunction fs => listTemporalDepth fs
  | next f => 1 + temporalDepth f
  | globally f => 1 + temporalDepth f
  | eventually f => 1 + temporalDepth f
  | strongUntil f g => 1 + max (temporalDepth f) (temporalDepth g)
  | weakUntil f g => 1 + max (temporalDepth f) (temporalDepth g)
  | strongRelease f g => 1 + max (temporalDepth f) (temporalDepth g)
  | release f g => 1 + max (temporalDepth f) (temporalDepth g)
/-- The greatest temporal depth among several formulas, 0 if there is none. -/
def listTemporalDepth : List Formula → Nat
  | [] => 0
  | f :: fs => max (temporalDepth f) (listTemporalDepth fs)
end

mutual
/-- The height of the tree; a leaf, and a connective without operands, has height 1. -/
def height : Formula → Nat
  | constant _ => 1
  | atom _ => 1
  | negation f => 1 + height f
  | conjunction fs => 1 + listHeight fs
  | disjunction fs => 1 + listHeight fs
  | next f => 1 + height f
  | globally f => 1 + height f
  | eventually f => 1 + height f
  | strongUntil f g => 1 + max (height f) (height g)
  | weakUntil f g => 1 + max (height f) (height g)
  | strongRelease f g => 1 + max (height f) (height g)
  | release f g => 1 + max (height f) (height g)
/-- The height of the highest of several formulas, 0 if there is none. -/
def listHeight : List Formula → Nat
  | [] => 0
  | f :: fs => max (height f) (listHeight fs)
end

end Formula

/-- A formula together with the names of its propositions, in the order of their numbers. -/
structure LabelledFormula where
  formula : Formula
  propositions : List String
  deriving Repr, BEq, Inhabited

namespace LabelledFormula

/-- The name of proposition `index`, if it has one. -/
def propositionName? (labelled : LabelledFormula) (index : Nat) : Option String :=
  labelled.propositions[index]?

/-- The least proposition that occurs in the formula and has no name. -/
def firstUnlabelled? (labelled : LabelledFormula) : Option Nat :=
  labelled.formula.atoms.find? (labelled.propositions.length ≤ ·)

/-- **Nothing is unlabelled exactly if every proposition that occurs has a name.** -/
theorem firstUnlabelled?_eq_none_iff {labelled : LabelledFormula} :
    labelled.firstUnlabelled? = none ↔
      ∀ i ∈ labelled.formula.atoms, i < labelled.propositions.length := by
  simp [firstUnlabelled?]

/-- What is unlabelled is what has no name. -/
theorem firstUnlabelled?_eq_find? (labelled : LabelledFormula) :
    labelled.firstUnlabelled? =
      labelled.formula.atoms.find? fun i => (labelled.propositionName? i).isNone := by
  refine congrArg (List.find? · labelled.formula.atoms) (funext fun i => ?_)
  rw [Bool.eq_iff_iff, decide_eq_true_iff, Option.isNone_iff_eq_none, propositionName?,
    List.getElem?_eq_none_iff]
end LabelledFormula
end ActorLtl
