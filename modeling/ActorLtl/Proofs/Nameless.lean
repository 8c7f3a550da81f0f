/-
# Nodes without a name

A node without a name is a proposition of its own: the name of the proposition is made of the kind
and the identity of the node, so other nodes have others.  Inside an opaque expression the node is
not told by its identity, only by a placeholder, which all nodes of its form share.

The name of a proposition that is made for a node can be given to a term or a literal as well, and
then they are one proposition; it is never the canonical text of an opaque expression, which has a
dot or a closing parenthesis in it (`Expression.exists_mark_of_isOpaque`).
-/

import ActorLtl.Proofs.Frames
import ActorLtl.Proofs.Identity
import ActorLtl.Proofs.Phrase

namespace ActorLtl

/-- The forms that a node without a name can have. -/
inductive Nameless where
  /-- A term whose name is missing. -/
  | term
  /-- A term whose name is empty. -/
  | emptyTerm
  /-- A literal whose value is missing. -/
  | literal
  deriving DecidableEq, Repr

namespace Nameless

/-- The node of this form; terms may have arguments. -/
def node (id : NodeId) (arguments : Option (List Expression)) : Nameless → Expression
  | term => .term id none arguments
  | emptyTerm => .term id (some "") arguments
  | literal => .literal id none

/-- The name that the node's proposition is given. -/
def propositionName (id : NodeId) : Nameless → String
  | term => "$term#" ++ toString id
  | emptyTerm => "$term#" ++ toString id
  | literal => "$literal#" ++ toString id

/-- What canonical texts show of the node. -/
def placeholder : Nameless → String
  | term => "term"
  | emptyTerm => ""
  | literal => "literal"

theorem placeholder_inj {form form' : Nameless} :
    form.placeholder = form'.placeholder ↔ form = form' := by
  cases form <;> cases form' <;> decide

theorem canonical_node (form : Nameless) (id : NodeId) (arguments : Option (List Expression)) :
    (form.node id arguments).canonical = form.placeholder := by
  cases form <;> simp [node, placeholder, Expression.canonical, Expression.piecesOnto,
    String.join_cons]

/-- **A node without a name is the proposition that is named for it.** -/
theorem propositionName?_node (form : Nameless) (id : NodeId)
    (arguments : Option (List Expression)) :
    (form.node id arguments).propositionName? = some (form.propositionName id) := by
  cases form with
  | term => rw [node, Expression.propositionName?, propositionName]
  | emptyTerm =>
    rcases arguments with _ | _ | ⟨first, more⟩ <;>
      simp [node, Expression.propositionName?, propositionName]
  | literal => rfl

/-- The name shows the kind of the node and its identity. -/
theorem toList_propositionName (form : Nameless) (id : NodeId) :
    (form.propositionName id).toList =
      (if form = literal then "$literal#" else "$term#").toList ++ Nat.toDigits 10 id := by
  cases form <;> simp [propositionName]

/-- **Nodes with different identities are named differently,** whatever their forms. -/
theorem id_eq_of_propositionName_eq {form form' : Nameless} {id id' : NodeId}
    (same : form.propositionName id = form'.propositionName id') : id = id' := by
  -- The identity is what stands behind the hash.
  have read (form : Nameless) (id : NodeId) :
      Nat.ofDigitChars 10 ((form.propositionName id).toList.dropWhile (· ≠ '#')).tail 0 = id := by
    rw [toList_propositionName]
    cases form <;> simp [Nat.ofDigitChars_toDigits]
  rw [← read form id, same, read form' id']

/-- A character that is in no name of this kind: neither in the kind nor a digit. -/
theorem not_mem_propositionName {c : Char} (kinds : c ∉ "$literal#$term#".toList)
    (noDigit : c.isDigit = false) (form : Nameless) (id : NodeId) :
    c ∉ (form.propositionName id).toList := by
  rw [toList_propositionName, List.mem_append]
  rintro (mem | mem)
  · refine kinds ?_
    cases form <;> simp_all
  · have digit := Nat.isDigit_of_mem_toDigits (by decide) (by decide) mem
    rw [noDigit] at digit
    cases digit

end Nameless

namespace Expression

variable {e : Expression} {pieces rest : List String} {piece : String}

theorem mem_piecesOnto (h : piece ∈ rest) : piece ∈ e.piecesOnto rest := by
  rw [piecesOnto_eq]
  exact List.mem_append_right _ h

theorem mem_slotPiecesOnto {slot : Option Expression} (h : piece ∈ rest) :
    piece ∈ slotPiecesOnto slot rest := by
  rw [slotPiecesOnto_eq]
  exact List.mem_append_right _ h

theorem mem_morePiecesOnto {es : List Expression} (h : piece ∈ rest) :
    piece ∈ morePiecesOnto es rest := by
  rw [morePiecesOnto_eq]
  exact List.mem_append_right _ h

/-- **The canonical text of an opaque expression has a dot or a parenthesis in it.** -/
theorem exists_mark_of_isOpaque (h : e.isOpaque) : "." ∈ e.piecesOnto [] ∨ ")" ∈ e.piecesOnto [] := by
  cases e with
  | member left right => exact .inl (mem_slotPiecesOnto List.mem_cons_self)
  | choice choices => cases choices <;> simp [piecesOnto, mem_piecesOnto, mem_morePiecesOnto]
  | binary _ _ _ | unary _ _ | group _ | cast _ _ | typeTest _ _ =>
    exact .inr (by simp [piecesOnto, mem_slotPiecesOnto])
  | term _ _ _ | literal _ _ | ternary _ _ _ => cases h

theorem mem_spell {c : Char} (h : piece ∈ pieces) (mem : c ∈ piece.toList) : c ∈ spell pieces := by
  obtain ⟨before, after, rfl⟩ := List.append_of_mem h
  rw [spell, String.join_append, String.toList_append, List.mem_append, ← spell, ← spell,
    spell_cons, List.mem_append]
  exact .inr (.inl mem)

/-- **No opaque expression is called like a node without a name.** -/
theorem canonical_ne_propositionName (h : e.isOpaque) (form : Nameless) (id : NodeId) :
    e.canonical ≠ form.propositionName id := by
  intro same
  have text : spell (e.piecesOnto []) = (form.propositionName id).toList := congrArg _ same
  rcases exists_mark_of_isOpaque h with dot | close
  · have mem : '.' ∈ spell (e.piecesOnto []) := mem_spell dot (by decide)
    rw [text] at mem
    exact Nameless.not_mem_propositionName (by decide) (by decide) form id mem
  · have mem : ')' ∈ spell (e.piecesOnto []) := mem_spell close (by decide)
    rw [text] at mem
    exact Nameless.not_mem_propositionName (by decide) (by decide) form id mem

/-- The name or value that a node has been given. -/
def givenText? : Expression → Option String
  | term _ (some name) _ => if name = "" then none else some name
  | literal _ (some value) => some value
  | _ => none

/-- A term with a name and a literal with a value are called by it, if they are propositions. -/
theorem propositionName?_of_givenText? {text : String} (given : e.givenText? = some text)
    {number : String → Nat} {i : Nat} (single : e.formula number = .atom i) :
    e.propositionName? = some text := by
  match e, given, single with
  | .term _ (some name) arguments, given, single =>
    rw [givenText?] at given
    split at given
    · cases given
    · rename_i filled
      obtain rfl := Option.some.inj given
      match arguments, single with
      | none, _ | some [], _ => rw [propositionName?, if_neg filled]
      | some (first :: _), single =>
        rw [formula, if_neg filled] at single
        rw [propositionName?, if_neg filled]
        by_cases letter : name ∈ TemporalCall.letters
        · -- A temporal call is no proposition.
          simp only [TemporalCall.letters, List.mem_cons, List.not_mem_nil, or_false] at letter
          rcases letter with rfl | rfl | rfl <;> cases single
        · rw [if_neg letter]
  | .literal _ (some value), given, single =>
    obtain rfl := Option.some.inj given
    rw [formula] at single
    rw [propositionName?]
    split at single
    · cases single
    · rename_i notTrue
      split at single
      · cases single
      · rename_i notFalse
        rw [if_neg (not_or.2 ⟨notTrue, notFalse⟩)]

/-- **Nodes without a name are told apart, but not inside opaque expressions.**  Each is a single
proposition, and two of them with different identities are never the same one, whenever they are
converted, as long as the registry is not emptied.  Two opaque expressions that differ in such a
node at one place are the same proposition exactly if the place is inside the arguments of a call or
the nodes have the same form.  Nothing opaque is ever the proposition of a node without a name; nor
is a term with a name or a literal with a value, unless it spells the very name that the node's
proposition is given. -/
theorem nameless_apart (form form' : Nameless) (id id' : NodeId)
    (arguments arguments' : Option (List Expression)) (later : Registry) :
    let node := form.node id arguments
    let node' := form'.node id' arguments'
    (∀ r : Registry, ∃ i, (node.convert.run r).1 = .atom i) ∧
    (id ≠ id' → ∀ i j, node.IsProposition later i → node'.IsProposition later j → i ≠ j) ∧
    (∀ c : Context, (c.fill node).isOpaque → (c.fill node').isOpaque → ∀ i j,
      (c.fill node).IsProposition later i → (c.fill node').IsProposition later j →
      (i = j ↔ c.isInArguments ∨ form = form')) ∧
    ∀ (e : Expression) (i j : Nat), node.IsProposition later i → e.IsProposition later j →
      (e.isOpaque → i ≠ j) ∧
      ∀ text, e.givenText? = some text → text ≠ form.propositionName id → i ≠ j := by
  intro node node'
  have named : node.propositionName? = some (form.propositionName id) :=
    form.propositionName?_node id arguments
  refine ⟨exists_atom_of_propositionName? named, fun other i j single single' same => ?_,
    fun c whole whole' i j single single' => ?_, fun e i j single single' => ⟨?_, ?_⟩⟩
  · have text := (single.eq_iff named single' (form'.propositionName?_node id' arguments')).1 same
    exact other (Nameless.id_eq_of_propositionName_eq text)
  · rw [single.eq_iff (propositionName?_of_isOpaque whole) single'
      (propositionName?_of_isOpaque whole'), Context.canonical_fill_eq_iff,
      Nameless.canonical_node, Nameless.canonical_node, Nameless.placeholder_inj]
  · intro whole same
    have text := (single.eq_iff named single' (propositionName?_of_isOpaque whole)).1 same
    exact canonical_ne_propositionName whole form id text.symm
  · intro text given other same
    have named' := propositionName?_of_givenText? given single'.formula_eq.1
    exact other ((single.eq_iff named single' named').1 same).symm

/-- A batch with a term and a literal without a name, casts of both, and a term that is called like
another node without a name. -/
theorem nameless_apart_casts :
    let node := Nameless.term.node 0 none
    let node' := Nameless.literal.node 1 none
    let c := Context.cast "int" .hole
    let named : Expression := .term 2 (some "$term#7") none
    let batch := [node, node', c.fill node, c.fill node', named]
    let later := batch.foldl (fun r e => (e.convert.run r).2) ∅
    ∃ i j k l n, node.IsProposition later i ∧ node'.IsProposition later j ∧
      (c.fill node).IsProposition later k ∧ (c.fill node').IsProposition later l ∧
      named.IsProposition later n ∧ i ≠ j ∧ k ≠ l ∧ i ≠ k ∧ i ≠ n := by
  intro node node' c named batch later
  have names : later = Registry.internAll ∅ (batch.flatMap keys) := by
    simp [later, batch, convert_registry, Registry.internAll_append]
  have known : ∀ e ∈ batch, ∀ key ∈ e.keys, key ∈ later.nameList := fun e mem key inside => by
    rw [names]
    exact Registry.mem_nameList_internAll.2 (.inr (List.mem_flatMap.2 ⟨e, mem, inside⟩))
  have first := IsProposition.of_known (known node (by simp [batch])) (Nameless.propositionName?_node ..)
  have second :=
    IsProposition.of_known (known node' (by simp [batch])) (Nameless.propositionName?_node ..)
  have third := IsProposition.of_known (known (c.fill node) (by simp [batch]))
    (propositionName?_of_isOpaque rfl)
  have fourth := IsProposition.of_known (known (c.fill node') (by simp [batch]))
    (propositionName?_of_isOpaque rfl)
  have spelt : named.propositionName? = some "$term#7" := by decide
  have fifth := IsProposition.of_known (known named (by simp [batch])) spelt
  obtain ⟨-, apart, inside, others⟩ := nameless_apart .term .literal 0 1 none none later
  refine ⟨_, _, _, _, _, first, second, third, fourth, fifth, apart (by decide) _ _ first second,
    ?_, (others _ _ _ first third).1 rfl, (others _ _ _ first fifth).2 "$term#7" (by decide) ?_⟩
  · intro same
    have := (inside c rfl rfl _ _ third fourth).1 same
    revert this
    decide
  · decide

/-- **Two nodes without a name, one proposition.**  The casts of two terms without a name are both
the proposition `cast<int>(term)`; and a term that is called `$term#0` is the proposition of the
term without a name whose identity is 0. -/
theorem nameless_merge :
    let unnamed := Nameless.term.node 0 none
    let first : Expression := .cast "int" (some unnamed)
    let second : Expression := .cast "int" (some (Nameless.term.node 1 none))
    let named : Expression := .term 2 (some "$term#0") none
    first.isOpaque ∧ second.isOpaque ∧ (first.convert.run ∅).1 = .atom 0 ∧
      (second.convert.run (first.convert.run ∅).2).1 = .atom 0 ∧
      (unnamed.convert.run ∅).1 = .atom 0 ∧
      (named.convert.run (unnamed.convert.run ∅).2).1 = .atom 0 := by
  intro unnamed first second named
  have spelt : named.propositionName? = some "$term#0" := by decide
  refine ⟨rfl, rfl, ?_, ?_, ?_, ?_⟩
  · apply convert_eq_atom (propositionName?_of_isOpaque (e := first) rfl)
    rw [nameList_convert]
    decide +kernel
  · apply convert_eq_atom (propositionName?_of_isOpaque (e := second) rfl)
    rw [nameList_convert, nameList_convert]
    decide +kernel
  · apply convert_eq_atom (Nameless.propositionName?_node .term 0 none)
    rw [nameList_convert]
    decide +kernel
  · apply convert_eq_atom spelt
    rw [nameList_convert, nameList_convert]
    decide +kernel

end Expression
end ActorLtl
