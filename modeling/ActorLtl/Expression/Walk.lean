/-
# Walking an expression

Property files come from elsewhere, and their trees may be far deeper than a recursive pass
should follow.  The measurements that come before any such pass therefore run as one loop
over a stack of pending nodes, `foldPending`.  It meets every node once, a node before its
children and the children from right to left.

Beside the loop stand the recursive readings of the same tree: `nodes` lists the nodes in
the order of the walk, each with its level, and `nesting` is the height of the tree.
`foldPending_eq_foldl` says that the loop is a left fold over that list.
-/

import ActorLtl.Expression

namespace ActorLtl
namespace Expression

/-- The loop: `pending` is the stack, its top first, of nodes yet to be met with their
levels.  A node's children go onto the stack in order, so the last child is met first. -/
def foldPending {α : Type} (meet : α → Nat → Expression → α) (state : α) :
    List (Nat × Expression) → α
  | [] => state
  | (level, e) :: pending =>
      foldPending meet (meet state level e)
        (e.children.reverse.map (fun child => (level + 1, child)) ++ pending)
termination_by pending => listSize (pending.map Prod.snd)
decreasing_by
  have : ∀ es : List Expression, listSize es.reverse = listSize es := by
    intro es
    induction es with
    | nil => rfl
    | cons e es ih => simp [listSize, ih]; omega
  simp only [List.map_append, List.map_map, Function.comp_def, List.map_id', listSize_append,
    List.map_cons, listSize, this, size_eq_children e]
  omega

/-- The walk over one tree, whose root has level 1. -/
def fold {α : Type} (meet : α → Nat → Expression → α) (state : α) (e : Expression) : α :=
  foldPending meet state [(1, e)]

/-- How deep the tree is, as the walk measures it: the greatest level met. -/
def depth (e : Expression) : Nat :=
  e.fold (fun deepest level _ => max deepest level) 0

mutual
/-- The nodes of a tree whose root has the given level, with their levels: a node before its
children, the children from right to left. -/
def nodes (level : Nat) : Expression → List (Nat × Expression)
  | e@(binary _ left right) =>
      (level, e) :: (slotNodes (level + 1) right ++ slotNodes (level + 1) left)
  | e@(unary _ operand) => (level, e) :: slotNodes (level + 1) operand
  | e@(member left right) =>
      (level, e) :: (slotNodes (level + 1) right ++ slotNodes (level + 1) left)
  | e@(term _ _ none) => [(level, e)]
  | e@(term _ _ (some arguments)) => (level, e) :: listNodes (level + 1) arguments
  | e@(literal ..) => [(level, e)]
  | e@(ternary condition thenPart elsePart) =>
      (level, e) :: (slotNodes (level + 1) elsePart ++ slotNodes (level + 1) thenPart ++
        slotNodes (level + 1) condition)
  | e@(group inner) => (level, e) :: slotNodes (level + 1) inner
  | e@(cast _ inner) => (level, e) :: slotNodes (level + 1) inner
  | e@(typeTest _ inner) => (level, e) :: slotNodes (level + 1) inner
  | e@(choice choices) => (level, e) :: listNodes (level + 1) choices
/-- The nodes in a slot. -/
def slotNodes (level : Nat) : Option Expression → List (Nat × Expression)
  | none => []
  | some e => nodes level e
/-- The nodes of several trees, the last tree first. -/
def listNodes (level : Nat) : List Expression → List (Nat × Expression)
  | [] => []
  | e :: es => listNodes level es ++ nodes level e
end

mutual
/-- The height of the tree: 1 for a node without children, otherwise one more than the
highest child. -/
def nesting : Expression → Nat
  | binary _ left right => 1 + max (slotNesting left) (slotNesting right)
  | unary _ operand => 1 + slotNesting operand
  | member left right => 1 + max (slotNesting left) (slotNesting right)
  | term _ _ none => 1
  | term _ _ (some arguments) => 1 + listNesting arguments
  | literal .. => 1
  | ternary condition thenPart elsePart =>
      1 + max (slotNesting condition) (max (slotNesting thenPart) (slotNesting elsePart))
  | group inner => 1 + slotNesting inner
  | cast _ inner => 1 + slotNesting inner
  | typeTest _ inner => 1 + slotNesting inner
  | choice choices => 1 + listNesting choices
/-- The height of what a slot holds, 0 for an empty slot. -/
def slotNesting : Option Expression → Nat
  | none => 0
  | some e => nesting e
/-- The height of the highest of several trees. -/
def listNesting : List Expression → Nat
  | [] => 0
  | e :: es => max (nesting e) (listNesting es)
end

theorem listNodes_append (level : Nat) (es fs : List Expression) :
    listNodes level (es ++ fs) = listNodes level fs ++ listNodes level es := by
  induction es with
  | nil => simp [listNodes]
  | cons e es ih => simp [listNodes, ih]

@[simp] theorem listNodes_toList (level : Nat) (slot : Option Expression) :
    listNodes level slot.toList = slotNodes level slot := by
  cases slot <;> simp [listNodes, slotNodes]

/-- **A tree is its root followed by the trees of the children, the last child first.** -/
theorem nodes_eq (level : Nat) (e : Expression) :
    nodes level e = (level, e) :: listNodes (level + 1) e.children := by
  cases e with
  | term _ _ arguments => cases arguments <;> simp [nodes, children, listNodes]
  | _ => simp [nodes, children, listNodes, listNodes_append]

/-- The nodes that a stack still holds, in the order in which the loop meets them. -/
def pendingNodes (pending : List (Nat × Expression)) : List (Nat × Expression) :=
  pending.flatMap fun (level, e) => nodes level e

theorem pendingNodes_children (level : Nat) (es : List Expression) :
    pendingNodes (es.reverse.map fun child => (level, child)) = listNodes level es := by
  induction es with
  | nil => rfl
  | cons e es ih => simp_all [pendingNodes, listNodes]

/-- **The loop is a left fold over the nodes of the stack.** -/
theorem foldPending_eq_foldl {α : Type} (meet : α → Nat → Expression → α) (state : α)
    (pending : List (Nat × Expression)) :
    foldPending meet state pending =
      (pendingNodes pending).foldl (fun state node => meet state node.1 node.2) state := by
  fun_induction foldPending meet state pending with
  | case1 => rfl
  | case2 state level e pending ih =>
    have split : pendingNodes ((e.children.reverse.map fun child => (level + 1, child)) ++ pending)
        = listNodes (level + 1) e.children ++ pendingNodes pending := by
      rw [← pendingNodes_children]; simp [pendingNodes]
    rw [ih, split]
    simp [pendingNodes, nodes_eq]

/-- **The walk over a tree is a left fold over its nodes.** -/
theorem fold_eq_foldl {α : Type} (meet : α → Nat → Expression → α) (state : α)
    (e : Expression) :
    e.fold meet state = (nodes 1 e).foldl (fun state node => meet state node.1 node.2) state := by
  simp [fold, foldPending_eq_foldl, pendingNodes]

end Expression
end ActorLtl
