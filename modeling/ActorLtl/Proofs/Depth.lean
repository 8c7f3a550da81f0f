/-
# What the depth of an expression measures

Depth is the greatest level that the walk over a tree meets, nesting is read off the tree itself.
How far down the walk gets is settled at every place of the loop (`Expression.reach`): to the
greatest level met so far, or to what hangs below the stack.  A turn does not change it
(`Expression.reach_eq_of_turn?`), so no run does, whatever the order in which the stack is worked
off (`Expression.Turns.reach_eq`).  At the root it is the nesting of the tree, on the empty stack
the result; so depth is nesting (`Expression.depth_turns`).
-/

import ActorLtl.Expression.Turns

namespace ActorLtl
namespace Expression

theorem listNesting_append (es fs : List Expression) :
    listNesting (es ++ fs) = max (listNesting es) (listNesting fs) := by
  induction es with
  | nil => simp [listNesting]
  | cons e es ih => rw [List.cons_append, listNesting, listNesting, ih, Nat.max_assoc]

@[simp] theorem listNesting_toList (slot : Option Expression) :
    listNesting slot.toList = slotNesting slot := by
  cases slot <;> simp [listNesting, slotNesting]

/-- **A node is one level more than its children.** -/
theorem nesting_eq_children (e : Expression) : e.nesting = 1 + listNesting e.children := by
  cases e with
  | term _ _ arguments => cases arguments <;> simp [nesting, children, listNesting]
  | _ => simp [nesting, children, listNesting, listNesting_append]

theorem listNesting_eq_foldr (es : List Expression) :
    listNesting es = (es.map nesting).foldr max 0 := by
  induction es with
  | nil => rfl
  | cons e es ih => rw [listNesting, ih, List.map_cons, List.foldr_cons]

/-! ## How far down the walk gets -/

/-- The greater of the level found so far and the level of the node that is met. -/
def deeper (deepest level : Nat) (_ : Expression) : Nat := max deepest level

/-- The level that the walk gets down to if `deepest` is the greatest level met so far: this one, or
that of the lowest node below the stack. -/
def reach (deepest : Nat) : List (Nat × Expression) → Nat
  | [] => deepest
  | (level, e) :: pending => max (level + listNesting e.children) (reach deepest pending)

/-- To meet a node is to get down to its level. -/
theorem reach_deeper (deepest level : Nat) (e : Expression) (pending : List (Nat × Expression)) :
    reach (deeper deepest level e) pending = max level (reach deepest pending) := by
  induction pending with
  | nil => exact Nat.max_comm deepest level
  | cons node pending ih => rw [reach, reach, ih, Nat.max_left_comm]

/-- **Children on the stack** get the walk down to their nesting below the node. -/
theorem reach_children (deepest level : Nat) (es : List Expression)
    (pending : List (Nat × Expression)) :
    max level (reach deepest (es.reverse.map (fun child => (level + 1, child)) ++ pending)) =
      max (level + listNesting es) (reach deepest pending) := by
  induction es generalizing pending with
  | nil => rfl
  | cons e es ih =>
    -- The first child lies below the others, on top of what the stack held before.
    have split : (e :: es).reverse.map (fun child => (level + 1, child)) ++ pending =
        es.reverse.map (fun child => (level + 1, child)) ++ (level + 1, e) :: pending := by
      simp
    rw [split, ih, reach, listNesting, nesting_eq_children]
    omega

/-- **A turn changes nothing about it.** -/
theorem reach_eq_of_turn? {place next : Nat × List (Nat × Expression)}
    (turned : turn? deeper place = some next) : reach next.1 next.2 = reach place.1 place.2 := by
  obtain ⟨deepest, pending⟩ := place
  cases pending with
  | nil => cases turned
  | cons node pending =>
    obtain ⟨level, e⟩ := node
    obtain rfl := Option.some.inj turned
    rw [reach_deeper, reach_children, reach]

/-- **Nor does a run.** -/
theorem Turns.reach_eq {n : Nat} {place last : Nat × List (Nat × Expression)}
    (run : Turns deeper n place last) : reach last.1 last.2 = reach place.1 place.2 := by
  induction run with
  | stay place => rfl
  | go turned _ ih => rw [ih, reach_eq_of_turn? turned]

/-- The walk over a tree stops after as many turns as the tree has nodes. -/
theorem turns_depth (e : Expression) : Turns deeper e.size (0, [(1, e)]) (e.depth, []) := by
  have run : Turns deeper _ (0, [(1, e)]) (e.depth, []) := turns_foldPending 0 [(1, e)]
  simpa [listSize] using run

/-- **Depth is nesting.** -/
theorem depth_eq_nesting (e : Expression) : e.depth = e.nesting := by
  have kept : e.depth = max (1 + listNesting e.children) 0 := (turns_depth e).reach_eq
  rw [kept, Nat.max_zero, nesting_eq_children]

/-- **The walk measures the tree.**  From the root of any tree the loop comes to the empty stack,
after as many turns as the tree has nodes, and what it has found there is the depth.  It is the
nesting of the tree: 1 for a node without children, and otherwise one more than the depth of the
deepest child, be it in an operand slot, an argument or a choice. -/
theorem depth_turns (e : Expression) :
    Turns deeper e.size (0, [(1, e)]) (e.depth, []) ∧ e.depth = e.nesting ∧
      e.depth = 1 + (e.children.map depth).foldr max 0 := by
  have measured : depth = nesting := funext depth_eq_nesting
  refine ⟨turns_depth e, depth_eq_nesting e, ?_⟩
  rw [measured, nesting_eq_children, listNesting_eq_foldr]

end Expression
end ActorLtl
