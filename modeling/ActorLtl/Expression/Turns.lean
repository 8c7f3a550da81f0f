/-
# The walk turn by turn

The loop of a walk (`Expression.foldPending`) takes one turn after another: the node on top of the
stack is met, and its children take its place.  A *place* of the loop is what has been made of the
nodes met so far, together with the stack.

Every turn leaves one node less to be met, so from any place the loop comes to the empty stack,
where it stops, after as many turns as there are nodes on the stack and below it
(`Expression.turns_foldPending`).  What has been made there is what the loop gives.
-/

import ActorLtl.Expression.Walk

namespace ActorLtl
namespace Expression

variable {α : Type} {meet : α → Nat → Expression → α}

/-- One turn of the loop.  On the empty stack there is none. -/
def turn? (meet : α → Nat → Expression → α) :
    α × List (Nat × Expression) → Option (α × List (Nat × Expression))
  | (_, []) => none
  | (state, (level, e) :: pending) =>
      some (meet state level e,
        e.children.reverse.map (fun child => (level + 1, child)) ++ pending)

/-- The loop comes from one place to another in so many turns. -/
inductive Turns (meet : α → Nat → Expression → α) :
    Nat → α × List (Nat × Expression) → α × List (Nat × Expression) → Prop
  | stay (place : α × List (Nat × Expression)) : Turns meet 0 place place
  | go {n : Nat} {place next last : α × List (Nat × Expression)} :
      turn? meet place = some next → Turns meet n next last → Turns meet (n + 1) place last

theorem listSize_reverse (es : List Expression) : listSize es.reverse = listSize es := by
  induction es with
  | nil => rfl
  | cons e es ih =>
    rw [List.reverse_cons, listSize_append, ih]
    simp only [listSize]
    omega

/-- **A turn leaves one node less,** the one that is met. -/
theorem listSize_pending (level : Nat) (e : Expression) (pending : List (Nat × Expression)) :
    listSize (((level, e) :: pending).map Prod.snd) =
      listSize ((e.children.reverse.map (fun child => (level + 1, child)) ++ pending).map Prod.snd) +
        1 := by
  have children : (e.children.reverse.map fun child => (level + 1, child)).map Prod.snd =
      e.children.reverse := by
    rw [List.map_map]
    exact List.map_id _
  rw [List.map_append, children, listSize_append, listSize_reverse, List.map_cons, listSize,
    size_eq_children e]
  omega

/-- **The loop comes to the empty stack,** after as many turns as there are nodes left. -/
theorem turns_foldPending (state : α) (pending : List (Nat × Expression)) :
    Turns meet (listSize (pending.map Prod.snd)) (state, pending)
      (foldPending meet state pending, []) := by
  fun_induction foldPending meet state pending with
  | case1 state => exact .stay _
  | case2 state level e pending ih =>
    rw [listSize_pending]
    exact .go rfl ih

end Expression
end ActorLtl
