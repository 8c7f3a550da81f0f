/-
# Reading from another identity on

A reader asks for identities one after the other, and never looks at those that it gets.  So if the
first one is later by `k`, all are, and nothing else changes (`Moved`): a file that is read while
others are holds what it holds by itself, with other identities
(`Batch.compile_run_eq`).
-/

import ActorLtl.Batch.Allotment
import ActorLtl.Proofs.Identities

namespace ActorLtl

open Expression (Numbering Holding FieldShape)

/-! ## Readers that are moved -/

section Moved

variable {α β γ δ : Type} {k : NodeId} {move : α → β} {move' : γ → δ}

/-- Whether the second program, begun `k` identities later, gives what the first one gives, moved,
and draws as many identities. -/
def Shifted (k : NodeId) (move : α → β) (x : StateT NodeId Id α) (y : StateT NodeId Id β) : Prop :=
  ∀ n, y.run (k + n) = (move (x.run n).1, k + (x.run n).2)

namespace Shifted

theorem pure (a : α) : Shifted k move (Pure.pure a) (Pure.pure (move a)) := fun _ => rfl

theorem bind {x : StateT NodeId Id α} {y : StateT NodeId Id β} {f : α → StateT NodeId Id γ}
    {g : β → StateT NodeId Id δ} (first : Shifted k move x y)
    (next : ∀ a, Shifted k move' (f a) (g (move a))) : Shifted k move' (x >>= f) (y >>= g) := by
  intro n
  rw [StateT.run_bind, StateT.run_bind, first n]
  exact next (x.run n).1 (x.run n).2

theorem liftM (x : Id α) :
    Shifted k id (liftM x : StateT NodeId Id α) (liftM x : StateT NodeId Id α) := fun _ => rfl

end Shifted

/-- The same of readers that may refuse what they read. -/
def Moved (k : NodeId) (move : α → β) (x : Numbering α) (y : Numbering β) : Prop :=
  Shifted k (Option.map move) x.run y.run

namespace Moved

theorem pure (a : α) : Moved k move (Pure.pure a) (Pure.pure (move a)) := fun _ => rfl

theorem failure : Moved k move failure failure := fun _ => rfl

theorem bind {x : Numbering α} {y : Numbering β} {f : α → Numbering γ} {g : β → Numbering δ}
    (first : Moved k move x y) (next : ∀ a, Moved k move' (f a) (g (move a))) :
    Moved k move' (x >>= f) (y >>= g) := by
  rw [Moved, OptionT.run_bind, OptionT.run_bind, Option.elimM, Option.elimM]
  refine Shifted.bind first fun read => ?_
  cases read with
  | none => exact .pure none
  | some a => exact next a

theorem ite {c : Prop} [Decidable c] {x x' : Numbering α} {y y' : Numbering β}
    (yes : Moved k move x y) (no : Moved k move x' y') :
    Moved k move (if c then x else x') (if c then y else y') := by
  split
  · exact yes
  · exact no

theorem mapM {items : List δ} {f : δ → Numbering α} {g : δ → Numbering β}
    (each : ∀ item, Moved k move (f item) (g item)) :
    Moved k (List.map move) (items.mapM f) (items.mapM g) := by
  induction items with
  | nil => exact .pure []
  | cons item items ih =>
    rw [List.mapM_cons, List.mapM_cons]
    exact (each item).bind fun a => ih.bind fun as => .pure (a :: as)

/-- **The fields of a record are moved each by itself.** -/
theorem inOrder {names : List String} {field : String → Json → Numbering α}
    {field' : String → Json → Numbering β}
    (each : ∀ name v, Moved k move (field name v) (field' name v)) (v : Json) :
    Moved k (List.map (Prod.map id move)) (Decoder.inOrder names field v)
      (Decoder.inOrder names field' v) := by
  unfold Decoder.inOrder
  cases Decoder.Entries.of? names v with
  | none => exact .failure
  | some entries =>
    refine Moved.bind (.mapM fun entry => ?_) fun taken => .ite (.pure taken) .failure
    exact (each entry.1 entry.2).bind fun a => .pure (entry.1, a)

end Moved
end Moved

theorem lookup_map_id {α β : Type} (f : α → β) (entries : List (String × α)) (name : String) :
    (entries.map (Prod.map id f)).lookup name = (entries.lookup name).map f := by
  induction entries with
  | nil => rfl
  | cons entry entries ih =>
    obtain ⟨key, a⟩ := entry
    rw [List.map_cons, Prod.map_apply, List.lookup_cons, List.lookup_cons, ih, id]
    cases name == key <;> rfl

/-! ## Trees -/

namespace Expression

/-- What a field holds, with other identities. -/
def Holding.mapIds (given : NodeId → NodeId) : Holding → Holding
  | text value => text value
  | slot operand => slot (slotMapIds given operand)
  | list operands => list (operands.map (listMapIds given))

variable {k : NodeId} {node : Json → Numbering Expression}

theorem moved_readField (operand : ∀ v, Moved k (mapIds (k + ·)) (node v) (node v))
    (shape : FieldShape) (v : Json) :
    Moved k (Holding.mapIds (k + ·)) (readField node shape v) (readField node shape v) := by
  have items (vs : List Json) :
      Moved k (listMapIds (k + ·)) (vs.mapM node) (vs.mapM node) := by
    rw [funext (listMapIds_eq_map (k + ·))]
    exact .mapM operand
  unfold readField
  split
  · exact .pure _
  · exact .pure _
  · exact .pure _
  · exact .pure (Holding.slot none)
  · exact (operand v).bind fun e => .pure (Holding.slot (some e))
  · exact (items _).bind fun es => .pure (Holding.list (some es))
  · exact (items _).bind fun es => .pure (Holding.list (some es))
  · exact .pure (Holding.list none)
  · exact .failure

theorem moved_readFields (operand : ∀ v, Moved k (mapIds (k + ·)) (node v) (node v))
    (fields : List (String × FieldShape)) (v : Json) :
    Moved k (List.map (Prod.map id (Holding.mapIds (k + ·)))) (readFields node fields v)
      (readFields node fields v) := by
  refine .inOrder (fun name v => ?_) v
  cases fields.lookup name with
  | none => exact .failure
  | some shape => exact moved_readField operand shape v

section Held

variable (given : NodeId → NodeId) (held : List (String × Holding)) (name : String)

theorem heldText_mapIds :
    heldText (held.map (Prod.map id (Holding.mapIds given))) name = heldText held name := by
  rw [heldText, heldText, lookup_map_id]
  rcases held.lookup name with _ | _ | _ | _ <;> rfl

theorem heldSlot_mapIds :
    heldSlot (held.map (Prod.map id (Holding.mapIds given))) name =
      slotMapIds given (heldSlot held name) := by
  rw [heldSlot, heldSlot, lookup_map_id]
  rcases held.lookup name with _ | _ | _ | _ <;> rfl

theorem heldList_mapIds :
    heldList (held.map (Prod.map id (Holding.mapIds given))) name =
      (heldList held name).map (listMapIds given) := by
  rw [heldList, heldList, lookup_map_id]
  rcases held.lookup name with _ | _ | _ | _ <;> rfl

/-- The identity of a new node of this kind: only terms and literals have one to be replaced. -/
def givenIdentity (kind : String) (identity : NodeId) : NodeId :=
  if kind = "term" ∨ kind = "literal" then given identity else identity

/-- **A node of moved parts is the moved node.** -/
theorem ofHeld?_mapIds (identity : NodeId) (kind : String) :
    ofHeld? (givenIdentity given kind identity) kind
        (held.map (Prod.map id (Holding.mapIds given))) =
      (ofHeld? identity kind held).map (mapIds given) := by
  have term (arguments : Option (List Expression)) (name : Option String) :
      Expression.term (given identity) name (arguments.map (listMapIds given)) =
        mapIds given (.term identity name arguments) := by
    cases arguments <;> rfl
  have named {node node' : String → Expression} (name : String)
      (same : ∀ text, node' text = mapIds given (node text)) :
      (heldText held name).map node' = ((heldText held name).map node).map (mapIds given) := by
    rw [Option.map_map]
    exact congrArg (Option.map · _) (funext same)
  unfold ofHeld?
  simp only [heldText_mapIds, heldSlot_mapIds, heldList_mapIds]
  split
  · exact named _ fun _ => rfl
  · exact named _ fun _ => rfl
  · rfl
  · exact congrArg some (term _ _)
  · rfl
  · rfl
  · rfl
  · exact named _ fun _ => rfl
  · exact named _ fun _ => rfl
  · cases heldList held "choices" <;> rfl
  · rfl

end Held

theorem moved_identityOf (kind : String) :
    Moved k (givenIdentity (k + ·) kind) (liftM (identityOf kind)) (liftM (identityOf kind)) := by
  intro n
  unfold identityOf givenIdentity
  split
  · rfl
  · rfl

/-- **A tree is moved as a whole,** by induction on the levels that are left. -/
theorem moved_readNode (levels : Nat) (nested : Bool) (v : Json) :
    Moved k (mapIds (k + ·)) (readNode levels nested v) (readNode levels nested v) := by
  induction levels generalizing nested v with
  | zero => exact .failure
  | succ levels ih =>
    have operands := moved_readFields (ih true)
    unfold readNode
    cases untag? v with
    | none => exact .failure
    | some tagged =>
      obtain ⟨tag, node⟩ := tagged
      dsimp only
      cases kindOfTag? nested tag with
      | none => exact .failure
      | some found =>
        obtain ⟨kind, fields⟩ := found
        dsimp only
        split
        · refine (moved_identityOf kind).bind fun identity => ?_
          refine (operands fields _).bind fun held => ?_
          rw [ofHeld?_mapIds]
          cases ofHeld? identity kind held with
          | none => exact .failure
          | some e => exact .pure e
        · refine (operands fields _).bind fun held => ?_
          refine (moved_identityOf kind).bind fun identity => ?_
          rw [ofHeld?_mapIds]
          cases ofHeld? identity kind held with
          | none => exact .failure
          | some e => exact .pure e

theorem moved_readTree (levels : Nat) (v : Json) :
    Moved k (mapIds (k + ·)) (readTree levels v) (readTree levels v) :=
  .ite (moved_readNode levels false v) .failure

end Expression

/-! ## Property files -/

theorem Definition.moved_read {k : NodeId} (levels : Nat) (v : Json) :
    Moved k (mapIds (k + ·)) (read levels v) (read levels v) := by
  cases levels with
  | zero => exact .failure
  | succ levels =>
    unfold read
    refine (Expression.moved_readFields (Expression.moved_readTree levels) _ v).bind fun held => ?_
    rw [Expression.heldText_mapIds, Expression.heldSlot_mapIds]
    cases Expression.heldText held "name" with
    | none => exact .failure
    | some name => exact .pure (Definition.mk name (Expression.heldSlot held "expression"))

namespace PropertyModel

variable {k : NodeId}

theorem moved_readSection (levels : Nat) (v : Json) :
    Moved k (List.map (Definition.mapIds (k + ·))) (readSection levels v)
      (readSection levels v) := by
  unfold readSection
  split
  · exact .mapM (Definition.moved_read _)
  · exact .failure

theorem moved_read (levels : Nat) (v : Json) :
    Moved k (mapIds (k + ·)) (read levels v) (read levels v) := by
  cases levels with
  | zero => exact .failure
  | succ levels =>
    unfold read
    refine (Moved.inOrder (fun _ => moved_readSection levels) v).bind fun sections => ?_
    have named (name : String) :
        ((sections.map (Prod.map id (List.map (Definition.mapIds (k + ·))))).lookup name).getD [] =
          ((sections.lookup name).getD []).map (Definition.mapIds (k + ·)) := by
      rw [lookup_map_id]
      cases sections.lookup name <;> rfl
    dsimp only
    rw [named, named, named]
    exact .pure _

/-- **The check does not look at identities.** -/
theorem check_mapIds (given : NodeId → NodeId) (m : ActorModel) (p : PropertyModel) :
    (p.mapIds given).check m = (p.check m).map (mapIds given) := by
  have complaint (d : Definition) : complaint? m (d.mapIds given) = complaint? m d := by
    rw [complaint?_eq_find?, complaint?_eq_find?, Definition.mapIds,
      ← Expression.slotReferredNames_withoutIds, Expression.withoutIds_slotMapIds,
      Expression.slotReferredNames_withoutIds]
  rw [check, check, all_mapIds, List.findSome?_map, Function.comp_def, funext complaint]
  cases p.all.findSome? (complaint? m) <;> rfl

end PropertyModel

namespace Batch

variable {k : NodeId}

theorem moved_propertiesOfText (text : String) :
    Moved k (PropertyModel.mapIds (k + ·)) (propertiesOfText text) (propertiesOfText text) :=
  (PropertyModel.moved_read fileLevels _).bind fun p => .ite (.pure p) .failure

/-- **A property file holds the same whenever it is read,** but for the identities. -/
theorem shifted_readProperties (files : Files Id) (model : ActorModel) (path : String) :
    Shifted k (Except.map (PropertyModel.mapIds (k + ·))) (readProperties files model path)
      (readProperties files model path) := by
  refine (Shifted.liftM (files.readText path)).bind fun text => ?_
  cases text with
  | error cause => exact .pure (Except.error _)
  | ok text =>
    have reading : Shifted k (Option.map (PropertyModel.mapIds (k + ·)))
        (modifyGet (propertiesOfText text).run.run) (modifyGet (propertiesOfText text).run.run) :=
      moved_propertiesOfText text
    refine reading.bind fun loaded => ?_
    cases loaded with
    | none => exact .pure (Except.error _)
    | some p =>
      show Shifted k _ (Pure.pure (p.check model)) (Pure.pure ((p.mapIds (k + ·)).check model))
      rw [PropertyModel.check_mapIds]
      exact .pure (p.check model)

/-- What is compiled with identities that are given is what is compiled by itself. -/
theorem compile_allotted (files : Files Id) (given : Nat → NodeId) (source : BatchSource) :
    compile (allotted files given) source =
      ((compile (fileCompilers files) source).run 0).1.map (PropertyModel.mapIds given) := by
  unfold compile allotted fileCompilers
  dsimp only
  generalize readModel files source.model = read
  change Id (Except SourceError ActorModel) at read
  cases read <;> rfl

theorem shifted_compile (files : Files Id) (source : BatchSource) :
    Shifted k (Except.map (PropertyModel.mapIds (k + ·))) (compile (fileCompilers files) source)
      (compile (fileCompilers files) source) := by
  refine (Shifted.liftM (readModel files source.model)).bind fun model => ?_
  cases model with
  | error cause => exact .pure (Except.error _)
  | ok model => exact shifted_readProperties files model source.property

/-- **A batch compiles what its files hold,** with the identities that come next. -/
theorem compile_run_eq (files : Files Id) (source : BatchSource) (n : NodeId) :
    (compile (fileCompilers files) source).run n =
      (compile (allotted files (n + ·)) source, n + drawn files source) := by
  rw [compile_allotted]
  exact shifted_compile files source 0

/-- The identities that batches in order are given, from `n` on: each draws behind those before
it. -/
def givenInOrder (files : Files Id) : NodeId → List BatchSource → Nat → Nat → NodeId
  | n, source :: sources, k + 1, i => givenInOrder files (n + drawn files source) sources k i
  | n, _, _, i => n + i

theorem le_givenInOrder (files : Files Id) (n : NodeId) (sources : List BatchSource) (k i : Nat) :
    n ≤ givenInOrder files n sources k i := by
  induction sources generalizing n k with
  | nil => cases k <;> exact Nat.le_add_right n i
  | cons source sources ih =>
    cases k with
    | zero => exact Nat.le_add_right n i
    | succ k => exact Nat.le_trans (Nat.le_add_right n _) (ih _ k)

/-- **Batches in order are given no identity twice:** what a later one draws is behind all that an
earlier one has drawn. -/
theorem givenOnce_inOrder (files : Files Id) (n : NodeId) (sources : List BatchSource) :
    GivenOnce files sources (givenInOrder files n sources) := by
  induction sources generalizing n with
  | nil => exact fun _ _ _ _ stands => nomatch stands
  | cons first sources ih =>
    have behind {source : BatchSource} (stands : (first :: sources)[0]? = some source) {i : Nat}
        (inside : i < drawn files source) (k i' : Nat) :
        givenInOrder files n (first :: sources) 0 i <
          givenInOrder files n (first :: sources) (k + 1) i' := by
      obtain rfl := Option.some.inj stands
      exact Nat.lt_of_lt_of_le (Nat.add_lt_add_left inside n) (le_givenInOrder ..)
    intro k k' source source' stands stands' i inside i' inside' same
    cases k with
    | zero =>
      cases k' with
      | zero => exact ⟨rfl, Nat.add_left_cancel same⟩
      | succ k' => exact absurd same (Nat.ne_of_lt (behind stands inside k' i'))
    | succ k =>
      cases k' with
      | zero => exact absurd same.symm (Nat.ne_of_lt (behind stands' inside' k i))
      | succ k' =>
        obtain ⟨rfl, rfl⟩ := ih _ k k' source source' stands stands' i inside i' inside' same
        exact ⟨rfl, rfl⟩

end Batch
end ActorLtl
