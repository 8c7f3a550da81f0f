/-
# Every node draws an identity of its own

A reader draws an identity for each term and literal that it comes to and gives it to no other node,
also if it puts the fields of a node into another order than they are read in (`Draws`).  So the
nodes of a property file that is read have identities of their own (`Batch.drawn_compile`), and if
no identity is given twice in a run, no two nodes of its property models have the same one
(`Batch.GivenOnce.nodup`).
-/

import ActorLtl.Proofs.Allotment
import Mathlib.Data.List.Perm.Subperm
import Mathlib.Data.List.Nodup

namespace ActorLtl

open Expression (Numbering Holding FieldShape)

/-! ## Drawing -/

/-- Whether identities have been drawn before `next` is the next one, each for one node. -/
def Drawn (next : NodeId) (ids : List NodeId) : Prop := ids.Nodup ∧ ∀ id ∈ ids, id < next

theorem Drawn.subperm {next : NodeId} {ids ids' : List NodeId} (h : Drawn next ids)
    (sub : ids'.Subperm ids) : Drawn next ids' := by
  refine ⟨?_, fun id mem => h.2 id (sub.subset mem)⟩
  obtain ⟨kept, perm, sublist⟩ := sub
  exact perm.nodup_iff.1 (h.1.sublist sublist)

theorem Drawn.draw {next : NodeId} {ids : List NodeId} (h : Drawn next ids) :
    Drawn (next + 1) (ids ++ [next]) := by
  refine ⟨List.nodup_append.2 ⟨h.1, List.nodup_singleton next, ?_⟩, ?_⟩
  · rintro id mem _ last rfl
    rw [List.mem_singleton] at last
    exact absurd (h.2 id mem) (last ▸ Nat.lt_irrefl _)
  · intro id mem
    rcases List.mem_append.1 mem with mem | mem
    · exact Nat.lt_succ_of_lt (h.2 id mem)
    · rw [List.mem_singleton.1 mem]
      exact Nat.lt_succ_self next

section Draws

variable {α β γ : Type} {had : List NodeId} {ids : α → List NodeId} {ids' : β → List NodeId}

/-- Whether, begun when some identities have been drawn, a reader has drawn those of what it gives:
each for one node, and after the others. -/
def Draws (had : List NodeId) (ids : α → List NodeId) (x : Numbering α) : Prop :=
  ∀ n a, Drawn n had → (x.run.run n).1 = some a → Drawn (x.run.run n).2 (ids a)

namespace Draws

theorem pure {a : α} (sub : (ids a).Subperm had) : Draws had ids (Pure.pure a) := by
  rintro n _ h given
  obtain rfl := Option.some.inj given
  exact h.subperm sub

theorem failure : Draws had ids failure := fun _ _ _ given => nomatch given

theorem bind {x : Numbering α} {f : α → Numbering β} (first : Draws had ids x)
    (next : ∀ a, Draws (ids a) ids' (f a)) : Draws had ids' (x >>= f) := by
  intro n b h given
  have steps : (x >>= f).run.run n =
      ((x.run.run n).1.elim (Pure.pure none) fun a => (f a).run).run (x.run.run n).2 := by
    rw [OptionT.run_bind, Option.elimM, StateT.run_bind]
    rfl
  rw [steps] at given ⊢
  cases read : (x.run.run n).1 with
  | none =>
    rw [read] at given
    cases given
  | some a =>
    rw [read] at given
    exact next a _ b (first n a h read) given

theorem ite {c : Prop} [Decidable c] {x y : Numbering α} (yes : Draws had ids x)
    (no : Draws had ids y) : Draws had ids (if c then x else y) := by
  split
  · exact yes
  · exact no

theorem mapM {items : List β} {f : β → Numbering α}
    (each : ∀ item had, Draws had (fun a => had ++ ids a) (f item)) (had : List NodeId) :
    Draws had (fun as => had ++ as.flatMap ids) (items.mapM f) := by
  induction items generalizing had with
  | nil =>
    refine .pure ?_
    show (had ++ []).Subperm had
    rw [List.append_nil]
  | cons item items ih =>
    rw [List.mapM_cons]
    refine (each item had).bind fun a => (ih (had ++ ids a)).bind fun as => .pure ?_
    rw [List.flatMap_cons, List.append_assoc]

theorem inOrder {names : List String} {field : String → Json → Numbering α}
    (each : ∀ name v had, Draws had (fun a => had ++ ids a) (field name v)) (v : Json)
    (had : List NodeId) :
    Draws had (fun taken => had ++ taken.flatMap fun entry => ids entry.2)
      (Decoder.inOrder names field v) := by
  unfold Decoder.inOrder
  cases Decoder.Entries.of? names v with
  | none => exact .failure
  | some entries =>
    refine Draws.bind (.mapM (fun entry had => ?_) had) fun taken => .ite (.pure (.refl _)) .failure
    exact (each entry.1 entry.2 had).bind fun a => .pure (.refl _)

end Draws

/-- **What stands under different names** stands at different places. -/
theorem lookups_subperm (f : α → List β) (entries : List (String × α)) {names : List String}
    (distinct : names.Nodup) :
    (names.flatMap fun name => ((entries.lookup name).map f).getD []).Subperm
      (entries.flatMap fun entry => f entry.2) := by
  induction entries generalizing names with
  | nil => simp
  | cons entry entries ih =>
    obtain ⟨key, a⟩ := entry
    have other {name : String} (differs : name ≠ key) :
        ((key, a) :: entries).lookup name = entries.lookup name := by
      rw [List.lookup_cons, beq_false_of_ne differs]
    rw [List.flatMap_cons]
    by_cases mem : key ∈ names
    · have apart {name : String} (left : name ∈ names.erase key) : name ≠ key :=
        fun same => (distinct.mem_erase_iff.1 left).1 same
      refine ((List.perm_cons_erase mem).flatMap_right _).subperm.trans ?_
      rw [List.flatMap_cons, List.lookup_cons_self, List.flatMap_congr fun name left => by
        rw [other (apart left)]]
      exact (List.Subperm.refl _).append (ih (distinct.erase key))
    · rw [List.flatMap_congr fun name there => by
        rw [other fun same => mem (same ▸ there)]]
      exact (ih distinct).trans (List.sublist_append_right _ _).subperm

end Draws

/-! ## Trees -/

namespace Expression

theorem listIds_eq_flatMap (es : List Expression) : listIds es = es.flatMap ids := by
  induction es with
  | nil => rfl
  | cons e es ih => rw [listIds, ih, List.flatMap_cons]

/-- The identities in what a field holds. -/
def Holding.ids : Holding → List NodeId
  | text _ => []
  | slot operand => slotIds operand
  | list operands => (operands.map listIds).getD []

variable {node : Json → Numbering Expression}

theorem draws_readField (operand : ∀ v had, Draws had (fun e => had ++ e.ids) (node v))
    (shape : FieldShape) (v : Json) (had : List NodeId) :
    Draws had (fun holding => had ++ holding.ids) (readField node shape v) := by
  have items (vs : List Json) : Draws had (fun es => had ++ listIds es) (vs.mapM node) := by
    rw [funext listIds_eq_flatMap]
    exact .mapM operand had
  have nothing : (had ++ []).Subperm had := by rw [List.append_nil]
  unfold readField
  split
  · exact .pure nothing
  · exact .pure nothing
  · exact .pure nothing
  · exact .pure nothing
  · exact (operand v had).bind fun e => .pure (.refl _)
  · exact (items _).bind fun es => .pure (.refl _)
  · exact (items _).bind fun es => .pure (.refl _)
  · exact .pure nothing
  · exact .failure

theorem draws_readFields (operand : ∀ v had, Draws had (fun e => had ++ e.ids) (node v))
    (fields : List (String × FieldShape)) (v : Json) (had : List NodeId) :
    Draws had (fun held => had ++ held.flatMap fun entry => entry.2.ids)
      (readFields node fields v) := by
  refine .inOrder (fun name v had => ?_) v had
  cases fields.lookup name with
  | none => exact .failure
  | some shape => exact draws_readField operand shape v had

section Held

variable (held : List (String × Holding))

/-- The identities under a name. -/
def heldIds (name : String) : List NodeId := ((held.lookup name).map Holding.ids).getD []

theorem slotIds_heldSlot (name : String) :
    (slotIds (heldSlot held name)).Subperm (heldIds held name) := by
  rw [heldSlot, heldIds]
  rcases held.lookup name with _ | _ | operand | _
  · exact List.nil_subperm
  · exact List.nil_subperm
  · exact .refl _
  · exact List.nil_subperm

theorem listIds_heldList (name : String) :
    (listIds ((heldList held name).getD [])).Subperm (heldIds held name) := by
  rw [heldList, heldIds]
  rcases held.lookup name with _ | _ | _ | operands
  · exact List.nil_subperm
  · exact List.nil_subperm
  · exact List.nil_subperm
  · cases operands <;> exact .refl _

/-- The identity that is drawn for a node of this kind. -/
def ownIds (kind : String) (identity : NodeId) : List NodeId :=
  if kind = "term" ∨ kind = "literal" then [identity] else []

/-- **A node has the identities of its fields and its own.** -/
theorem ids_subperm_of_ofHeld? {identity : NodeId} {kind : String} {e : Expression}
    (built : ofHeld? identity kind held = some e) :
    e.ids.Subperm ((held.flatMap fun entry => entry.2.ids) ++ ownIds kind identity) := by
  have fields {names : List String} (distinct : names.Nodup) {given : List NodeId}
      (sub : given.Subperm (names.flatMap (heldIds held))) {own : List NodeId} :
      given.Subperm ((held.flatMap fun entry => entry.2.ids) ++ own) :=
    (sub.trans (lookups_subperm Holding.ids held distinct)).trans
      (List.sublist_append_left _ _).subperm
  have one {name : String} {slot : List NodeId} (sub : slot.Subperm (heldIds held name)) :
      slot.Subperm ([name].flatMap (heldIds held)) := by
    rw [List.flatMap_singleton]
    exact sub
  have more {name : String} {names : List String} {slot others : List NodeId}
      (sub : slot.Subperm (heldIds held name))
      (sub' : others.Subperm (names.flatMap (heldIds held))) :
      (slot ++ others).Subperm ((name :: names).flatMap (heldIds held)) :=
    sub.append sub'
  unfold ofHeld? at built
  split at built
  · obtain ⟨operator, -, rfl⟩ := Option.map_eq_some_iff.1 built
    exact fields (by decide)
      (more (slotIds_heldSlot held "left") (one (slotIds_heldSlot held "right")))
  · obtain ⟨operator, -, rfl⟩ := Option.map_eq_some_iff.1 built
    exact fields (by decide) (one (slotIds_heldSlot held "operand"))
  · obtain rfl := Option.some.inj built
    exact fields (by decide)
      (more (slotIds_heldSlot held "left") (one (slotIds_heldSlot held "right")))
  · obtain rfl := Option.some.inj built
    have inside := listIds_heldList held "arguments"
    cases found : heldList held "arguments" with
    | none => exact (List.sublist_append_right _ _).subperm
    | some arguments =>
      rw [found] at inside
      exact ((one inside).trans (lookups_subperm Holding.ids held (by decide))).append (.refl _)
  · obtain rfl := Option.some.inj built
    exact (List.sublist_append_right _ _).subperm
  · obtain rfl := Option.some.inj built
    exact fields (by decide) (more (slotIds_heldSlot held "condition")
      (more (slotIds_heldSlot held "then_expr") (one (slotIds_heldSlot held "else_expr"))))
  · obtain rfl := Option.some.inj built
    exact fields (by decide) (one (slotIds_heldSlot held "expression"))
  · obtain ⟨targetType, -, rfl⟩ := Option.map_eq_some_iff.1 built
    exact fields (by decide) (one (slotIds_heldSlot held "expression"))
  · obtain ⟨typeName, -, rfl⟩ := Option.map_eq_some_iff.1 built
    exact fields (by decide) (one (slotIds_heldSlot held "expression"))
  · obtain rfl := Option.some.inj built
    exact fields (by decide) (one (listIds_heldList held "choices"))
  · cases built

end Held

theorem draws_identityOf (kind : String) (had : List NodeId) :
    Draws had (fun identity => had ++ ownIds kind identity) (liftM (identityOf kind)) := by
  unfold identityOf ownIds
  split
  · rintro n _ h given
    obtain rfl := Option.some.inj given
    exact h.draw
  · refine .pure ?_
    rw [List.append_nil]

/-- **Every node of a tree draws an identity of its own,** by induction on the levels that are
left. -/
theorem draws_readNode (levels : Nat) (nested : Bool) (v : Json) (had : List NodeId) :
    Draws had (fun e => had ++ e.ids) (readNode levels nested v) := by
  induction levels generalizing nested v had with
  | zero => exact .failure
  | succ levels ih =>
    have operands := draws_readFields (ih true)
    unfold readNode
    cases untag? v with
    | none => exact .failure
    | some tagged =>
      obtain ⟨tag, node⟩ := tagged
      dsimp only
      cases kindOfTag? nested tag with
      | none => exact .failure
      | some found =>
        obtain ⟨kind, fields⟩ := found
        dsimp only
        split
        -- The node's own identity is drawn before those of its fields,
        · refine (draws_identityOf kind had).bind fun identity => ?_
          refine (operands fields _ _).bind fun held => ?_
          cases built : ofHeld? identity kind held with
          | none => exact .failure
          | some e =>
            refine .pure ?_
            rw [List.append_assoc]
            exact (List.Subperm.refl had).append
              ((ids_subperm_of_ofHeld? held built).trans List.perm_append_comm.subperm)
        -- or after them.
        · refine (operands fields _ had).bind fun held => ?_
          refine (draws_identityOf kind _).bind fun identity => ?_
          cases built : ofHeld? identity kind held with
          | none => exact .failure
          | some e =>
            refine .pure ?_
            rw [List.append_assoc]
            exact (List.Subperm.refl had).append (ids_subperm_of_ofHeld? held built)

theorem draws_readTree (levels : Nat) (v : Json) (had : List NodeId) :
    Draws had (fun e => had ++ e.ids) (readTree levels v) :=
  .ite (draws_readNode levels false v had) .failure

end Expression

/-! ## Property files -/

theorem Definition.draws_read (levels : Nat) (v : Json) (had : List NodeId) :
    Draws had (fun d => had ++ d.ids) (read levels v) := by
  cases levels with
  | zero => exact .failure
  | succ levels =>
    unfold read
    refine (Expression.draws_readFields (Expression.draws_readTree levels) _ v had).bind
      fun held => ?_
    cases Expression.heldText held "name" with
    | none => exact .failure
    | some name =>
      have inside := lookups_subperm Holding.ids held (List.nodup_singleton "expression")
      rw [List.flatMap_singleton] at inside
      exact .pure ((List.Subperm.refl had).append
        ((Expression.slotIds_heldSlot held "expression").trans inside))

namespace PropertyModel

theorem draws_readSection (levels : Nat) (v : Json) (had : List NodeId) :
    Draws had (fun ds => had ++ ds.flatMap Definition.ids) (readSection levels v) := by
  unfold readSection
  split
  · exact .mapM (Definition.draws_read _) had
  · exact .failure

theorem draws_read (levels : Nat) (v : Json) (had : List NodeId) :
    Draws had (fun p => had ++ p.ids) (read levels v) := by
  cases levels with
  | zero => exact .failure
  | succ levels =>
    unfold read
    refine (Draws.inOrder (fun _ => draws_readSection levels) v had).bind fun sections => ?_
    refine .pure ((List.Subperm.refl had).append ?_)
    have distinct : ["definitions", "ltl_definitions", "assertion_definitions"].Nodup := by decide
    have named (name : String) : ((sections.lookup name).map (·.flatMap Definition.ids)).getD [] =
        ((sections.lookup name).getD []).flatMap Definition.ids := by
      cases sections.lookup name <;> rfl
    have inside := lookups_subperm (·.flatMap Definition.ids) sections distinct
    simp only [named, List.flatMap_cons, List.flatMap_nil, List.append_nil] at inside
    rw [ids, all, List.flatMap_append, List.flatMap_append, List.append_assoc]
    exact inside

end PropertyModel

namespace Batch

theorem draws_propertiesOfText (text : String) :
    Draws [] PropertyModel.ids (propertiesOfText text) :=
  (PropertyModel.draws_read fileLevels _ []).bind fun _ => .ite (.pure (.refl _)) .failure

/-- Whether the property models that a program gives have drawn all their identities, each for one
node. -/
def Numbers (x : StateT NodeId Id (Except SourceError PropertyModel)) : Prop :=
  ∀ p, (x.run 0).1 = .ok p → Drawn (x.run 0).2 p.ids

namespace Numbers

variable {α : Type} {cause : SourceError}

theorem error : Numbers (pure (.error cause)) := fun _ given => nomatch given

theorem liftM_bind (x : Id α) {f : α → StateT NodeId Id (Except SourceError PropertyModel)}
    (next : ∀ a, Numbers (f a)) : Numbers ((liftM x : StateT NodeId Id α) >>= f) := next x

theorem readProperties (files : Files Id) (model : ActorModel) (path : String) :
    Numbers (Batch.readProperties files model path) := by
  refine liftM_bind (files.readText path) fun text => ?_
  cases text with
  | error cause => exact .error
  | ok text =>
    intro p
    have steps (f : Option PropertyModel → StateT NodeId Id (Except SourceError PropertyModel)) :
        (modifyGet (propertiesOfText text).run.run >>= f).run 0 =
          (f ((propertiesOfText text).run.run 0).1).run ((propertiesOfText text).run.run 0).2 := rfl
    dsimp only
    rw [steps]
    cases loaded : ((propertiesOfText text).run.run 0).1 with
    | none => exact fun given => nomatch given
    | some p' =>
      intro given
      obtain rfl := PropertyModel.eq_of_check_eq_ok given
      exact draws_propertiesOfText text 0 p ⟨.nil, fun _ mem => nomatch mem⟩ loaded

theorem compile (files : Files Id) (source : BatchSource) :
    Numbers (Batch.compile (fileCompilers files) source) := by
  refine liftM_bind (readModel files source.model) fun model => ?_
  cases model with
  | error cause => exact .error
  | ok model => exact readProperties files model source.property

end Numbers

theorem compiledIds_map (given : NodeId → NodeId) (result : Except SourceError PropertyModel) :
    compiledIds (result.map (PropertyModel.mapIds given)) = (compiledIds result).map given := by
  cases result with
  | error cause => rfl
  | ok p => exact p.ids_mapIds given

/-- **What is compiled has drawn all its identities,** each for one node. -/
theorem drawn_compile (files : Files Id) (source : BatchSource) :
    Drawn (drawn files source) (compiledIds ((compile (fileCompilers files) source).run 0).1) := by
  have numbered := Numbers.compile files source
  cases compiled : ((compile (fileCompilers files) source).run 0).1 with
  | error cause => exact ⟨.nil, fun _ mem => nomatch mem⟩
  | ok p => exact numbered p compiled

/-- **If no identity is given twice in a run,** no two nodes of its property models have the same
one. -/
theorem GivenOnce.nodup {files : Files Id} {sources : List BatchSource} {given : Nat → Nat → NodeId}
    (once : GivenOnce files sources given) :
    (sources.mapIdx fun k source =>
      compiledIds (compile (allotted files (given k)) source)).flatten.Nodup := by
  have numbered (k : Nat) (source : BatchSource) :
      compiledIds (compile (allotted files (given k)) source) =
        (compiledIds ((compile (fileCompilers files) source).run 0).1).map (given k) := by
    rw [compile_allotted, compiledIds_map]
  simp only [numbered]
  rw [List.nodup_flatten]
  refine ⟨fun ids mem => ?_, List.pairwise_iff_getElem.2 fun k k' inside inside' before => ?_⟩
  · obtain ⟨k, inside, rfl⟩ := List.mem_mapIdx.1 mem
    have own := drawn_compile files sources[k]
    refine own.1.map_on fun i drawn i' drawn' same => ?_
    have stands := List.getElem?_eq_getElem inside
    exact (once k k _ _ stands stands i (own.2 i drawn) i' (own.2 i' drawn') same).2
  · rw [List.length_mapIdx] at inside inside'
    rw [List.getElem_mapIdx, List.getElem_mapIdx]
    intro id mem mem'
    obtain ⟨i, drawn, rfl⟩ := List.mem_map.1 mem
    obtain ⟨i', drawn', same⟩ := List.mem_map.1 mem'
    have apart := (once k k' _ _ (List.getElem?_eq_getElem inside)
      (List.getElem?_eq_getElem inside') i ((drawn_compile files _).2 i drawn) i'
      ((drawn_compile files _).2 i' drawn') same.symm).1
    exact absurd apart (Nat.ne_of_lt before)

end Batch
end ActorLtl
