/-
# Loading what has been written

The text of a model is loaded as the model, and that of a property model that fits as the property
model with the identities that come next (`Batch.modelOfText?_write`,
`Batch.propertiesOfText_write`).
-/

import ActorLtl.Batch.Source
import ActorLtl.Expression.Renumbering
import ActorLtl.Proofs.Identities
import ActorLtl.Proofs.Reading
import ActorLtl.Proofs.Taking

namespace ActorLtl

open Expression (Numbering)

/-- A record's known fields, each once, are taken in one after the other. -/
theorem Decoder.inOrder_object {m : Type → Type} [Monad m] [LawfulMonad m] {α : Type}
    {names : List String} {field : String → Json → OptionT m α} {members : List (String × Json)}
    (keys : (members.map Prod.fst).Sublist names) (once : names.Nodup)
    (plain : ∀ member ∈ members, member.2.IsPlain) :
    inOrder names field (.object members) =
      members.mapM fun member => return (member.1, ← field member.1 member.2) := by
  have known : ∀ member ∈ members, member.1 ∈ names := fun member mem =>
    keys.subset (List.mem_map_of_mem mem)
  have entries : Entries.ofMembers names [] members = ⟨members, true⟩ :=
    Entries.ofMembers_eq known (keys.nodup once) (fun _ _ => List.not_mem_nil) plain
  simp [inOrder, Entries.of?, entries]

namespace Expression

/-! ## Fields -/

/-- Takes in one member of an object. -/
def takeMember (node : Json → Numbering Expression) (fields : List (String × FieldShape))
    (member : String × Json) : Numbering (String × Holding) := do
  let some shape := fields.lookup member.1 | failure
  let holding ← readField node shape member.2
  return (member.1, holding)

theorem readFields_object {node : Json → Numbering Expression}
    {fields : List (String × FieldShape)} {members : List (String × Json)}
    (keys : (members.map Prod.fst).Sublist (fields.map Prod.fst))
    (once : (fields.map Prod.fst).Nodup) (plain : ∀ member ∈ members, member.2.IsPlain) :
    readFields node fields (.object members) = members.mapM (takeMember node fields) := by
  rw [readFields, Decoder.inOrder_object keys once plain]
  congr 1
  funext member
  rw [takeMember]
  cases fields.lookup member.1 <;> simp

/-- A node is never taken for a missing operand. -/
theorem readField_slot_toJson (node : Json → Numbering Expression) (e : Expression) :
    readField node .slot e.toJson = (do return .slot (some (← node e.toJson))) := by
  cases e with
  | term _ _ arguments => cases arguments <;> simp [readField, toJson]
  | _ => simp [readField, toJson]

/-- What a slot's member holds. -/
def heldOfSlot (name : String) (slot : Option Expression) : List (String × Holding) :=
  (slot.map fun e => (name, .slot (some e))).toList

/-- What a text's member holds. -/
def heldOfText (name : String) (content : Option String) : List (String × Holding) :=
  (content.map fun content => (name, .text (some content))).toList

/-- Whether `members` are fields out of `names`, in this order, and are taken in as `held` says. -/
structure Taken (node : Json → Numbering Expression) (fields : List (String × FieldShape))
    (names : List String) (members : List (String × Json))
    (held : StateM NodeId (List (String × Holding))) : Prop where
  keys : (members.map Prod.fst).Sublist names
  run : members.mapM (takeMember node fields) = liftM held

namespace Taken

variable {node : Json → Numbering Expression} {fields : List (String × FieldShape)}
  {name : String} {names names' : List String} {members members' : List (String × Json)}
  {held held' : StateM NodeId (List (String × Holding))}

theorem text (found : fields.lookup name = some .text) (content : String)
    (rest : Taken node fields names members held) :
    Taken node fields (name :: names) ((name, .text content) :: members)
      (do return (name, .text (some content)) :: (← held)) where
  keys := rest.keys.cons_cons name
  run := by
    simp [takeMember, found, readField, rest.run]

theorem optionalText (found : fields.lookup name = some .optionalText) (content : Option String) :
    Taken node fields [name] (slotMember name (content.map .text))
      (pure (heldOfText name content)) where
  keys := by cases content <;> simp [slotMember]
  run := by cases content <;> simp [slotMember, heldOfText, takeMember, found, readField]

/-- A slot is taken in as the node in it. -/
theorem slot (found : fields.lookup name = some .slot) {slot : Option Expression}
    (operand : ∀ e, slot = some e → node e.toJson = liftM (renumber e)) :
    Taken node fields [name] (slotMember name (slotToJson slot))
      (do return heldOfSlot name (← renumberSlot slot)) where
  keys := by cases slot <;> simp [slotMember, slotToJson]
  run := by
    cases slot with
    | none => simp [slotMember, slotToJson, renumberSlot, heldOfSlot]
    | some e =>
      simp [slotMember, slotToJson, renumberSlot, heldOfSlot, takeMember, found,
        readField_slot_toJson, operand e rfl]

theorem list (found : fields.lookup name = some .list) {es : List Expression}
    (operands : (listToJson es).mapM node = liftM (renumberList es)) :
    Taken node fields [name] [(name, .array (listToJson es))]
      (do return [(name, .list (some (← renumberList es)))]) where
  keys := by simp
  run := by simp [takeMember, found, readField, operands]

theorem optionalList (found : fields.lookup name = some .optionalList) {es : List Expression}
    (operands : (listToJson es).mapM node = liftM (renumberList es)) :
    Taken node fields [name] [(name, .array (listToJson es))]
      (do return [(name, .list (some (← renumberList es)))]) where
  keys := by simp
  run := by simp [takeMember, found, readField, operands]

theorem append (h : Taken node fields names members held)
    (h' : Taken node fields names' members' held') :
    Taken node fields (names ++ names') (members ++ members')
      (do
        let first ← held
        let more ← held'
        return first ++ more) where
  keys := by
    rw [List.map_append]
    exact h.keys.append h'.keys
  run := by simp [h.run, h'.run]

theorem weaken (h : Taken node fields names members held) (sub : names.Sublist names') :
    Taken node fields names' members held where
  keys := h.keys.trans sub
  run := h.run

/-- **The fields of an object** are taken in one after the other. -/
theorem readFields_eq (h : Taken node fields names members held)
    (all : names = fields.map Prod.fst) (once : names.Nodup)
    (plain : ∀ member ∈ members, member.2.IsPlain) :
    readFields node fields (.object members) = liftM held := by
  subst all
  rw [readFields_object h.keys once plain, h.run]

end Taken

/-! ## Nodes -/

mutual
theorem isPlain_toJson : (e : Expression) → e.toJson.IsPlain
  | binary _ left right => by
      simpa [toJson, or_imp, forall_and] using
        ⟨isPlain_slotMember left _, isPlain_slotMember right _⟩
  | unary _ operand => by simpa [toJson] using isPlain_slotMember operand _
  | member left right => by
      simpa [toJson, or_imp, forall_and] using
        ⟨isPlain_slotMember left _, isPlain_slotMember right _⟩
  | term _ name none => by cases name <;> simp [toJson, slotMember]
  | term _ name (some arguments) => by
      cases name <;> simpa [toJson, slotMember] using isPlain_listToJson arguments
  | literal _ value => by cases value <;> simp [toJson, slotMember]
  | ternary condition thenPart elsePart => by
      simpa [toJson, or_imp, forall_and] using ⟨isPlain_slotMember condition _,
        isPlain_slotMember thenPart _, isPlain_slotMember elsePart _⟩
  | group inner => by simpa [toJson] using isPlain_slotMember inner _
  | cast _ inner => by simpa [toJson] using isPlain_slotMember inner _
  | typeTest _ inner => by simpa [toJson] using isPlain_slotMember inner _
  | choice choices => by simpa [toJson] using isPlain_listToJson choices
theorem isPlain_slotMember : (slot : Option Expression) → ∀ (name key : String) (v : Json),
    (key, v) ∈ slotMember name (slotToJson slot) → v.IsPlain
  | none => by simp [slotMember, slotToJson]
  | some e => by simpa [slotMember, slotToJson] using isPlain_toJson e
theorem isPlain_listToJson : (es : List Expression) → ∀ v ∈ listToJson es, v.IsPlain
  | [] => by simp [listToJson]
  | e :: es => by simpa [listToJson] using ⟨isPlain_toJson e, isPlain_listToJson es⟩
end

/-- The fields of a node's kind. -/
def fields (e : Expression) : List (String × FieldShape) := (kindFields.lookup e.kind).getD []

theorem lookup_kindFields (e : Expression) : kindFields.lookup e.kind = some e.fields := by
  cases e <;> rfl

/-- No field is called like the tag, and no two fields of a node have one name. -/
theorem fields_distinct (e : Expression) :
    "kind" ∉ e.fields.map Prod.fst ∧ (e.fields.map Prod.fst).Nodup := by
  have distinct : ∀ entry ∈ kindFields,
      "kind" ∉ entry.2.map Prod.fst ∧ (entry.2.map Prod.fst).Nodup := by decide
  obtain ⟨before, after, split, -⟩ := List.lookup_eq_some_iff.1 (lookup_kindFields e)
  exact distinct (e.kind, e.fields) (split ▸ List.mem_append_right before List.mem_cons_self)

/-- **A node is taken in by its fields.**  It is renumbered if its parts are, and if they and its
own new identity make up the renumbered node. -/
theorem readNode_of_taken {e : Expression} {members : List (String × Json)} {levels : Nat}
    {held : StateM NodeId (List (String × Holding))}
    (h : Taken (readNode levels true) e.fields (e.fields.map Prod.fst) members held)
    (written : e.toJson = .object (("kind", .text e.kind) :: members))
    (built : (do
      let held ← held
      let id ← identityOf e.kind
      return ofHeld? id e.kind held) = some <$> renumber e) (nested : Bool) :
    readNode (levels + 1) nested e.toJson = liftM (renumber e) := by
  obtain ⟨noTag, once⟩ := fields_distinct e
  have plain := isPlain_toJson e
  rw [written, Json.isPlain_object, List.forall_mem_cons] at plain
  have others : ∀ member ∈ members, member.1 ≠ "kind" := fun member mem same =>
    noTag (same ▸ h.keys.subset (List.mem_map_of_mem mem))
  have tags : members.filter (·.1 == "kind") = [] :=
    List.filter_eq_nil_iff.2 fun member mem => by simpa using others member mem
  have rest : members.filter (·.1 != "kind") = members :=
    List.filter_eq_self.2 fun member mem => by simpa using others member mem
  have untagged : untag? e.toJson = some (.text e.kind, .object members) := by
    simp [written, untag?, tags, rest]
  have kind : kindOfTag? nested (.text e.kind) = some (e.kind, e.fields) := by
    rw [kindOfTag?, lookup_kindFields]
    rfl
  have fieldwise : readNode (levels + 1) nested e.toJson = (do
      let held ← (liftM held : Numbering _)
      let id ← (liftM (identityOf e.kind) : Numbering _)
      OptionT.mk (pure (ofHeld? id e.kind held))) := by
    rw [readNode, untagged]
    simp only [kind, h.readFields_eq rfl once plain.2]
    refine bind_congr fun held => bind_congr fun id => ?_
    cases ofHeld? id e.kind held <;> rfl
  rw [fieldwise]
  refine OptionT.ext ?_
  refine Eq.trans ?_ built
  simp only [OptionT.run_bind, OptionT.run_monadLift, monadLift_self, Option.elimM_map,
    Option.elim_some, OptionT.run_mk]

mutual
/-- **What is written of an expression is read as the expression, renumbered.** -/
theorem readNode_toJson : (e : Expression) → (levels : Nat) → (nested : Bool) → e.nesting ≤ levels →
    readNode levels nested e.toJson = liftM (renumber e)
  | e, 0, _, fits => by
      rw [nesting_eq_children] at fits
      omega
  | binary operator left right, levels + 1, nested, fits => by
      rw [nesting] at fits
      refine readNode_of_taken (.text rfl operator (.append
        (.slot rfl (readNode_slot left levels (by omega)))
        (.slot rfl (readNode_slot right levels (by omega))))) rfl ?_ nested
      simp only [renumber, bind_assoc, pure_bind, map_eq_pure_bind]
      refine bind_congr fun left => bind_congr fun right => ?_
      cases left <;> cases right <;> rfl
  | unary operator operand, levels + 1, nested, fits => by
      rw [nesting] at fits
      refine readNode_of_taken (.text rfl operator
        (.slot rfl (readNode_slot operand levels (by omega)))) rfl ?_ nested
      simp only [renumber, bind_assoc, pure_bind, map_eq_pure_bind]
      refine bind_congr fun operand => ?_
      cases operand <;> rfl
  | member left right, levels + 1, nested, fits => by
      rw [nesting] at fits
      refine readNode_of_taken (.append
        (.slot rfl (readNode_slot left levels (by omega)))
        (.slot rfl (readNode_slot right levels (by omega)))) rfl ?_ nested
      simp only [renumber, bind_assoc, pure_bind, map_eq_pure_bind]
      refine bind_congr fun left => bind_congr fun right => ?_
      cases left <;> cases right <;> rfl
  | term _ name none, levels + 1, nested, fits => by
      refine readNode_of_taken (.weaken (.optionalText rfl name)
        (List.sublist_append_left ["name"] ["arguments"])) rfl ?_ nested
      cases name <;> rfl
  | term _ name (some arguments), levels + 1, nested, fits => by
      rw [nesting] at fits
      refine readNode_of_taken (.append (.optionalText rfl name)
        (.optionalList rfl (mapM_readNode arguments levels (by omega)))) rfl ?_ nested
      simp only [renumber, bind_assoc, pure_bind, map_eq_pure_bind]
      refine bind_congr fun arguments => ?_
      cases name <;> rfl
  | literal _ value, levels + 1, nested, fits => by
      refine readNode_of_taken (.optionalText rfl value) rfl ?_ nested
      cases value <;> rfl
  | ternary condition thenPart elsePart, levels + 1, nested, fits => by
      rw [nesting] at fits
      refine readNode_of_taken (.append (.append
        (.slot rfl (readNode_slot condition levels (by omega)))
        (.slot rfl (readNode_slot thenPart levels (by omega))))
        (.slot rfl (readNode_slot elsePart levels (by omega)))) rfl ?_ nested
      simp only [renumber, bind_assoc, pure_bind, map_eq_pure_bind]
      refine bind_congr fun condition => bind_congr fun thenPart => bind_congr fun elsePart => ?_
      cases condition <;> cases thenPart <;> cases elsePart <;> rfl
  | group inner, levels + 1, nested, fits => by
      rw [nesting] at fits
      refine readNode_of_taken (.slot rfl (readNode_slot inner levels (by omega))) rfl ?_ nested
      simp only [renumber, bind_assoc, pure_bind, map_eq_pure_bind]
      refine bind_congr fun inner => ?_
      cases inner <;> rfl
  | cast targetType inner, levels + 1, nested, fits => by
      rw [nesting] at fits
      refine readNode_of_taken (.text rfl targetType
        (.slot rfl (readNode_slot inner levels (by omega)))) rfl ?_ nested
      simp only [renumber, bind_assoc, pure_bind, map_eq_pure_bind]
      refine bind_congr fun inner => ?_
      cases inner <;> rfl
  | typeTest typeName inner, levels + 1, nested, fits => by
      rw [nesting] at fits
      refine readNode_of_taken (.text rfl typeName
        (.slot rfl (readNode_slot inner levels (by omega)))) rfl ?_ nested
      simp only [renumber, bind_assoc, pure_bind, map_eq_pure_bind]
      refine bind_congr fun inner => ?_
      cases inner <;> rfl
  | choice choices, levels + 1, nested, fits => by
      rw [nesting] at fits
      refine readNode_of_taken (.list rfl (mapM_readNode choices levels (by omega))) rfl ?_ nested
      simp only [renumber, bind_assoc, pure_bind, map_eq_pure_bind]
      rfl
/-- What stands in a slot is read as a node. -/
theorem readNode_slot : (slot : Option Expression) → (levels : Nat) → slotNesting slot ≤ levels →
    ∀ e, slot = some e → readNode levels true e.toJson = liftM (renumber e)
  | none, _, _ => nofun
  | some e, levels, fits => fun _ same => by
      cases same
      exact readNode_toJson e levels true fits
theorem mapM_readNode : (es : List Expression) → (levels : Nat) → listNesting es ≤ levels →
    (listToJson es).mapM (readNode levels true) = liftM (renumberList es)
  | [], _, _ => by simp [listToJson, renumberList]
  | e :: es, levels, fits => by
      rw [listNesting] at fits
      simp [listToJson, renumberList, readNode_toJson e levels true (by omega),
        mapM_readNode es levels (by omega)]
end

/-! ## Trees -/

theorem memberNesting_append (members more : List (String × Json)) :
    Json.memberNesting (members ++ more) =
      max (Json.memberNesting members) (Json.memberNesting more) := by
  induction members with
  | nil => simp [Json.memberNesting]
  | cons member members ih =>
    rw [List.cons_append, Json.memberNesting, Json.memberNesting, ih, Nat.max_assoc]

mutual
/-- An expression is written with at least a level for each of its own. -/
theorem nesting_le_nesting_toJson : (e : Expression) → e.nesting ≤ e.toJson.nesting
  | binary _ left right => by
      have ofLeft := slotNesting_le left "left"
      have ofRight := slotNesting_le right "right"
      simp only [nesting, toJson, Json.nesting, Json.memberNesting, memberNesting_append]
      omega
  | unary _ operand => by
      have ofOperand := slotNesting_le operand "operand"
      simp only [nesting, toJson, Json.nesting, Json.memberNesting]
      omega
  | member left right => by
      have ofLeft := slotNesting_le left "left"
      have ofRight := slotNesting_le right "right"
      simp only [nesting, toJson, Json.nesting, Json.memberNesting, memberNesting_append]
      omega
  | term _ _ none => by
      simp only [nesting, toJson, Json.nesting]
      omega
  | term _ _ (some arguments) => by
      have ofArguments := listNesting_le arguments
      simp only [nesting, toJson, Json.nesting, Json.memberNesting, memberNesting_append]
      omega
  | literal _ _ => by
      simp only [nesting, toJson, Json.nesting]
      omega
  | ternary condition thenPart elsePart => by
      have ofCondition := slotNesting_le condition "condition"
      have ofThen := slotNesting_le thenPart "then_expr"
      have ofElse := slotNesting_le elsePart "else_expr"
      simp only [nesting, toJson, Json.nesting, Json.memberNesting, memberNesting_append]
      omega
  | group inner => by
      have ofInner := slotNesting_le inner "expression"
      simp only [nesting, toJson, Json.nesting, Json.memberNesting]
      omega
  | cast _ inner => by
      have ofInner := slotNesting_le inner "expression"
      simp only [nesting, toJson, Json.nesting, Json.memberNesting]
      omega
  | typeTest _ inner => by
      have ofInner := slotNesting_le inner "expression"
      simp only [nesting, toJson, Json.nesting, Json.memberNesting]
      omega
  | choice choices => by
      have ofChoices := listNesting_le choices
      simp only [nesting, toJson, Json.nesting, Json.memberNesting]
      omega
theorem slotNesting_le : (slot : Option Expression) → (name : String) →
    slotNesting slot ≤ Json.memberNesting (slotMember name (slotToJson slot))
  | none, _ => Nat.zero_le _
  | some e, _ => Nat.le_trans (nesting_le_nesting_toJson e) (Nat.le_max_left ..)
theorem listNesting_le : (es : List Expression) → listNesting es ≤ Json.listNesting (listToJson es)
  | [] => Nat.le_refl 0
  | e :: es => by
      have first := nesting_le_nesting_toJson e
      have more := listNesting_le es
      simp only [listNesting, listToJson, Json.listNesting]
      omega
end

/-- **A written tree that fits is read as the tree, renumbered.** -/
theorem readTree_toJson {e : Expression} {levels : Nat} (fits : e.toJson.nesting ≤ levels) :
    readTree levels e.toJson = liftM (renumber e) := by
  have readable := Json.isReadable_of_isPlain e.toJson (isPlain_toJson e)
  rw [readTree, if_pos ⟨fits, readable⟩]
  exact readNode_toJson e levels false (Nat.le_trans (nesting_le_nesting_toJson e) fits)

end Expression

/-! ## Definitions and property models -/

open Expression (Taken)

namespace Definition

theorem isPlain_toJson (d : Definition) : d.toJson.IsPlain := by
  simpa [toJson] using Expression.isPlain_slotMember d.expression "expression"

/-- **A written definition that fits is read as the definition, renumbered.** -/
theorem read_toJson {d : Definition} {levels : Nat} (fits : d.toJson.nesting ≤ levels) :
    read levels d.toJson = liftM d.renumber := by
  cases levels with
  | zero => exact absurd fits Json.not_nesting_object_le_zero
  | succ levels =>
    have inside : ∀ e, d.expression = some e →
        Expression.readTree levels e.toJson = liftM (Expression.renumber e) := by
      intro e expression
      refine Expression.readTree_toJson ?_
      rw [toJson, expression] at fits
      exact Json.nesting_object_le_iff.1 fits ("expression", e.toJson)
        (List.mem_cons_of_mem _ List.mem_cons_self)
    have fields : Taken (Expression.readTree levels) [("name", .text), ("expression", .slot)]
        ["name", "expression"] _ _ := .text rfl d.name (.slot rfl inside)
    rw [read, toJson, fields.readFields_eq rfl (by decide) (Json.isPlain_object.1 d.isPlain_toJson),
      renumber]
    simp only [liftM_bind, liftM_pure, bind_assoc, pure_bind]
    refine bind_congr fun slot => ?_
    cases slot <;> rfl

/-- Several written definitions that fit. -/
theorem mapM_read {ds : List Definition} {levels : Nat}
    (fits : ∀ d ∈ ds, d.toJson.nesting ≤ levels) :
    (ds.map toJson).mapM (read levels) = liftM (renumberAll ds) := by
  induction ds with
  | nil => simp [renumberAll]
  | cons d ds ih =>
    rw [List.forall_mem_cons] at fits
    simp [renumberAll, read_toJson fits.1, ih fits.2]

end Definition

namespace PropertyModel

theorem isPlain_toJson (p : PropertyModel) : p.toJson.IsPlain := by
  simp [toJson, Definition.isPlain_toJson]

/-- **A written property model that fits is read as the property model, renumbered.** -/
theorem read_toJson {p : PropertyModel} {levels : Nat} (fits : p.toJson.nesting ≤ levels) :
    read levels p.toJson = liftM p.renumber := by
  cases levels with
  | zero => exact absurd fits Json.not_nesting_object_le_zero
  | succ levels =>
    have sections := Json.nesting_object_le_iff.1 fits
    have readSection_eq (ds : List Definition)
        (fits : (Json.array (ds.map Definition.toJson)).nesting ≤ levels) :
        readSection levels (.array (ds.map Definition.toJson)) =
          liftM (Definition.renumberAll ds) := by
      cases levels with
      | zero => exact absurd fits Json.not_nesting_array_le_zero
      | succ levels =>
        exact Definition.mapM_read fun d mem =>
          Json.nesting_array_le_iff.1 fits _ (List.mem_map_of_mem mem)
    have definitions := readSection_eq p.definitions (sections ("definitions", _) (by simp))
    have ltlDefinitions := readSection_eq p.ltlDefinitions
      (sections ("ltl_definitions", _) (by simp))
    have assertionDefinitions := readSection_eq p.assertionDefinitions
      (sections ("assertion_definitions", _) (by simp))
    have sequence : Decoder.inOrder ["definitions", "ltl_definitions", "assertion_definitions"]
        (fun _ => readSection levels) p.toJson = _ :=
      Decoder.inOrder_object (List.Sublist.refl _) (by decide)
        (Json.isPlain_object.1 p.isPlain_toJson)
    rw [read, sequence, renumber]
    simp only [List.mapM_cons, List.mapM_nil, definitions, ltlDefinitions, assertionDefinitions,
      liftM_bind, liftM_pure, bind_assoc, pure_bind]
    rfl

end PropertyModel

/-! ## Models -/

open Decoder (Takes)
open Decoder.Fields (required_bind required_last withDefault_bind withDefault_last)

namespace ActorInstance

variable (i : ActorInstance)

theorem isPlain_toJson : i.toJson.IsPlain := by simp [toJson]

theorem takes_decoder : Takes decoder i.toJson i := by
  refine Decoder.takes_record (by simp) (by simp) i.isPlain_toJson fun levels => ?_
  refine (required_bind rfl (Decoder.takes_text i.name)
    (required_last rfl (Decoder.takes_text i.className))).trans ?_
  simp

end ActorInstance

namespace ActorModel

variable (m : ActorModel)

theorem isPlain_toJson : m.toJson.IsPlain := by
  simp [toJson, or_imp, forall_and, ActorInstance.isPlain_toJson]

theorem takes_decoder : Takes decoder m.toJson m := by
  have classes := Decoder.takes_list fun name (_ : name ∈ m.classes) => Decoder.takes_text name
  have instances := Decoder.takes_list fun i (_ : i ∈ m.instances) => i.takes_decoder
  refine Decoder.takes_record (by simp) (by simp) m.isPlain_toJson fun levels => ?_
  refine (withDefault_bind rfl classes (withDefault_last rfl instances)).trans ?_
  simp

/-- A model takes three levels. -/
theorem nesting_toJson_le (levels : Nat) : m.toJson.nesting ≤ levels + 3 := by
  simp [toJson, ActorInstance.toJson]

end ActorModel

/-! ## Files -/

namespace Batch

/-- **The text of a model** gives the model. -/
theorem modelOfText?_write (m : ActorModel) (layout : Layout) :
    modelOfText? (m.toJson.write layout) = some m := by
  rw [modelOfText?, Json.parse?_write layout m.isPlain_toJson, Option.bind_some,
    m.takes_decoder]
  exact if_pos (m.nesting_toJson_le 124)

/-- **The text of a property model that fits** gives the property model, renumbered. -/
theorem propertiesOfText_write {p : PropertyModel} (fits : p.toJson.nesting ≤ fileLevels)
    (layout : Layout) : propertiesOfText (p.toJson.write layout) = liftM p.renumber := by
  rw [propertiesOfText, Json.read_write layout p.isPlain_toJson]
  simp [PropertyModel.read_toJson fits]

end Batch
end ActorLtl
