/-
# Which undeclared reference is complained about

A property model passes the check exactly if nothing in it accesses a member of an undeclared name,
at any depth and in any slot (`Expression.StandsIn`).  Otherwise the complaint is about the first
definition in which something does, and about the access there that comes first when a node is met
before its children and the last child before the others (`Batch.readProperties_references`).
-/

import ActorLtl.Expression.Context
import ActorLtl.Proofs.Loading
import ActorLtl.Proofs.Opening
import ActorLtl.Proofs.References

namespace ActorLtl

theorem ActorModel.not_hasInstance_iff {m : ActorModel} {name : String} :
    ¬ m.hasInstance name ↔ ∀ i ∈ m.instances, i.name ≠ name := by
  rw [hasInstance_iff]
  simp

namespace Expression

variable {m : ActorModel} {name : String} {part e : Expression}

/-! ## What the walk meets -/

theorem mem_listNodes {level : Nat} {node : Nat × Expression} {es : List Expression} :
    node ∈ listNodes level es ↔ ∃ e ∈ es, node ∈ nodes level e := by
  induction es with
  | nil => simp [listNodes]
  | cons e es ih =>
    simp only [listNodes, List.mem_append, ih, List.mem_cons, exists_eq_or_imp]
    exact or_comm

/-- **The walk meets what stands in the tree,** and nothing else. -/
theorem exists_mem_nodes_iff (e : Expression) (n : Nat) :
    (∃ level, (level, part) ∈ nodes n e) ↔ part.StandsIn e := by
  have inside : ∀ child ∈ e.children,
      ((∃ level, (level, part) ∈ nodes (n + 1) child) ↔ part.StandsIn child) :=
    fun child mem => exists_mem_nodes_iff child (n + 1)
  rw [standsIn_iff_children, nodes_eq]
  simp only [List.mem_cons, mem_listNodes]
  constructor
  · rintro ⟨level, root | ⟨child, mem, met⟩⟩
    · exact .inl (congrArg Prod.snd root)
    · exact .inr ⟨child, mem, (inside child mem).1 ⟨level, met⟩⟩
  · rintro (rfl | ⟨child, mem, stands⟩)
    · exact ⟨n, .inl rfl⟩
    · obtain ⟨level, met⟩ := (inside child mem).2 stands
      exact ⟨level, .inr ⟨child, mem, met⟩⟩
termination_by e.size
decreasing_by exact size_lt_of_mem_children mem

/-- The walk goes on for as many turns as there are nodes on the stack and below. -/
theorem foldPending_turns (turns : Nat) (pending : List (Nat × Expression)) :
    foldPending (fun turns _ _ => turns + 1) turns pending =
      turns + listSize (pending.map Prod.snd) := by
  fun_induction foldPending (fun turns _ _ => turns + 1) turns pending with
  | case1 turns => rfl
  | case2 turns level e pending ih =>
    rw [ih, listSize_pending]
    omega

/-- **The walk over a tree ends after as many turns as the tree has nodes.** -/
theorem fold_turns (e : Expression) : e.fold (fun turns _ _ => turns + 1) 0 = e.size := by
  rw [fold, foldPending_turns]
  simp [listSize]

/-! ## What it finds -/

/-- Whether an expression accesses a member of a plain name that no instance of the model has. -/
def IsUndeclared (m : ActorModel) (name : String) (access : Expression) : Prop :=
  (∃ id right, access = .member (some (.term id (some name) none)) right) ∧
    ∀ i ∈ m.instances, i.name ≠ name

theorem referredName?_eq_some_iff :
    e.referredName? = some name ↔ ∃ id right, e = .member (some (.term id (some name) none)) right := by
  constructor
  · intro accessed
    unfold referredName? at accessed
    split at accessed
    · rename_i id own right
      obtain rfl := Option.some.inj accessed
      exact ⟨id, right, rfl⟩
    · cases accessed
  · rintro ⟨id, right, rfl⟩
    rfl

/-- A node is found with the undeclared name before its dot. -/
theorem undeclaredName?_eq_some_iff :
    e.undeclaredName? m = some name ↔ e.IsUndeclared m name := by
  rw [undeclaredName?, Option.bind_eq_some_iff, IsUndeclared, ← referredName?_eq_some_iff,
    ← ActorModel.not_hasInstance_iff]
  constructor
  · rintro ⟨own, accessed, found⟩
    split at found
    · cases found
    · rename_i absent
      obtain rfl := Option.some.inj found
      exact ⟨accessed, absent⟩
  · rintro ⟨accessed, absent⟩
    exact ⟨name, accessed, if_neg absent⟩

/-- Whether `name` is undeclared and stands before the dot of the first such access that a walk
meets, a node before its children and the last child before the others. -/
def IsFirstUndeclared (m : ActorModel) (name : String) (e : Expression) : Prop :=
  ∃ met level access rest, e.nodes 1 = met ++ (level, access) :: rest ∧
    access.IsUndeclared m name ∧ ∀ node ∈ met, ∀ other, ¬ node.2.IsUndeclared m other

theorem undeclaredName?_eq_none_iff_forall :
    e.undeclaredName? m = none ↔ ∀ name, ¬ e.IsUndeclared m name := by
  rw [Option.eq_none_iff_forall_ne_some]
  exact forall_congr' fun name => not_congr undeclaredName?_eq_some_iff

/-- **What the walk finds is the first undeclared name.** -/
theorem firstUndeclared?_eq_some_iff :
    e.firstUndeclared? m = some name ↔ e.IsFirstUndeclared m name := by
  rw [firstUndeclared?_eq_findSome?, List.findSome?_eq_some_iff]
  constructor
  · rintro ⟨met, ⟨level, access⟩, rest, split, found, before⟩
    exact ⟨met, level, access, rest, split, undeclaredName?_eq_some_iff.1 found,
      fun node mem => undeclaredName?_eq_none_iff_forall.1 (before node mem)⟩
  · rintro ⟨met, level, access, rest, split, found, before⟩
    exact ⟨met, (level, access), rest, split, undeclaredName?_eq_some_iff.2 found,
      fun node mem => undeclaredName?_eq_none_iff_forall.2 (before node mem)⟩

/-- The names before the dots are those of the accesses that stand in the expression. -/
theorem mem_referredNames_iff :
    name ∈ e.referredNames ↔ ∃ access : Expression,
      access.StandsIn e ∧ ∃ id right, access = .member (some (.term id (some name) none)) right := by
  rw [referredNames, List.mem_filterMap]
  constructor
  · rintro ⟨⟨level, access⟩, met, accessed⟩
    exact ⟨access, (exists_mem_nodes_iff e 1).1 ⟨level, met⟩, referredName?_eq_some_iff.1 accessed⟩
  · rintro ⟨access, stands, accessed⟩
    obtain ⟨level, met⟩ := (exists_mem_nodes_iff e 1).2 stands
    exact ⟨(level, access), met, referredName?_eq_some_iff.2 accessed⟩

end Expression

namespace Definition

variable {m : ActorModel} {d : Definition}

/-- Whether nothing in the definition accesses a member of an undeclared name. -/
def IsDeclared (m : ActorModel) (d : Definition) : Prop :=
  ∀ e, d.expression = some e → ∀ (access : Expression) (name : String), access.StandsIn e →
    ¬ access.IsUndeclared m name

/-- That is so exactly if all names before its dots are declared. -/
theorem isDeclared_iff :
    d.IsDeclared m ↔ ∀ name ∈ Expression.slotReferredNames d.expression, m.hasInstance name := by
  rw [IsDeclared]
  cases d.expression with
  | none => simp [Expression.slotReferredNames]
  | some e =>
    simp only [Expression.slotReferredNames, Option.map_some, Option.getD_some,
      Expression.mem_referredNames_iff]
    constructor
    · rintro declared name ⟨access, stands, accessed⟩
      exact Decidable.not_not.1 fun missing =>
        declared e rfl access name stands ⟨accessed, ActorModel.not_hasInstance_iff.1 missing⟩
    · rintro declared _ ⟨⟩ access name stands ⟨accessed, missing⟩
      exact ActorModel.not_hasInstance_iff.2 missing (declared name ⟨access, stands, accessed⟩)

end Definition

namespace PropertyModel

variable {m : ActorModel} {d : Definition} {p : PropertyModel} {cause : SourceError}

theorem complaint?_eq_some_iff :
    complaint? m d = some cause ↔ ∃ e name, d.expression = some e ∧ e.IsFirstUndeclared m name ∧
      cause = .unknownInstance d.name name := by
  simp only [complaint?, Option.map_eq_some_iff, Option.bind_eq_some_iff,
    Expression.firstUndeclared?_eq_some_iff]
  constructor
  · rintro ⟨name, ⟨e, expression, first⟩, rfl⟩
    exact ⟨e, name, expression, first, rfl⟩
  · rintro ⟨e, name, expression, first, rfl⟩
    exact ⟨name, ⟨e, expression, first⟩, rfl⟩

/-- **A property model passes exactly if all its definitions do.** -/
theorem check_eq_ok_iff_isDeclared :
    p.check m = .ok p ↔ ∀ d ∈ p.all, d.IsDeclared m := by
  rw [check_eq_ok_iff, referredNames]
  simp only [List.mem_flatMap, Definition.isDeclared_iff]
  constructor
  · intro declared d mem name inside
    exact declared name ⟨d, mem, inside⟩
  · rintro declared name ⟨d, mem, inside⟩
    exact declared d mem name inside

/-- **The complaint is about the first that does not,** and about the first access in it. -/
theorem check_eq_error_iff :
    p.check m = .error cause ↔ ∃ earlier d later e name, p.all = earlier ++ d :: later ∧
      (∀ d' ∈ earlier, d'.IsDeclared m) ∧ d.expression = some e ∧ e.IsFirstUndeclared m name ∧
      cause = .unknownInstance d.name name := by
  have found : p.check m = .error cause ↔ p.all.findSome? (complaint? m) = some cause := by
    rw [check]
    cases p.all.findSome? (complaint? m) <;> simp
  have passes {d' : Definition} : complaint? m d' = none ↔ d'.IsDeclared m :=
    complaint?_eq_none_iff.trans Definition.isDeclared_iff.symm
  rw [found, List.findSome?_eq_some_iff]
  constructor
  · rintro ⟨earlier, d, later, split, complaint, before⟩
    obtain ⟨e, name, expression, first, told⟩ := complaint?_eq_some_iff.1 complaint
    exact ⟨earlier, d, later, e, name, split, fun d' mem => passes.1 (before d' mem), expression,
      first, told⟩
  · rintro ⟨earlier, d, later, e, name, split, before, expression, first, told⟩
    exact ⟨earlier, d, later, split, complaint?_eq_some_iff.2 ⟨e, name, expression, first, told⟩,
      fun d' mem => passes.2 (before d' mem)⟩

end PropertyModel

namespace Batch

variable {σ : Type}

/-- **The check of references is exact.**  Let a file hold a property model.  It is accepted exactly
if nothing in any section accesses a member of a name that is no instance of the model, whatever is
around the access.  Otherwise it is refused because of the first definition, in the order of the
sections, in which something does, and the name in the complaint is that of the first such access,
when a node is met before its children and the last child before the others.  The walk that looks
for it ends in as many turns as there are nodes. -/
theorem readProperties_references (files : Files (StateM σ)) (model : ActorModel) (path : String)
    (text : String) (p : PropertyModel) (n next : NodeId) (before after : σ)
    (file : (files.readText path).run before = (.ok text, after))
    (holds : (propertiesOfText text).run.run n = (some p, next)) :
    let result := (((readProperties files model path).run n).run before).1.1
    (result = .ok p ↔ ∀ d ∈ p.definitions ++ p.ltlDefinitions ++ p.assertionDefinitions,
      d.IsDeclared model) ∧
    (∀ cause, result = .error cause ↔ ∃ earlier d later e name,
      p.definitions ++ p.ltlDefinitions ++ p.assertionDefinitions = earlier ++ d :: later ∧
        (∀ d' ∈ earlier, d'.IsDeclared model) ∧ d.expression = some e ∧
        e.IsFirstUndeclared model name ∧ cause = .unknownInstance d.name name) ∧
    ∀ e : Expression, e.fold (fun turns _ _ => turns + 1) 0 = e.size := by
  intro result
  have checked : result = p.check model := by
    simp only [result, readProperties_eq, file, holds]
  rw [checked]
  exact ⟨PropertyModel.check_eq_ok_iff_isDeclared, fun _ => PropertyModel.check_eq_error_iff,
    Expression.fold_turns⟩

/-- Of three accesses in a choice, inside the argument of a call, the last is to an instance.  The
complaint is about the one before it, whose name is empty; a model with more instances accepts. -/
theorem readProperties_references_choice :
    let access (id : NodeId) (name : String) : Expression :=
      .member (some (.term id (some name) none)) none
    let choice : Expression := .choice [access 1 "gate", access 2 "", access 3 "door"]
    let p : PropertyModel :=
      ⟨[⟨"Safety", some (.unary "G" (some (access 0 "door")))⟩, ⟨"Nothing", none⟩],
        [⟨"Some day", some (.term 4 (some "F") (some [choice]))⟩], [⟨"Never", some (access 5 "bell")⟩]⟩
    let model : ActorModel := ⟨["Door"], [⟨"door", "Door"⟩]⟩
    let wider : ActorModel :=
      ⟨["Door"], [⟨"gate", "Door"⟩, ⟨"bell", "Door"⟩, ⟨"", "Door"⟩, ⟨"door", "Door"⟩]⟩
    let tree : FileTree := ⟨[(["property.json"], .file (some (p.toJson.write .compact)))], []⟩
    let read (m : ActorModel) :=
      (((readProperties FileTree.files m "property.json").run 0).run tree).1.1
    read model = .error (.unknownInstance "Some day" "") ∧ read wider = .ok p := by
  intro access choice p model wider tree read
  have file : (FileTree.files.readText "property.json").run tree =
      (.ok (p.toJson.write .compact), tree) := rfl
  have holds : (propertiesOfText (p.toJson.write .compact)).run.run 0 = (some p, 6) := by
    rw [propertiesOfText_write (by decide)]
    rfl
  constructor
  · obtain ⟨-, refused, -⟩ := readProperties_references FileTree.files model "property.json" _ p 0 6
      tree tree file holds
    refine (refused _).2 ⟨p.definitions, _, p.assertionDefinitions, _, "", rfl, ?_, rfl, ?_, rfl⟩
    · intro d mem
      rw [Definition.isDeclared_iff]
      revert d
      decide
    · rw [← Expression.firstUndeclared?_eq_some_iff, Expression.firstUndeclared?_eq_findSome?]
      rfl
  · obtain ⟨accepted, -, -⟩ := readProperties_references FileTree.files wider "property.json" _ p 0 6
      tree tree file holds
    refine accepted.2 fun d mem => ?_
    rw [Definition.isDeclared_iff]
    revert d
    decide

end Batch
end ActorLtl
