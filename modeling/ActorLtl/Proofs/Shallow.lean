/-
# How deep a property file can be

The levels of a file are a budget: a node takes one and leaves the rest to its operands.  So a tree
that has been taken in is not deeper than the levels that it was given
(`Expression.nesting_le_of_canGive`), which are 124 for the trees of a file: the file, the section
and the definition take three of the 127.  A property model that is written and has a deeper
expression is refused as a whole (`Batch.exists_canGive_write_iff`), and under a limit of at least
124 no batch of files leaves a definition out (`Batch.readProperties_shallow`).
-/

import ActorLtl.Proofs.Loading
import ActorLtl.Proofs.Opening
import ActorLtl.Proofs.ReadBack

namespace ActorLtl

open Expression (Numbering Holding FieldShape)

/-! ## What can be given -/

namespace Expression.Numbering

variable {α β : Type} {m : Numbering α} {f : α → Numbering β} {x : α} {y : β}

/-- Whether something can be taken in as `x`, whatever identities come next. -/
def CanGive (m : Numbering α) (x : α) : Prop := ∃ n, (m.run.run n).1 = some x

@[simp] theorem canGive_pure {x' : α} : CanGive (pure x' : Numbering α) x ↔ x = x' := by
  constructor
  · rintro ⟨n, given⟩
    exact (Option.some.inj given).symm
  · rintro rfl
    exact ⟨0, rfl⟩

@[simp] theorem not_canGive_failure : ¬ CanGive (failure : Numbering α) x :=
  fun ⟨_, given⟩ => nomatch given

/-- What the second of two steps gives is made of something that the first gives. -/
theorem CanGive.bind (h : CanGive (m >>= f) y) : ∃ x, CanGive m x ∧ CanGive (f x) y := by
  obtain ⟨n, given⟩ := h
  have steps : ((m >>= f).run.run n).1 =
      (((m.run.run n).1.elim (pure none) fun x => (f x).run).run (m.run.run n).2).1 := by
    rw [OptionT.run_bind, Option.elimM, StateT.run_bind]
    rfl
  rw [steps] at given
  cases first : (m.run.run n).1 with
  | none =>
    rw [first] at given
    cases given
  | some x =>
    rw [first] at given
    exact ⟨x, ⟨n, first⟩, ⟨_, given⟩⟩

/-- What is made of something that can be given. -/
theorem CanGive.bind_pure {g : α → β} (h : CanGive (m >>= fun x => pure (g x)) y) :
    ∃ x, CanGive m x ∧ y = g x := by
  obtain ⟨x, given, h⟩ := h.bind
  exact ⟨x, given, canGive_pure.1 h⟩

/-- What is given on a condition. -/
theorem CanGive.of_ite {c : Prop} [Decidable c] (h : CanGive (if c then m else failure) x) :
    c ∧ CanGive m x := by
  split at h
  case isTrue holds => exact ⟨holds, h⟩
  case isFalse => exact absurd h not_canGive_failure

/-- Of several items that are taken in each can be, and nothing else is taken in. -/
theorem CanGive.mapM {xs : List α} {ys : List β} (h : CanGive (xs.mapM f) ys) :
    (∀ x ∈ xs, ∃ y, CanGive (f x) y) ∧ ∀ y ∈ ys, ∃ x ∈ xs, CanGive (f x) y := by
  induction xs generalizing ys with
  | nil =>
    rw [List.mapM_nil, canGive_pure] at h
    subst h
    simp
  | cons x xs ih =>
    rw [List.mapM_cons] at h
    obtain ⟨y, first, h⟩ := h.bind
    obtain ⟨ys, others, rfl⟩ := h.bind_pure
    obtain ⟨all, only⟩ := ih others
    refine ⟨List.forall_mem_cons.2 ⟨⟨y, first⟩, all⟩, List.forall_mem_cons.2 ⟨?_, ?_⟩⟩
    · exact ⟨x, List.mem_cons_self, first⟩
    · intro y' mem
      obtain ⟨x', mem', given⟩ := only y' mem
      exact ⟨x', List.mem_cons_of_mem _ mem', given⟩

end Expression.Numbering

/-- Each field that is taken in is taken in from some value. -/
theorem Decoder.exists_of_canGive_inOrder {α : Type} {names : List String}
    {field : String → Json → Numbering α} {v : Json} {taken : List (String × α)}
    (h : Numbering.CanGive (inOrder names field v) taken) :
    ∀ entry ∈ taken, ∃ v', (field entry.1 v').CanGive entry.2 := by
  unfold inOrder at h
  cases found : Entries.of? names v with
  | none =>
    rw [found] at h
    exact absurd h Numbering.not_canGive_failure
  | some entries =>
    rw [found] at h
    obtain ⟨taken', given, h⟩ := h.bind
    obtain ⟨-, h⟩ := h.of_ite
    obtain rfl := Numbering.canGive_pure.1 h
    intro entry mem
    obtain ⟨⟨name, v'⟩, -, step⟩ := given.mapM.2 entry mem
    obtain ⟨x, read, rfl⟩ := step.bind_pure
    exact ⟨v', read⟩

namespace Expression

variable {node : Json → Numbering Expression} {fields : List (String × FieldShape)} {v : Json}
  {held : List (String × Holding)} {levels : Nat} {e : Expression}

/-- The operands that a field holds. -/
def Holding.operands : Holding → List Expression
  | text _ => []
  | slot operand => operand.toList
  | list operands => operands.getD []

theorem exists_of_canGive_readField {shape : FieldShape} {holding : Holding}
    (h : (readField node shape v).CanGive holding) :
    ∀ e ∈ holding.operands, ∃ v', (node v').CanGive e := by
  have ofItems {items : List Json} {es : List Expression}
      (given : Numbering.CanGive (items.mapM node) es) : ∀ e ∈ es, ∃ v', (node v').CanGive e := by
    intro e mem
    obtain ⟨v', -, given⟩ := given.mapM.2 e mem
    exact ⟨v', given⟩
  unfold readField at h
  split at h
  case h_5 =>
    obtain ⟨e, given, rfl⟩ := h.bind_pure
    simpa [Holding.operands] using ⟨_, given⟩
  case h_6 =>
    obtain ⟨es, given, rfl⟩ := h.bind_pure
    exact ofItems given
  case h_7 =>
    obtain ⟨es, given, rfl⟩ := h.bind_pure
    exact ofItems given
  case h_9 => exact absurd h Numbering.not_canGive_failure
  -- The others hold a text or nothing.
  all_goals
    obtain rfl := Numbering.canGive_pure.1 h
    exact fun _ mem => nomatch mem

/-- **The operands in fields have been taken in as nodes.** -/
theorem exists_of_canGive_readFields (h : (readFields node fields v).CanGive held) :
    ∀ entry ∈ held, ∀ e ∈ entry.2.operands, ∃ v', (node v').CanGive e := by
  intro entry mem
  unfold readFields at h
  obtain ⟨v', step⟩ := Decoder.exists_of_canGive_inOrder h entry mem
  cases found : fields.lookup entry.1 with
  | none =>
    rw [found] at step
    exact absurd step Numbering.not_canGive_failure
  | some shape =>
    rw [found] at step
    exact exists_of_canGive_readField step

/-- What is held as an operand is an operand of a field. -/
theorem exists_of_mem_heldSlot {name : String} (h : e ∈ (heldSlot held name).toList) :
    ∃ entry ∈ held, e ∈ entry.2.operands := by
  unfold heldSlot at h
  split at h
  case h_1 operand found => exact ⟨(name, .slot operand), mem_of_lookup found, h⟩
  case h_2 => cases h

/-- What is held in a list is an operand of a field. -/
theorem exists_of_mem_heldList {name : String} (h : e ∈ (heldList held name).getD []) :
    ∃ entry ∈ held, e ∈ entry.2.operands := by
  unfold heldList at h
  split at h
  case h_1 operands found => exact ⟨(name, .list operands), mem_of_lookup found, h⟩
  case h_2 => cases h

/-- **The children of a node are operands of its fields.** -/
theorem exists_of_mem_children {id : NodeId} {kind : String} (h : ofHeld? id kind held = some e) :
    ∀ child ∈ e.children, ∃ entry ∈ held, child ∈ entry.2.operands := by
  intro child mem
  have inSlot (name : String) := @exists_of_mem_heldSlot held child name
  have inList (name : String) := @exists_of_mem_heldList held child name
  unfold ofHeld? at h
  -- Kind by kind, the children are what slots or a list of the fields hold.
  split at h <;> grind [children, Option.map_eq_some_iff]

/-- The tallest of several trees is not taller than a bound for each. -/
theorem listNesting_le_of_forall {es : List Expression} {bound : Nat}
    (h : ∀ e ∈ es, e.nesting ≤ bound) : listNesting es ≤ bound := by
  induction es with
  | nil => exact Nat.zero_le bound
  | cons e es ih =>
    rw [List.forall_mem_cons] at h
    rw [listNesting]
    exact Nat.max_le.2 ⟨h.1, ih h.2⟩

/-- **A node has at most as many levels as it was given.** -/
theorem nesting_le_of_canGive {nested : Bool} (h : (readNode levels nested v).CanGive e) :
    e.nesting ≤ levels := by
  induction levels generalizing nested v e with
  | zero => exact absurd h Numbering.not_canGive_failure
  | succ levels ih =>
    -- Either way the children come out of the fields, which have one level less.
    have below {kind : String} {fields : List (String × FieldShape)} {node : Json}
        {held : List (String × Holding)} {id : NodeId}
        (given : (readFields (readNode levels true) fields node).CanGive held)
        (built : ofHeld? id kind held = some e) : e.nesting ≤ levels + 1 := by
      have children : listNesting e.children ≤ levels := by
        refine listNesting_le_of_forall fun child mem => ?_
        obtain ⟨entry, mem, operand⟩ := exists_of_mem_children built child mem
        obtain ⟨v', given⟩ := exists_of_canGive_readFields given entry mem child operand
        exact ih given
      rw [nesting_eq_children]
      omega
    rw [readNode] at h
    split at h
    case h_2 => exact absurd h Numbering.not_canGive_failure
    split at h
    case h_2 => exact absurd h Numbering.not_canGive_failure
    -- An array has its identity before its children, an object after them.
    split at h
    · obtain ⟨id, -, h⟩ := h.bind
      obtain ⟨held, given, h⟩ := h.bind
      split at h
      case h_1 built =>
        obtain rfl := Numbering.canGive_pure.1 h
        exact below given built
      case h_2 => exact absurd h Numbering.not_canGive_failure
    · obtain ⟨held, given, h⟩ := h.bind
      obtain ⟨id, -, h⟩ := h.bind
      split at h
      case h_1 built =>
        obtain rfl := Numbering.canGive_pure.1 h
        exact below given built
      case h_2 => exact absurd h Numbering.not_canGive_failure

/-- **A tree fits the levels that it was given,** and so does what is written of it. -/
theorem nesting_le_of_canGive_readTree (h : (readTree levels v).CanGive e) :
    v.nesting ≤ levels ∧ e.nesting ≤ levels := by
  obtain ⟨fits, h⟩ := Numbering.CanGive.of_ite h
  exact ⟨fits.1, nesting_le_of_canGive h⟩

end Expression

/-! ## What a file can hold -/

/-- A definition takes one level. -/
theorem Definition.slotNesting_lt_of_canGive {levels : Nat} {v : Json} {d : Definition}
    (h : (read levels v).CanGive d) : Expression.slotNesting d.expression < levels := by
  cases levels with
  | zero => exact absurd h Numbering.not_canGive_failure
  | succ levels =>
    obtain ⟨held, given, h⟩ := h.bind
    split at h
    case h_2 => exact absurd h Numbering.not_canGive_failure
    obtain rfl := Numbering.canGive_pure.1 h
    refine Nat.lt_succ_of_le ?_
    cases found : Expression.heldSlot held "expression" with
    | none => exact Nat.zero_le levels
    | some e =>
      have inside : e ∈ (Expression.heldSlot held "expression").toList := by simp [found]
      obtain ⟨entry, mem, operand⟩ := Expression.exists_of_mem_heldSlot inside
      obtain ⟨v', tree⟩ := Expression.exists_of_canGive_readFields given entry mem e operand
      exact (Expression.nesting_le_of_canGive_readTree tree).2

namespace PropertyModel

variable {levels : Nat} {v : Json} {p : PropertyModel}

/-- A section takes one level more, -/
theorem slotNesting_of_canGive_readSection {ds : List Definition}
    (h : (readSection levels v).CanGive ds) :
    ∀ d ∈ ds, Expression.slotNesting d.expression + 2 ≤ levels := by
  unfold readSection at h
  split at h
  case h_1 levels items =>
    intro d mem
    obtain ⟨v', -, given⟩ := h.mapM.2 d mem
    exact Nat.succ_le_succ (Definition.slotNesting_lt_of_canGive given)
  case h_2 => exact absurd h Numbering.not_canGive_failure

/-- **and the file the third.** -/
theorem slotNesting_of_canGive (h : (read levels v).CanGive p) :
    ∀ d ∈ p.all, Expression.slotNesting d.expression + 3 ≤ levels := by
  cases levels with
  | zero => exact absurd h Numbering.not_canGive_failure
  | succ levels =>
    obtain ⟨sections, given, rfl⟩ := h.bind_pure
    have inSection (name : String) :
        ∀ d ∈ (sections.lookup name).getD [], Expression.slotNesting d.expression + 2 ≤ levels := by
      intro d mem
      cases found : sections.lookup name with
      | none =>
        rw [found] at mem
        cases mem
      | some ds =>
        rw [found] at mem
        obtain ⟨v', given⟩ :=
          Decoder.exists_of_canGive_inOrder given (name, ds) (mem_of_lookup found)
        exact slotNesting_of_canGive_readSection given d mem
    intro d mem
    rcases List.mem_append.1 mem with mem | mem
    · rcases List.mem_append.1 mem with mem | mem
      · exact Nat.succ_le_succ (inSection "definitions" d mem)
      · exact Nat.succ_le_succ (inSection "ltl_definitions" d mem)
    · exact Nat.succ_le_succ (inSection "assertion_definitions" d mem)

end PropertyModel

/-! ## What is refused -/

/-- Of a record whose fields are taken in each member can be. -/
theorem Decoder.exists_of_mem_object {α : Type} {names : List String}
    {field : String → Json → Numbering α} {members : List (String × Json)}
    {taken : List (String × α)}
    (h : Numbering.CanGive (inOrder names field (.object members)) taken)
    (keys : (members.map Prod.fst).Sublist names) (once : names.Nodup)
    (plain : (Json.object members).IsPlain) :
    ∀ member ∈ members, ∃ x, (field member.1 member.2).CanGive x := by
  rw [inOrder_object keys once (Json.isPlain_object.1 plain)] at h
  intro member mem
  obtain ⟨_, step⟩ := h.mapM.1 member mem
  obtain ⟨x, given, -⟩ := step.bind_pure
  exact ⟨x, given⟩

/-- A written definition that can be read fits the levels that it was given. -/
theorem Definition.nesting_le_of_canGive {levels : Nat} {d d' : Definition}
    (h : (read levels d.toJson).CanGive d') : d.toJson.nesting ≤ levels := by
  cases levels with
  | zero => exact absurd h Numbering.not_canGive_failure
  | succ levels =>
    obtain ⟨held, given, -⟩ := h.bind
    refine Json.nesting_object_le_iff.2 fun member mem => ?_
    rcases List.mem_cons.1 mem with rfl | inSlot
    · exact (Json.nesting_text d.name).trans_le (Nat.zero_le levels)
    · cases expression : d.expression with
      | none =>
        rw [expression] at inSlot
        cases inSlot
      | some e =>
        rw [expression] at inSlot
        obtain rfl := List.mem_singleton.1 inSlot
        have keys : ((("name", .text d.name) ::
            Expression.slotMember "expression" (Expression.slotToJson d.expression)).map
              Prod.fst).Sublist ["name", "expression"] := by
          simp [expression, Expression.slotMember, Expression.slotToJson]
        obtain ⟨holding, step⟩ := Decoder.exists_of_mem_object given keys (by decide)
          d.isPlain_toJson _ mem
        change (Expression.readField _ .slot e.toJson).CanGive holding at step
        rw [Expression.readField_slot_toJson] at step
        obtain ⟨e', tree, -⟩ := step.bind_pure
        exact (Expression.nesting_le_of_canGive_readTree tree).1

namespace PropertyModel

variable {levels : Nat} {p p' : PropertyModel}

/-- **A written property model that can be read fits the levels that it was given.** -/
theorem nesting_le_of_canGive (h : (read levels p.toJson).CanGive p') :
    p.toJson.nesting ≤ levels := by
  cases levels with
  | zero => exact absurd h Numbering.not_canGive_failure
  | succ levels =>
    obtain ⟨sections, given, -⟩ := h.bind
    have ofSection (ds : List Definition) {ds' : List Definition}
        (h : (readSection levels (.array (ds.map Definition.toJson))).CanGive ds') :
        (Json.array (ds.map Definition.toJson)).nesting ≤ levels := by
      cases levels with
      | zero => exact absurd h Numbering.not_canGive_failure
      | succ levels =>
        refine Json.nesting_array_le_iff.2 fun v mem => ?_
        obtain ⟨d', given⟩ := h.mapM.1 v mem
        obtain ⟨d, -, rfl⟩ := List.mem_map.1 mem
        exact Definition.nesting_le_of_canGive given
    refine Json.nesting_object_le_iff.2 fun member mem => ?_
    obtain ⟨ds, step⟩ := Decoder.exists_of_mem_object given (List.Sublist.refl _) (by decide)
      p.isPlain_toJson member mem
    simp only [List.mem_cons, List.not_mem_nil, or_false] at mem
    rcases mem with rfl | rfl | rfl <;> exact ofSection _ step

/-- A written property model has three levels more than its expressions. -/
theorem slotNesting_le_nesting_toJson {d : Definition} (mem : d ∈ p.all) :
    Expression.slotNesting d.expression + 3 ≤ p.toJson.nesting := by
  have ofDefinition (d : Definition) :
      Expression.slotNesting d.expression + 1 ≤ d.toJson.nesting := by
    have inside := Expression.slotNesting_le d.expression "expression"
    simp only [Definition.toJson, Json.nesting, Json.memberNesting]
    omega
  have ofSection {ds : List Definition} (mem : d ∈ ds) :
      Expression.slotNesting d.expression + 1 ≤ Json.listNesting (ds.map Definition.toJson) :=
    (ofDefinition d).trans
      (Json.listNesting_le_iff.1 (Nat.le_refl _) d.toJson (List.mem_map_of_mem mem))
  simp only [toJson, Json.nesting, Json.memberNesting]
  rcases List.mem_append.1 mem with mem | mem
  · rcases List.mem_append.1 mem with mem | mem
    · have := ofSection mem
      omega
    · have := ofSection mem
      omega
  · have := ofSection mem
    omega

end PropertyModel

/-- Whether a batch has left no definition out, unless there was no property model at all. -/
def BatchOutcome.FailsOnlyAsWhole (outcome : BatchOutcome) : Prop :=
  outcome.isFailed = false → outcome.failures = [] ∧ outcome.stats.failedCount = 0

namespace Batch

/-- **No text holds an expression of more than 124 levels.** -/
theorem isWithin_of_canGive {text : String} {p : PropertyModel}
    (h : (propertiesOfText text).CanGive p) : ∀ d ∈ p.all, d.IsWithin 124 := by
  obtain ⟨p', given, h⟩ := h.bind
  obtain ⟨-, h⟩ := h.of_ite
  obtain rfl := Numbering.canGive_pure.1 h
  intro d mem
  have levels := PropertyModel.slotNesting_of_canGive given d mem
  exact Definition.isWithin_iff.2 (Nat.le_of_add_le_add_right levels)

/-- **The text of a property model can be loaded exactly if it fits.** -/
theorem exists_canGive_write_iff {p : PropertyModel} {layout : Layout} :
    (∃ p', (propertiesOfText (p.toJson.write layout)).CanGive p') ↔
      p.toJson.nesting ≤ fileLevels := by
  constructor
  · rintro ⟨p', h⟩
    rw [propertiesOfText, Json.read_write layout p.isPlain_toJson] at h
    obtain ⟨p'', given, -⟩ := h.bind
    exact PropertyModel.nesting_le_of_canGive given
  · intro fits
    rw [propertiesOfText_write fits]
    exact ⟨_, 0, rfl⟩

variable {σ : Type} {files : Files (StateM σ)} {n : NodeId} {before : σ} {p : PropertyModel}

/-- A property model that comes out of a file is in its text. -/
theorem exists_of_readProperties_eq_ok {model : ActorModel} {path : String}
    (h : (((readProperties files model path).run n).run before).1.1 = .ok p) :
    ∃ text, (propertiesOfText text).CanGive p := by
  rw [readProperties_eq] at h
  split at h
  case h_1 => cases h
  case h_2 text after _ =>
    split at h
    case h_1 => cases h
    case h_2 p' next given =>
      obtain rfl := PropertyModel.eq_of_check_eq_ok h
      exact ⟨text, n, congrArg Prod.fst given⟩

/-- So does one that comes out of a batch of files. -/
theorem exists_of_compile_eq_ok {source : BatchSource}
    (h : (((compile (fileCompilers files) source).run n).run before).1.1 = .ok p) :
    ∃ text, (propertiesOfText text).CanGive p := by
  rw [compile_files_eq] at h
  split at h
  case h_1 => cases h
  case h_2 => exact exists_of_readProperties_eq_ok h

/-- Nothing is left out of a property model within the limit. -/
theorem failures_eq_nil {config : BatchConfig} {r : Registry}
    (within : ∀ d ∈ p.all, d.IsWithin config.maxExpressionDepth.toNat) :
    ((translateModel config p).run r).1.failures = [] := by
  rw [failures_translateModel]
  refine List.filterMap_eq_nil_iff.2 fun d mem => ?_
  exact Definition.failure?_of_isWithin (within d (PropertyModel.mem_all_of_mem_selected mem))

/-- A batch of files that got a property model has left nothing out. -/
theorem failsOnlyAsWhole_translateWith {config : BatchConfig} {source : BatchSource}
    {registry : Registry} (limit : 124 ≤ config.maxExpressionDepth.toNat) :
    (((translateWith (fileCompilers files) config source registry).run n).run
      before).1.1.1.FailsOnlyAsWhole := by
  rw [translateWith_files_eq]
  split
  case h_1 => exact fun complete => nomatch complete
  case h_2 p next after compiled =>
    intro _
    obtain ⟨text, given⟩ := exists_of_compile_eq_ok
      (congrArg (fun run => run.1.1) compiled)
    have failures : ((translateModel config p).run registry).1.failures = [] := by
      refine failures_eq_nil fun d mem => ?_
      exact fun e expression => (isWithin_of_canGive given d mem e expression).trans limit
    exact ⟨failures, congrArg List.length failures⟩

/-- A written property model with an expression that is too deep is not a property model. -/
theorem readProperties_of_deep {model : ActorModel} {path : String} {layout : Layout} {after : σ}
    {d : Definition} (file : (files.readText path).run before = (.ok (p.toJson.write layout), after))
    (mem : d ∈ p.all) (deep : ¬ d.IsWithin 124) :
    ∃ reason, (((readProperties files model path).run n).run before).1.1 =
      .error (.invalidPropertyModel path reason) := by
  have levels := p.slotNesting_le_nesting_toJson mem
  rw [Definition.isWithin_iff] at deep
  have refused : ¬ ∃ p', (propertiesOfText (p.toJson.write layout)).CanGive p' := by
    rw [exists_canGive_write_iff, fileLevels]
    omega
  rw [readProperties_eq, file]
  dsimp only
  cases given : (propertiesOfText (p.toJson.write layout)).run.run n with
  | mk result next =>
    cases result with
    | none => exact ⟨_, rfl⟩
    | some p' => exact absurd ⟨p', n, congrArg Prod.fst given⟩ refused

/-- **Property files leave no definition out.**  Whatever a file holds, if it is loaded, no
expression in any of its sections is nested more than 124 levels deep.  So under a limit of at least
124 a batch of files, with a registry of its own or one that is handed over, fails as a whole or has
no failures.  A property model that is written with a deeper expression in any section is refused as
a whole. -/
theorem readProperties_shallow (files : Files (StateM σ)) :
    (∀ (model : ActorModel) (path : String) (n : NodeId) (before : σ) (p : PropertyModel),
      (((readProperties files model path).run n).run before).1.1 = .ok p →
      ∀ d ∈ p.all, ∀ e, d.expression = some e → e.depth ≤ 124) ∧
    (∀ (config : BatchConfig) (source : BatchSource) (n : NodeId) (before : σ),
      124 ≤ config.maxExpressionDepth.toNat →
      (((translate (fileCompilers files) config source).run n).run before).1.1.FailsOnlyAsWhole ∧
      ∀ registry : Registry,
        (((translateWith (fileCompilers files) config source registry).run n).run
          before).1.1.1.FailsOnlyAsWhole) ∧
    ∀ (model : ActorModel) (path : String) (n : NodeId) (before after : σ) (layout : Layout)
        (p : PropertyModel), (files.readText path).run before = (.ok (p.toJson.write layout), after) →
      (∃ d ∈ p.all, ∃ e, d.expression = some e ∧ 124 < e.depth) →
      ∃ reason, (((readProperties files model path).run n).run before).1.1 =
        .error (.invalidPropertyModel path reason) := by
  refine ⟨?_, ?_, ?_⟩
  · intro model path n before p loaded
    obtain ⟨text, given⟩ := exists_of_readProperties_eq_ok loaded
    exact isWithin_of_canGive given
  · intro config source n before limit
    exact ⟨failsOnlyAsWhole_translateWith limit, fun _ => failsOnlyAsWhole_translateWith limit⟩
  · intro model path n before after layout p file ⟨d, mem, deep⟩
    exact readProperties_of_deep file mem (Definition.not_isWithin_iff.2 deep)

end Batch

/-! ## The deepest file -/

namespace Expression

/-- There is no identity in a negation. -/
theorem renumberSlot_negations (k : Nat) :
    renumberSlot (tower negate k) = pure (tower negate k) := by
  induction k with
  | zero => rfl
  | succ k ih => simp [tower, negate, renumberSlot, renumber, ih]

theorem memberNesting_negations (name : String) (k : Nat) :
    Json.memberNesting (slotMember name (slotToJson (tower negate k))) = k := by
  induction k generalizing name with
  | zero => rfl
  | succ k ih =>
    have inside := ih "operand"
    simp only [tower, negate, slotToJson, toJson, slotMember, Option.map_some, Option.toList_some,
      Json.memberNesting, Json.nesting] at inside ⊢
    omega

theorem filterMap_referredName?_negations (level k : Nat) :
    (slotNodes level (tower negate k)).filterMap (fun node => node.2.referredName?) = [] := by
  induction k generalizing level with
  | zero => rfl
  | succ k ih =>
    rw [tower, slotNodes, negate, nodes, List.filterMap_cons_none rfl]
    exact ih (level + 1)

end Expression

/-- A property model with one definition, so many negations on top of one another. -/
def PropertyModel.negations (k : Nat) : PropertyModel :=
  ⟨[], [⟨"negations", Expression.tower Expression.negate k⟩], []⟩

namespace PropertyModel

theorem nesting_negations (k : Nat) : (negations k).toJson.nesting = k + 3 := by
  have inside := Expression.memberNesting_negations "expression" k
  simp only [negations, toJson, Definition.toJson, List.map_cons, List.map_nil, Json.nesting,
    Json.memberNesting, Json.listNesting]
  omega

theorem renumber_negations (k : Nat) : (negations k).renumber = pure (negations k) := by
  simp [renumber, Definition.renumberAll, Definition.renumber, Expression.renumberSlot_negations,
    negations]

theorem referredNames_negations (k : Nat) : (negations k).referredNames = [] := by
  have inside : Expression.slotReferredNames (Expression.tower Expression.negate k) = [] := by
    cases k with
    | zero => rfl
    | succ k => exact Expression.filterMap_referredName?_negations 1 (k + 1)
  show [(⟨"negations", Expression.tower Expression.negate k⟩ : Definition)].flatMap _ = []
  rw [List.flatMap_singleton, inside]

theorem exists_deep_negations {limit k : Nat} (deep : limit < k) :
    ∃ d ∈ (negations k).all, ∃ e, d.expression = some e ∧ limit < e.depth := by
  refine ⟨⟨"negations", _⟩, List.mem_cons_self, Definition.not_isWithin_iff.1 ?_⟩
  rw [Definition.isWithin_iff, Expression.slotNesting_negations]
  exact Nat.not_le.2 deep

end PropertyModel

namespace Batch

variable {σ : Type} {files : Files (StateM σ)} {n : NodeId} {before after : σ}

/-- **Up to 124 negations are loaded.** -/
theorem readProperties_negations {model : ActorModel} {path : String} {layout : Layout} {k : Nat}
    (file : (files.readText path).run before =
      (.ok ((PropertyModel.negations k).toJson.write layout), after)) (fits : k ≤ 124) :
    ((readProperties files model path).run n).run before = ((.ok (.negations k), n), after) := by
  have levels : (PropertyModel.negations k).toJson.nesting ≤ fileLevels := by
    rw [PropertyModel.nesting_negations]
    exact Nat.add_le_add_right fits 3
  have holds : (propertiesOfText ((PropertyModel.negations k).toJson.write layout)).run.run n =
      (some (.negations k), n) := by
    rw [propertiesOfText_write levels, PropertyModel.renumber_negations]
    rfl
  have accepted : (PropertyModel.negations k).check model = .ok (.negations k) := by
    rw [PropertyModel.check_eq_ok_iff, PropertyModel.referredNames_negations]
    exact fun _ mem => nomatch mem
  simp only [readProperties_eq, file, holds, accepted]

/-- Three files: a model, 124 negations on top of one another, which are loaded and translated, and
125, which are not. -/
theorem readProperties_shallow_negations :
    let model : ActorModel := ⟨[], []⟩
    let tree : FileTree :=
      ⟨[(["model.json"], .file (some (model.toJson.write .compact))),
        (["124.json"], .file (some ((PropertyModel.negations 124).toJson.write .compact))),
        (["125.json"], .file (some ((PropertyModel.negations 125).toJson.write (.indented 0))))], []⟩
    let read (path : String) := (((readProperties FileTree.files model path).run 0).run tree).1.1
    let outcome := (((translate (fileCompilers FileTree.files) .default
      ⟨"model.json", "124.json"⟩).run 0).run tree).1.1
    read "124.json" = .ok (.negations 124) ∧
      (∀ d ∈ (PropertyModel.negations 124).all, ∀ e, d.expression = some e → e.depth ≤ 124) ∧
      outcome.isFailed = false ∧ outcome.failures = [] ∧ outcome.stats.failedCount = 0 ∧
      ∃ reason, read "125.json" = .error (.invalidPropertyModel "125.json" reason) := by
  intro model tree read outcome
  obtain ⟨shallow, failures, deep⟩ := readProperties_shallow FileTree.files
  -- The texts are long; they are read whatever they are.
  have texts (a b c : String) :
      let tree : FileTree := ⟨[(["model.json"], .file (some a)), (["124.json"], .file (some b)),
        (["125.json"], .file (some c))], []⟩
      (FileTree.files.readText "model.json").run tree = (.ok a, tree) ∧
        (FileTree.files.readText "124.json").run tree = (.ok b, tree) ∧
        (FileTree.files.readText "125.json").run tree = (.ok c, tree) := ⟨rfl, rfl, rfl⟩
  obtain ⟨modelFile, file, deepFile⟩ := texts (model.toJson.write .compact)
    ((PropertyModel.negations 124).toJson.write .compact)
    ((PropertyModel.negations 125).toJson.write (.indented 0))
  have loaded : ((readProperties FileTree.files model "124.json").run 0).run tree =
      ((.ok (.negations 124), 0), tree) := readProperties_negations file (Nat.le_refl 124)
  have modelRead : (readModel FileTree.files "model.json").run tree = (.ok model, tree) := by
    rw [readModel_eq, modelFile]
    dsimp only
    rw [modelOfText?_write]
  have complete : outcome.isFailed = false := by
    have translated : ((translate (fileCompilers FileTree.files) .default
        ⟨"model.json", "124.json"⟩).run 0).run tree = _ := translate_files_eq modelRead loaded
    exact congrArg (fun run => run.1.1.isFailed) translated
  have whole : outcome.FailsOnlyAsWhole :=
    (failures .default ⟨"model.json", "124.json"⟩ 0 tree (by decide)).1
  obtain ⟨left, count⟩ := whole complete
  have answer : read "124.json" = .ok (.negations 124) := congrArg (fun run => run.1.1) loaded
  refine ⟨answer, shallow model "124.json" 0 tree _ answer, complete, left, count,
    deep model "125.json" 0 tree tree (.indented 0) (.negations 125) deepFile
      (PropertyModel.exists_deep_negations (Nat.lt_succ_self 124))⟩

end Batch
end ActorLtl
