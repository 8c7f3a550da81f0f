/-
# Decoders that take in all that fits

What a decoder makes of a written value should depend on the value's nesting alone: it takes in
the value exactly as far as the levels reach (`Decoder.Takes`).  This passes from items to lists
and from fields to records, so for each type it remains to name the fields.  As a consequence a
value that is refused is refused for its depth, and nothing else is ever made of it.
-/

import ActorLtl.Json.Decoder
import ActorLtl.Json.Plain

namespace ActorLtl

namespace Json

variable {n : Nat}

theorem listNesting_le_iff {vs : List Json} :
    listNesting vs ≤ n ↔ ∀ v ∈ vs, v.nesting ≤ n := by
  induction vs with
  | nil => simp [listNesting]
  | cons v vs ih => rw [listNesting, Nat.max_le, ih, List.forall_mem_cons]

theorem memberNesting_le_iff {members : List (String × Json)} :
    memberNesting members ≤ n ↔ ∀ member ∈ members, member.2.nesting ≤ n := by
  induction members with
  | nil => simp [memberNesting]
  | cons member members ih =>
    obtain ⟨key, v⟩ := member
    rw [memberNesting, Nat.max_le, ih, List.forall_mem_cons]

@[simp] theorem nesting_null : null.nesting = 0 := by
  simp only [nesting]

@[simp] theorem nesting_text (content : String) : (text content).nesting = 0 := by
  simp only [nesting]

@[simp] theorem nesting_bool (value : Bool) : (bool value).nesting = 0 := by
  simp only [nesting]

@[simp] theorem nesting_natural (value : Nat) : (natural value).nesting = 0 := by
  simp only [nesting]

@[simp] theorem not_nesting_array_le_zero {items : List Json} :
    ¬ (array items).nesting ≤ 0 := by
  simp [nesting]

@[simp] theorem not_nesting_object_le_zero {members : List (String × Json)} :
    ¬ (object members).nesting ≤ 0 := by
  simp [nesting]

/-- **An array takes one level more than its items.** -/
@[simp] theorem nesting_array_le_iff {items : List Json} :
    (array items).nesting ≤ n + 1 ↔ ∀ v ∈ items, v.nesting ≤ n := by
  rw [nesting, Nat.add_comm 1, Nat.add_le_add_iff_right, listNesting_le_iff]

/-- **An object takes one level more than its members.** -/
@[simp] theorem nesting_object_le_iff {members : List (String × Json)} :
    (object members).nesting ≤ n + 1 ↔ ∀ member ∈ members, member.2.nesting ≤ n := by
  rw [nesting, Nat.add_comm 1, Nat.add_le_add_iff_right, memberNesting_le_iff]

end Json

namespace Decoder

variable {α : Type} {d : Decoder α} {v : Json} {x : α}

/-- Whether the decoder makes `x` of the value as far as the levels reach, and refuses the value
where they do not. -/
def Takes (d : Decoder α) (v : Json) (x : α) : Prop :=
  ∀ levels, d levels v = if v.nesting ≤ levels then some x else none

/-- What is taken in is taken in as it is or not at all. -/
theorem Takes.eq_some_iff (h : Takes d v x) (levels : Nat) :
    d levels v = some x ↔ v.nesting ≤ levels := by
  rw [h levels]
  simp

theorem Takes.eq_none_iff (h : Takes d v x) (levels : Nat) :
    d levels v = none ↔ levels < v.nesting := by
  rw [h levels]
  simp

theorem takes_text (content : String) : Takes text (.text content) content := by
  intro levels
  rw [Json.nesting_text, if_pos (Nat.zero_le levels)]
  rfl

theorem takes_bool (value : Bool) : Takes bool (.bool value) value := by
  intro levels
  rw [Json.nesting_bool, if_pos (Nat.zero_le levels)]
  rfl

theorem takes_natural {value : Nat} (small : value < UInt64.size) :
    Takes natural (.natural value) value := by
  intro levels
  rw [Json.nesting_natural, if_pos (Nat.zero_le levels), natural, if_pos small]

theorem takes_word (w : UInt64) : Takes word (.natural w.toNat) w := by
  intro levels
  have number := takes_natural w.toNat_lt levels
  rw [Json.nesting_natural, if_pos (Nat.zero_le levels)] at number ⊢
  rw [word, number, Option.map_some, UInt64.ofNat_toNat]

/-- A name that is listed. -/
theorem takes_oneOf {names : List (String × α)} {name : String} (listed : names.lookup name = some x) :
    Takes (oneOf names) (.text name) x := by
  intro levels
  rw [Json.nesting_text, if_pos (Nat.zero_le levels), ← listed]
  rfl

/-- A text, or `null` for none. -/
theorem takes_optional_text (content : Option String) (written : v = content.elim .null .text) :
    Takes (optional text) v content := by
  subst written
  intro levels
  cases content with
  | none => exact (if_pos (Nat.zero_le levels)).symm
  | some content => exact (if_pos (Nat.zero_le levels)).symm

/-! ## Lists -/

/-- Items that all fit are taken in together. -/
theorem mapM_eq {toJson : α → Json} {xs : List α} (h : ∀ x ∈ xs, Takes d (toJson x) x)
    (levels : Nat) :
    (xs.map toJson).mapM (d levels) =
      if ∀ x ∈ xs, (toJson x).nesting ≤ levels then some xs else none := by
  induction xs with
  | nil => rfl
  | cons x xs ih =>
    rw [List.map_cons, List.mapM_cons, h x List.mem_cons_self levels,
      ih fun y mem => h y (List.mem_cons_of_mem _ mem)]
    have split : (∀ y ∈ x :: xs, (toJson y).nesting ≤ levels) ↔
        (toJson x).nesting ≤ levels ∧ ∀ y ∈ xs, (toJson y).nesting ≤ levels :=
      List.forall_mem_cons
    by_cases first : (toJson x).nesting ≤ levels
    · by_cases others : ∀ y ∈ xs, (toJson y).nesting ≤ levels
      · rw [if_pos first, if_pos others, if_pos (split.2 ⟨first, others⟩)]
        rfl
      · rw [if_pos first, if_neg others, if_neg fun all => others (split.1 all).2]
        rfl
    · rw [if_neg first, if_neg fun all => first (split.1 all).1]
      rfl

/-- **A list takes in what its items take in.** -/
theorem takes_list {toJson : α → Json} {xs : List α} (h : ∀ x ∈ xs, Takes d (toJson x) x) :
    Takes (list d) (.array (xs.map toJson)) xs := by
  intro levels
  cases levels with
  | zero =>
    rw [if_neg Json.not_nesting_array_le_zero]
    rfl
  | succ levels =>
    simp only [list, mapM_eq h, Json.nesting_array_le_iff, List.forall_mem_map]

/-! ## Records -/

namespace Entries

/-- **Known fields, each once, are come to in order.** -/
theorem ofMembers_eq {names seen : List String} {members : List (String × Json)}
    (known : ∀ member ∈ members, member.1 ∈ names) (once : (members.map Prod.fst).Nodup)
    (unseen : ∀ member ∈ members, member.1 ∉ seen) (plain : ∀ member ∈ members, member.2.IsPlain) :
    ofMembers names seen members = ⟨members, true⟩ := by
  induction members generalizing seen with
  | nil => rfl
  | cons member members ih =>
    obtain ⟨key, v⟩ := member
    rw [List.forall_mem_cons] at known unseen plain
    rw [List.map_cons, List.nodup_cons] at once
    have others : ∀ member ∈ members, member.1 ∉ key :: seen := by
      intro member mem again
      rcases List.mem_cons.1 again with same | again
      · exact once.1 (List.mem_map.2 ⟨member, mem, same⟩)
      · exact unseen.2 member mem again
    rw [ofMembers, if_neg (by simp [Json.isStop_of_isPlain plain.1]), if_neg (by simpa using known.1),
      if_neg unseen.1, ih known.2 once.2 others plain.2]
    rfl

end Entries

/-- The fields of an object. -/
def fieldsOf (levels : Nat) (members : List (String × Json)) : Fields :=
  ⟨levels, fun name => members.lookup name⟩

/-- A record is built of the fields that are there, one level further in. -/
theorem takes_record {names : List String} {build : Fields → Option α}
    {members : List (String × Json)} (known : ∀ member ∈ members, member.1 ∈ names)
    (once : (members.map Prod.fst).Nodup) (plain : (Json.object members).IsPlain)
    (built : ∀ levels, build (fieldsOf levels members) =
      if ∀ member ∈ members, member.2.nesting ≤ levels then some x else none) :
    Takes (record names build) (.object members) x := by
  intro levels
  cases levels with
  | zero => rw [if_neg Json.not_nesting_object_le_zero, record]
  | succ levels =>
    have entries : Entries.ofMembers names [] members = ⟨members, true⟩ :=
      Entries.ofMembers_eq known once (fun _ _ => List.not_mem_nil) (Json.isPlain_object.1 plain)
    simp only [record, Entries.of?, entries, Option.bind_some, Json.nesting_object_le_iff]
    exact built levels

namespace Fields

variable {levels : Nat} {members : List (String × Json)} {name : String}

/-- **A field that is there limits the levels,** and what is built of the other fields may limit
them further. -/
theorem required_bind {β : Type} {build : α → Option β} {y : β} {rest : Prop} [Decidable rest]
    (found : members.lookup name = some v) (h : Takes d v x)
    (built : build x = if rest then some y else none) :
    ((fieldsOf levels members).required name d >>= build) =
      if v.nesting ≤ levels ∧ rest then some y else none := by
  have field : (fieldsOf levels members).required name d = (some v).bind (d levels) :=
    congrArg (Option.bind · (d levels)) found
  rw [field, Option.bind_some, h levels]
  by_cases fits : v.nesting ≤ levels
  · rw [if_pos fits]
    simpa [fits] using built
  · rw [if_neg fits, if_neg fun both => fits both.1]
    rfl

/-- The last field of a record. -/
theorem required_last {β : Type} {make : α → β} (found : members.lookup name = some v)
    (h : Takes d v x) :
    ((fieldsOf levels members).required name d >>= fun x => pure (make x)) =
      if v.nesting ≤ levels then some (make x) else none := by
  have built : (fun x => some (make x)) x = if True then some (make x) else none :=
    (if_pos trivial).symm
  refine (required_bind found h built).trans ?_
  simp

/-- A field that is there has no need of its default, -/
theorem withDefault_bind {β : Type} {default : α} {build : α → Option β} {y : β} {rest : Prop}
    [Decidable rest] (found : members.lookup name = some v) (h : Takes d v x)
    (built : build x = if rest then some y else none) :
    ((fieldsOf levels members).withDefault name d default >>= build) =
      if v.nesting ≤ levels ∧ rest then some y else none := by
  have field : (fieldsOf levels members).withDefault name d default =
      (fieldsOf levels members).required name d := by
    simp only [withDefault, required, fieldsOf, found, Option.bind_some]
  rw [field]
  exact required_bind found h built

/-- nor has the last one. -/
theorem withDefault_last {β : Type} {default : α} {make : α → β}
    (found : members.lookup name = some v) (h : Takes d v x) :
    ((fieldsOf levels members).withDefault name d default >>= fun x => pure (make x)) =
      if v.nesting ≤ levels then some (make x) else none := by
  have built : (fun x => some (make x)) x = if True then some (make x) else none :=
    (if_pos trivial).symm
  refine (withDefault_bind found h built).trans ?_
  simp

/-- A last field that is a text, or is not there. -/
theorem optional_last {β : Type} {make : Option String → β} (content : Option String)
    (found : members.lookup name = content.map .text) :
    ((fieldsOf levels members).optional name Decoder.text >>= fun x => pure (make x)) =
      some (make content) := by
  have field : (fieldsOf levels members).optional name Decoder.text = some content := by
    simp only [Fields.optional, withDefault, fieldsOf, found]
    cases content <;> rfl
  rw [field]
  rfl

end Fields
end Decoder
end ActorLtl
