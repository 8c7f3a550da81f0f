/-
# Plain JSON values

A plain value holds nothing but what a text can hold and a reader takes in as it stands: no
numbers other than naturals below `2 ^ 64`, nothing unreadable and no stops.  What the program
writes is plain.
-/

import ActorLtl.Json.Writer

namespace ActorLtl
namespace Json

mutual
/-- Whether a text holds the value as it is. -/
def IsPlain : Json → Prop
  | natural value => value < UInt64.size
  | array items => ListPlain items
  | object members => MembersPlain members
  | number _ => False
  | unreadable => False
  | stop => False
  | null => True
  | bool _ => True
  | text _ => True
/-- Whether several values are plain. -/
def ListPlain : List Json → Prop
  | [] => True
  | v :: vs => IsPlain v ∧ ListPlain vs
/-- Whether the values of several members are plain. -/
def MembersPlain : List (String × Json) → Prop
  | [] => True
  | (_, v) :: members => IsPlain v ∧ MembersPlain members
end

@[simp] theorem isPlain_text (content : String) : (text content).IsPlain := by
  simp only [IsPlain]

@[simp] theorem isPlain_array {items : List Json} :
    (array items).IsPlain ↔ ∀ v ∈ items, v.IsPlain := by
  simp only [IsPlain]
  induction items with
  | nil => simp [ListPlain]
  | cons v vs ih => simp [ListPlain, ih]

@[simp] theorem isPlain_object {members : List (String × Json)} :
    (object members).IsPlain ↔ ∀ member ∈ members, member.2.IsPlain := by
  simp only [IsPlain]
  induction members with
  | nil => simp [MembersPlain]
  | cons member members ih => simp [MembersPlain, ih]

/-- A reader is not stopped at a plain value. -/
theorem isStop_of_isPlain {v : Json} (plain : v.IsPlain) : v.isStop = false := by
  cases v with
  | stop => simp only [IsPlain] at plain
  | _ => rfl

mutual
/-- **A plain value can be taken in as a whole.** -/
theorem isReadable_of_isPlain : (v : Json) → v.IsPlain → v.isReadable
  | null, _ => rfl
  | bool _, _ => rfl
  | natural _, _ => rfl
  | text _, _ => rfl
  | array items, plain => listReadable_of_listPlain items plain
  | object members, plain => membersReadable_of_membersPlain members plain
theorem listReadable_of_listPlain : (vs : List Json) → ListPlain vs → listReadable vs
  | [], _ => rfl
  | v :: vs, plain => by
      simp [listReadable, isReadable_of_isPlain v plain.1, listReadable_of_listPlain vs plain.2]
theorem membersReadable_of_membersPlain : (members : List (String × Json)) →
    MembersPlain members → membersReadable members
  | [], _ => rfl
  | (_, v) :: members, plain => by
      simp [membersReadable, isReadable_of_isPlain v plain.1,
        membersReadable_of_membersPlain members plain.2]
end

/-- The text of a value. -/
def write (layout : Layout) (v : Json) : String := String.ofList (v.writeOnto layout [])

/-- A value in one line is written without blanks, one over several lines from the margin on. -/
theorem write_compact (v : Json) : v.write .compact = v.compact := rfl

theorem write_indented (v : Json) : v.write (.indented 0) = v.pretty := rfl

end Json
end ActorLtl
