/-
# Formulas on traces

A trace says at each of the positions `0, 1, 2, …` what is true there.  A property of the
positions is *timed*; the temporal operators make timed properties of timed properties, and
`Formula.Holds` reads a formula as the timed property that it states.

The four operators of two operands come in pairs.  `weakUntil` and `release` are the strong
forms or their operand for ever, and `strongUntil` and `strongRelease` differ in who holds at
the position that ends the wait.  `eventually_iff` and `globally_iff` say that one operand of
each pair is enough for the operators of one operand.
-/

import ActorLtl.Formula

namespace ActorLtl

/-- What is true at each position. -/
abbrev Trace (α : Type) := Nat → α → Prop

/-- A property of positions. -/
abbrev Timed := Nat → Prop

namespace Timed

/-- At the next position. -/
def next (p : Timed) : Timed := fun t => p (t + 1)

/-- From here on. -/
def globally (p : Timed) : Timed := fun t => ∀ u, t ≤ u → p u

/-- Here or later. -/
def eventually (p : Timed) : Timed := fun t => ∃ u, t ≤ u ∧ p u

/-- `p` up to a position of `q`, which comes. -/
def strongUntil (p q : Timed) : Timed := fun t =>
  ∃ u, t ≤ u ∧ q u ∧ ∀ v, t ≤ v → v < u → p v

/-- `p` up to a position of `q`, or for ever. -/
def weakUntil (p q : Timed) : Timed := fun t => strongUntil p q t ∨ globally p t

/-- `q` up to and with a position of `p`, which comes. -/
def strongRelease (p q : Timed) : Timed := fun t =>
  ∃ u, t ≤ u ∧ p u ∧ ∀ v, t ≤ v → v ≤ u → q v

/-- `q` up to and with a position of `p`, or for ever. -/
def release (p q : Timed) : Timed := fun t => strongRelease p q t ∨ globally q t

/-- **To come is to end a wait in which nothing is asked for.** -/
theorem eventually_iff {p : Timed} {t : Nat} :
    eventually p t ↔ strongUntil (fun _ => True) p t := by
  simp [eventually, strongUntil]

/-- **To last is to be released by nothing.** -/
theorem globally_iff {p : Timed} {t : Nat} : globally p t ↔ release (fun _ => False) p t := by
  simp [release, strongRelease]

/-- **A strong wait is a weak one that ends.** -/
theorem strongUntil_iff {p q : Timed} {t : Nat} :
    strongUntil p q t ↔ weakUntil p q t ∧ eventually q t := by
  constructor
  · rintro ⟨u, hu, hq, hp⟩
    exact ⟨.inl ⟨u, hu, hq, hp⟩, u, hu, hq⟩
  · rintro ⟨h | h, u, hu, hq⟩
    · exact h
    · exact ⟨u, hu, hq, fun v hv _ => h v hv⟩

end Timed

namespace Formula

mutual
/-- The timed property that a formula states about a trace. -/
def Holds (trace : Trace Nat) : Formula → Timed
  | constant value => fun _ => value = true
  | atom index => fun t => trace t index
  | negation f => fun t => ¬ Holds trace f t
  | conjunction fs => AllHold trace fs
  | disjunction fs => AnyHolds trace fs
  | next f => (Holds trace f).next
  | globally f => (Holds trace f).globally
  | eventually f => (Holds trace f).eventually
  | strongUntil f g => (Holds trace f).strongUntil (Holds trace g)
  | weakUntil f g => (Holds trace f).weakUntil (Holds trace g)
  | strongRelease f g => (Holds trace f).strongRelease (Holds trace g)
  | release f g => (Holds trace f).release (Holds trace g)
/-- All of several formulas at once. -/
def AllHold (trace : Trace Nat) : List Formula → Timed
  | [] => fun _ => True
  | f :: fs => fun t => Holds trace f t ∧ AllHold trace fs t
/-- One at least of several formulas. -/
def AnyHolds (trace : Trace Nat) : List Formula → Timed
  | [] => fun _ => False
  | f :: fs => fun t => Holds trace f t ∨ AnyHolds trace fs t
end

theorem allHold_iff {trace : Trace Nat} {fs : List Formula} {t : Nat} :
    AllHold trace fs t ↔ ∀ f ∈ fs, f.Holds trace t := by
  induction fs with
  | nil => simp [AllHold]
  | cons f fs ih => simp [AllHold, ih]

theorem anyHolds_iff {trace : Trace Nat} {fs : List Formula} {t : Nat} :
    AnyHolds trace fs t ↔ ∃ f ∈ fs, f.Holds trace t := by
  induction fs with
  | nil => simp [AnyHolds]
  | cons f fs ih => simp [AnyHolds, ih]

@[simp] theorem holds_and {trace : Trace Nat} {f g : Formula} {t : Nat} :
    (f.and g).Holds trace t ↔ f.Holds trace t ∧ g.Holds trace t := by
  simp [Formula.and, Holds, AllHold]

@[simp] theorem holds_or {trace : Trace Nat} {f g : Formula} {t : Nat} :
    (f.or g).Holds trace t ↔ f.Holds trace t ∨ g.Holds trace t := by
  simp [Formula.or, Holds, AnyHolds]

end Formula
end ActorLtl
