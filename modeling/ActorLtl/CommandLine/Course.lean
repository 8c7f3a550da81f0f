/-
# The courses that `translate` can take

Nothing is written while batches are translated, so a file gives one answer however often it is
read.  `Files Id` are files of one answer each, and a host is steady if its files give these answers
as long as it is only read from and asked for the time (`Host.Steady`).  What is compiled on a
steady host is then what is compiled from the answers (`Host.Steady.compile`).

What a batch comes to is told from the answers, but for the identities of its nodes and for the
time it takes.  Batches that run at once share the identities out among them in any way that gives
none twice (`Batch.GivenOnce`), and with these they run in any schedule to its end
(`Schedule.Reachable`); what has been collected is reported (`CommandLine.Course`).
-/

import ActorLtl.Batch.Allotment
import ActorLtl.Batch.Schedule
import ActorLtl.CommandLine
import Mathlib.Data.List.Forall2

namespace ActorLtl

section Answers

variable {σ α β : Type} {good : σ → Prop}

/-- Whether a program gives the answer of another one, which needs no state, in every good state,
and ends in a good state again. -/
def Answers (good : σ → Prop) (x : StateM σ α) (y : Id α) : Prop :=
  ∀ s, good s → (x.run s).1 = y ∧ good (x.run s).2

theorem Answers.pure (a : α) : Answers good (pure a) (pure a) := fun _ h => ⟨rfl, h⟩

theorem Answers.bind {x : StateM σ α} {y : Id α} {f : α → StateM σ β} {g : α → Id β}
    (first : Answers good x y) (next : ∀ a, Answers good (f a) (g a)) :
    Answers good (x >>= f) (y >>= g) := by
  intro s h
  obtain ⟨rfl, between⟩ := first s h
  exact next _ _ between

/-- The same of programs that give out identities, whichever is the next one. -/
def Follows (good : σ → Prop) (x : StateT NodeId (StateM σ) α) (y : StateT NodeId Id α) : Prop :=
  ∀ n, Answers good (x.run n) (y.run n)

namespace Follows

theorem pure (a : α) : Follows good (pure a) (pure a) := fun _ => .pure _

theorem bind {x : StateT NodeId (StateM σ) α} {y : StateT NodeId Id α}
    {f : α → StateT NodeId (StateM σ) β} {g : α → StateT NodeId Id β}
    (first : Follows good x y) (next : ∀ a, Follows good (f a) (g a)) :
    Follows good (x >>= f) (y >>= g) :=
  fun n => (first n).bind fun between => next between.1 between.2

theorem liftM {x : StateM σ α} {y : Id α} (h : Answers good x y) :
    Follows good (liftM x) (liftM y) :=
  fun n => h.bind fun a => .pure (a, n)

theorem modifyGet (f : NodeId → α × NodeId) : Follows good (modifyGet f) (modifyGet f) :=
  fun _ => .pure _

end Follows
end Answers

/-- Whether the files of a host give these answers in every good state and refuse texts in the same
words, and neither reading them nor taking the time leads out of the good states. -/
structure Host.Steady {σ : Type} (host : Host (StateM σ)) (files : Files Id) (good : σ → Prop) :
    Prop where
  readText (path : String) : Answers good (host.files.readText path) (files.readText path)
  refusal : host.files.refusal = files.refusal
  clock {s : σ} : good s → good (host.clock.run s).2

namespace Host.Steady

variable {σ : Type} {host : Host (StateM σ)} {files : Files Id} {good : σ → Prop}
  (steady : host.Steady files good)
include steady

theorem readModel (path : String) :
    Answers good (Batch.readModel host.files path) (Batch.readModel files path) := by
  refine (steady.readText path).bind fun text => ?_
  cases text with
  | error cause => exact .pure _
  | ok text =>
    dsimp only
    rw [steady.refusal]
    cases Batch.modelOfText? text <;> exact .pure _

theorem readProperties (model : ActorModel) (path : String) :
    Follows good (Batch.readProperties host.files model path)
      (Batch.readProperties files model path) := by
  refine (Follows.liftM (steady.readText path)).bind fun text => ?_
  cases text with
  | error cause => exact .pure _
  | ok text =>
    refine (Follows.modifyGet _).bind fun loaded => ?_
    rw [steady.refusal]
    cases loaded <;> exact .pure _

/-- **A steady host compiles** what its files give. -/
theorem compile (source : BatchSource) :
    Follows good (Batch.compile (Batch.fileCompilers host.files) source)
      (Batch.compile (Batch.fileCompilers files) source) := by
  refine (Follows.liftM (steady.readModel source.model)).bind fun model => ?_
  cases model with
  | error cause => exact .pure _
  | ok model => exact steady.readProperties model source.property

end Host.Steady

/-- Files with these texts, to which nothing can be written. -/
def Files.ofTexts {m : Type → Type} [Monad m] (texts : String → Except FileError String) :
    Files m where
  readText path := return texts path
  pathExists path := return (texts path).isOk
  writeText _ _ := return .error .permissionDenied

/-- A host with these texts that keeps what is printed; no time passes on it, and there are no other
programs. -/
def Host.ofTexts (texts : String → Except FileError String) : Host (StateM (List String)) where
  files := .ofTexts texts
  print text := modify (· ++ [text])
  clock := return 0
  search _ := return none
  launch _ _ _ := return .notStarted "no such program"

theorem Host.steady_ofTexts (texts : String → Except FileError String) (printed : List String) :
    (ofTexts texts).Steady (.ofTexts texts) (· = printed) where
  readText path := Answers.pure (texts path)
  refusal := rfl
  clock := id

namespace CommandLine

/-- One way for the command `translate` to go, if several batches may run at once: where it ends
and with which status.  Either there cannot be as many permits as configured; or the batches, whose
nodes get identities that no others get, run in some schedule to its end, each takes some time, and
their outcomes are reported. -/
inductive Course {σ : Type} (host : Host (StateM σ)) (files : Files Id) (good : σ → Prop)
    (c : TranslatorConfig) (model : String) (properties : List String) (output : Option String)
    (before : σ) : UInt32 → σ → Prop
  | aborted : c.batch.hasPermits = false →
      Course host files good c model properties output before abort before
  | reported {given : Nat → Nat → NodeId} {s : Schedule} {outcomes : List BatchOutcome}
      {between : σ} :
      c.batch.hasPermits = true →
      Batch.GivenOnce files (properties.map (BatchSource.mk model)) given →
      Schedule.Reachable (fun k => Batch.allotted files (given k)) c.batch
        (properties.map (BatchSource.mk model)) s →
      s.IsOver →
      List.Forall₂ (fun outcome timed => ∃ milliseconds, timed = outcome.after milliseconds)
        s.outcomes outcomes →
      good between →
      Course host files good c model properties output before
        ((report host c.output properties output outcomes).run between).1
        ((report host c.output properties output outcomes).run between).2

end CommandLine
end ActorLtl
