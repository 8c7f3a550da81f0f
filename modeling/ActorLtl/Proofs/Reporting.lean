/-
# Every property file is reported

However the batches of `translate` overlap, their outcomes are those of the batches by themselves,
in the order of the property files, and the nodes of the run have identities of their own.  So what
is reported is one record for each file (`CommandLine.report_mapIdx`).  Batches in order take one of
these courses (`CommandLine.exists_course`).  The configurations under which nothing is reported ask
for more permits than there can be.
-/

import ActorLtl.CommandLine.Course
import ActorLtl.Proofs.Drawing
import ActorLtl.Proofs.Interleaving
import ActorLtl.Proofs.Opening
import ActorLtl.Proofs.Record

namespace ActorLtl

namespace BatchConfig

variable {c : BatchConfig}

/-- **There can be fewer than `2 ^ 61` permits.** -/
theorem hasPermits_iff :
    c.hasPermits = true ↔ c.maxParallelBatches.toNat < 2 ^ 61 := by
  have most : maxPermits = 2 ^ 61 - 1 := rfl
  rw [hasPermits, decide_eq_true_iff, permits, most]
  omega

theorem hasPermits_eq_false_iff :
    c.hasPermits = false ↔ 2 ^ 61 ≤ c.maxParallelBatches.toNat := by
  rw [← Bool.not_eq_true, hasPermits_iff, Nat.not_lt]

end BatchConfig

/-- **A batch whose property file cannot be read has an error.** -/
theorem Batch.error_ne_none_of_unreadable {files : Files Id} {given : Nat → NodeId}
    {config : BatchConfig} {source : BatchSource} {cause : FileError}
    (unreadable : files.readText source.property = .error cause) :
    (Batch.translate (allotted files given) config source : BatchOutcome).error ≠ none := by
  have refused (model : ActorModel) : ((readProperties files model source.property).run 0).1 =
      .error (.fileAccess source.property cause.message) := by
    unfold readProperties
    rw [unreadable]
    rfl
  rw [translate_eq_map]
  unfold compile allotted
  dsimp only
  generalize readModel files source.model = read
  change Id (Except SourceError ActorModel) at read
  cases read with
  | error cause => exact Option.some_ne_none _
  | ok model =>
    show (outcomeOfCompiled config (Except.map _ _)).error ≠ none
    rw [refused]
    exact Option.some_ne_none _

/-- What is made position by position, and then by a number each, is made by the position and the
number that it has. -/
theorem exists_eq_mapIdx_of_forall₂ {α β γ : Type} {f : Nat → α → β} {g : β → Nat → γ} {xs : List α}
    {ys : List γ} (each : List.Forall₂ (fun b y => ∃ number, y = g b number) (xs.mapIdx f) ys) :
    ∃ numbers : Nat → Nat, ys = xs.mapIdx fun k a => g (f k a) (numbers k) := by
  induction xs generalizing f ys with
  | nil =>
    cases each
    exact ⟨fun _ => 0, rfl⟩
  | cons a xs ih =>
    rw [List.mapIdx_cons] at each
    obtain ⟨_, ys, ⟨number, rfl⟩, others, rfl⟩ := List.forall₂_cons_left_iff.1 each
    obtain ⟨numbers, rfl⟩ := ih others
    refine ⟨fun k => Nat.casesOn k number numbers, ?_⟩
    rw [List.mapIdx_cons]
    rfl

namespace CommandLine

variable {σ : Type} {host : Host (StateM σ)} {files : Files Id} {good : σ → Prop}
  {c : TranslatorConfig} {model : String} {properties : List String} {output : Option String}
  {before : σ}

/-! ## Batches in order -/

/-- **On a steady host a batch comes to what its files give** with the identities that come next. -/
theorem translateTimed_steady (c : TranslatorConfig) (model : String)
    (steady : host.Steady files good) (property : String) (n : NodeId) (start : good before) :
    let ended := ((translateTimed host c ⟨model, property⟩).run n).run before
    (∃ milliseconds, ended.1.1 =
      (Batch.translate (Batch.allotted files (n + ·)) c.batch ⟨model, property⟩).after
        milliseconds) ∧
      ended.1.2 = n + Batch.drawn files ⟨model, property⟩ ∧ good ended.2 := by
  obtain ⟨same, compiled⟩ := steady.compile ⟨model, property⟩ n _ (steady.clock start)
  rw [Batch.compile_run_eq] at same
  obtain ⟨milliseconds, timed⟩ : ∃ milliseconds,
      ((translateTimed host c ⟨model, property⟩).run n).run before =
        let ended := ((Batch.compile (Batch.fileCompilers host.files) ⟨model, property⟩).run n).run
          (host.clock.run before).2
        (((Batch.outcomeOfCompiled c.batch ended.1.1).after milliseconds, ended.1.2),
          (host.clock.run ended.2).2) := by
    rw [translateTimed, Batch.run_bind_run, Batch.run_bind_run, Batch.translate_run_run]
    exact ⟨_, rfl⟩
  rw [timed]
  dsimp only
  rw [same, Batch.translate_eq_map]
  exact ⟨⟨milliseconds, rfl⟩, rfl, steady.clock compiled⟩

theorem mapM_translateTimed_steady (c : TranslatorConfig) (model : String)
    (steady : host.Steady files good) (properties : List String) (n : NodeId)
    (start : good before) :
    let ended := ((properties.mapM fun property =>
      translateTimed host c ⟨model, property⟩).run n).run before
    let given := Batch.givenInOrder files n (properties.map (BatchSource.mk model))
    List.Forall₂
      (fun outcome timed => ∃ milliseconds, timed = BatchOutcome.after outcome milliseconds)
      (properties.mapIdx fun k property => (Batch.translate (Batch.allotted files (given k)) c.batch
        ⟨model, property⟩ : Id BatchOutcome))
      ended.1.1 ∧ good ended.2 := by
  induction properties generalizing n before with
  | nil => exact ⟨.nil, start⟩
  | cons property properties ih =>
    obtain ⟨first, next, between⟩ :=
      translateTimed_steady c model steady property n start
    obtain ⟨rest, after⟩ :=
      ih (((translateTimed host c ⟨model, property⟩).run n).run before).1.2 between
    have behind (k : Nat) : Batch.givenInOrder files
          (((translateTimed host c ⟨model, property⟩).run n).run before).1.2
          (properties.map (BatchSource.mk model)) k =
        Batch.givenInOrder files n ((property :: properties).map (BatchSource.mk model))
          (k + 1) := by
      rw [next]
      rfl
    simp only [behind] at rest
    rw [List.mapM_cons]
    dsimp only
    rw [List.mapIdx_cons]
    exact ⟨.cons first rest, after⟩

/-- **On a steady host the command takes one of its courses:** its batches one after the other. -/
theorem exists_course (steady : host.Steady files good) (start : good before) (n : NodeId) :
    ∃ status next after,
      ((translate host c model properties output).run n).run before = ((status, next), after) ∧
        Course host files good c model properties output before status after := by
  cases permitted : c.batch.hasPermits with
  | false =>
    refine ⟨abort, n, before, ?_, .aborted permitted⟩
    rw [translate, Batch.runAll, permitted]
    rfl
  | true =>
    obtain ⟨told, between⟩ := mapM_translateTimed_steady c model steady properties n start
    generalize ended : ((properties.mapM fun property =>
      translateTimed host c ⟨model, property⟩).run n).run before = last at told between
    let sources := properties.map (BatchSource.mk model)
    have begun : Schedule.Reachable
        (fun k => Batch.allotted files (Batch.givenInOrder files n sources k)) c.batch sources
        (.start sources) := .start
    obtain ⟨s, reachable, done⟩ := begun.exists_isOver
    rw [← mapIdx_map, ← reachable.outcomes_eq done] at told
    refine ⟨_, last.1.2, _, ?_, .reported permitted (Batch.givenOnce_inOrder files n sources)
      reachable done told between⟩
    rw [translate, Batch.runAll, permitted, ← ended]
    rfl

/-- **Every property file is reported.**  However its batches overlap, the command `translate`
writes one array at once, with one record for each property file and in their order; each says what
its batch came to, also if this or other batches lack definitions or everything.  A batch comes to
what translating it by itself comes to, with some time and with identities of its own: no two nodes
of the run have the same one.  The status is 0 exactly if everything could be written and is all
there, and 1 otherwise; a dry run has the same status and writes nothing.  If there cannot be as
many permits as configured, nothing is done.  The program itself, which translates its batches in
order, takes one of these courses. -/
theorem translate_reports {σ : Type} (host : Host (StateM σ)) (files : Files Id) (good : σ → Prop)
    (c : TranslatorConfig) (model : String) (properties : List String) (output : Option String)
    (before : σ) :
    (∀ status after, Course host files good c model properties output before status after →
      (c.batch.maxParallelBatches.toNat < 2 ^ 61 →
        ∃ (given : Nat → Nat → NodeId) (times : Nat → Nat) (rs : List Json) (between : σ),
          let outcome (k : Nat) (property : String) : BatchOutcome :=
            Batch.translate (Batch.allotted files (given k)) c.batch ⟨model, property⟩
          let text :=
            if c.output.prettyPrint then (Json.array rs).pretty else (Json.array rs).compact
          good between ∧
            (properties.mapIdx fun k property => Batch.compiledIds
              (Batch.compile (Batch.allotted files (given k)) ⟨model, property⟩)).flatten.Nodup ∧
            rs.length = properties.length ∧
            (∀ (k : Nat) (property : String), properties[k]? = some property →
              ∃ record, rs[k]? = some record ∧
                IsRecord property ((outcome k property).after (times k)) record) ∧
            ((∀ (k : Nat) (property : String), properties[k]? = some property →
                ((outcome k property).after (times k)).stats.AreWords) →
              Json.parse? text = some (.array rs)) ∧
            (c.output.dryRun = true → after = between) ∧
            (c.output.dryRun = false → after =
              output.elim ((host.print (text ++ "\n")).run between).2
                fun path => ((host.files.writeText path text).run between).2) ∧
            (status = 0 ↔ (c.output.dryRun = true ∨ ∀ path, output = some path →
                ((host.files.writeText path text).run between).1 = .ok ()) ∧
              ∀ (k : Nat) (property : String), properties[k]? = some property →
                (outcome k property).error = none ∧ (outcome k property).failures = []) ∧
            (status ≠ 0 → status = 1)) ∧
      (2 ^ 61 ≤ c.batch.maxParallelBatches.toNat → status = 101 ∧ after = before)) ∧
    (host.Steady files good → good before → ∀ n, ∃ status next after,
      ((translate host c model properties output).run n).run before = ((status, next), after) ∧
        Course host files good c model properties output before status after) := by
  refine ⟨fun status after course => ?_, fun steady start n => exists_course steady start n⟩
  cases course with
  | aborted refused =>
    rw [BatchConfig.hasPermits_eq_false_iff] at refused
    exact ⟨fun permitted => absurd permitted (Nat.not_lt.2 refused), fun _ => ⟨rfl, rfl⟩⟩
  | @reported given s outcomes between permitted once reachable done timed steady =>
    rw [BatchConfig.hasPermits_iff] at permitted
    refine ⟨fun _ => ?_, fun refused => absurd permitted (Nat.not_lt.2 refused)⟩
    rw [reachable.outcomes_eq done, mapIdx_map] at timed
    obtain ⟨times, rfl⟩ := exists_eq_mapIdx_of_forall₂ timed
    have unique := once.nodup
    rw [mapIdx_map] at unique
    obtain ⟨read, dry, wet, status⟩ :=
      report_mapIdx host c properties output between fun k property => BatchOutcome.after
        (Batch.translate (Batch.allotted files (given k)) c.batch ⟨model, property⟩) (times k)
    simp only [isComplete_translate_iff] at status
    exact ⟨given, times, _, between, steady, unique, List.length_mapIdx, fun k property stands =>
      ⟨_, getElem?_mapIdx_eq_some stands, isRecord_batchRecord property _⟩, read, dry, wet, status⟩

/-- Two property files without definitions and between them one that is not there. -/
theorem translate_reports_missing :
    let host : Host (StateM (List String)) := .ofTexts fun path =>
      if path = "m.json" then .ok (ActorModel.toJson ⟨[], []⟩).compact
      else if path = "p.json" then .ok (PropertyModel.toJson ⟨[], [], []⟩).compact
      else .error .notFound
    ∃ next rs,
      ((translate host .default "m.json" ["p.json", "missing.json", "p.json"] none).run 0).run [] =
        ((1, next), [(Json.array rs).pretty ++ "\n"]) ∧ rs.length = 3 := by
  intro host
  obtain ⟨courses, sequential⟩ := translate_reports host (.ofTexts _) (· = []) .default "m.json"
    ["p.json", "missing.json", "p.json"] none []
  obtain ⟨status, next, after, run, course⟩ := sequential (Host.steady_ofTexts _ []) rfl 0
  obtain ⟨given, -, rs, between, start, -, count, -, -, -, written, whole, otherwise⟩ :=
    (courses status after course).1 (by decide)
  have unsuccessful : status ≠ 0 := fun same =>
    Batch.error_ne_none_of_unreadable rfl ((whole.1 same).2 1 "missing.json" rfl).1
  refine ⟨next, rs, ?_, count⟩
  rw [run, otherwise unsuccessful, written rfl, start]
  rfl

/-- So many batches at once as every check lets pass and no machine permits: nothing is reported. -/
theorem translate_reports_nothing :
    let host : Host (StateM (List String)) := .ofTexts fun path =>
      if path = "m.json" then .ok (ActorModel.toJson ⟨[], []⟩).compact
      else .ok (PropertyModel.toJson ⟨[⟨"one", none⟩], [], []⟩).compact
    let c : TranslatorConfig :=
      { TranslatorConfig.default with
        batch := { BatchConfig.default with maxParallelBatches := 2305843009213693952 } }
    c.complaint? (fun _ => true) = none ∧ c.output.dryRun = false ∧
      ((translate host c "m.json" ["p.json"] none).run 0).run [] = ((abort, 0), []) ∧
      abort ≠ success ∧ abort ≠ failure := by
  intro host c
  have refused : c.batch.hasPermits = false := by decide +kernel
  refine ⟨by decide +kernel, rfl, ?_, by decide, by decide⟩
  rw [translate, Batch.runAll, refused]
  rfl

end CommandLine
end ActorLtl
