/-
# Saved configurations

A text that has been written at a path is what the path leads to (`FileTree.keeps_files`), and the
text of a configuration holds every setting (`TranslatorConfig.ofText?_pretty`).  So a configuration
that has been saved is loaded as it is or refused for the first of its faults, as the files stand
after it has been saved (`TranslatorConfig.load_saved`).
-/

import ActorLtl.Config.Json
import ActorLtl.Proofs.Reading
import ActorLtl.Proofs.Taking
import Mathlib.Tactic.SplitIfs

namespace ActorLtl

/-! ## Files that are written -/

namespace FileTree

variable {tree tree' : FileTree} {place : List String} {path text : String}

/-- **A way is the same in every tree with the same directories on it.**  The place at its end is
none of them unless a directory stands there. -/
theorem follow_of_entryAt?_eq
    (same : ∀ other, other ≠ place → tree'.entryAt? other = tree.entryAt? other)
    (noDirectory : tree.entryAt? place ≠ some .directory) {start : List String} {parts : List String}
    (leads : tree.follow start parts = .ok place) : tree'.follow start parts = .ok place := by
  induction parts generalizing start with
  | nil => exact leads
  | cons part parts ih =>
    rw [follow] at leads ⊢
    cases here : tree.entryAt? start with
    | none =>
      rw [here] at leads
      cases leads
    | some entry =>
      cases entry with
      | file text =>
        rw [here] at leads
        cases leads
      | directory =>
        -- A way goes on at directories only, so it is not at its place yet.
        have passed : start ≠ place := by
          rintro rfl
          exact noDirectory here
        rw [same start passed, here]
        simp only [here] at leads
        dsimp only
        split_ifs at leads ⊢ with stays up long
        · exact ih leads
        · exact ih leads
        · exact ih leads

/-- The tree in which a file with this text stands at a place. -/
def put (tree : FileTree) (place : List String) (text : String) : FileTree :=
  { tree with entries := (place, .file (some text)) :: tree.entries }

theorem entryAt?_put (notRoot : place ≠ []) :
    FileTree.entryAt? (tree.put place text) place = some (.file (some text)) := by
  rw [entryAt?, if_neg notRoot, put, List.lookup_cons_self]

theorem entryAt?_put_of_ne {other : List String} (ne : other ≠ place) :
    FileTree.entryAt? (tree.put place text) other = tree.entryAt? other := by
  have differs : (other == place) = false := beq_eq_false_iff_ne.2 ne
  simp only [entryAt?, put, List.lookup_cons, differs]

/-- A write puts a file where its path leads, unless a directory stands there. -/
theorem exists_place_of_writeText (written : tree.writeText path text = .ok tree') :
    ∃ place, tree.place? path = .ok place ∧ tree.entryAt? place ≠ some .directory ∧
      tree' = tree.put place text := by
  rw [writeText] at written
  cases leads : tree.place? path with
  | error cause =>
    rw [leads] at written
    cases written
  | ok place =>
    rw [leads] at written
    by_cases directory : tree.entryAt? place = some .directory
    · simp only [bind, Except.bind, if_pos directory] at written
      cases written
    · simp only [bind, Except.bind, if_neg directory] at written
      exact ⟨place, rfl, directory, (Except.ok.inj written).symm⟩

/-- A path still leads where it led after a file has been put there. -/
theorem place?_put (leads : tree.place? path = .ok place)
    (noDirectory : tree.entryAt? place ≠ some .directory) :
    (tree.put place text).place? path = .ok place := by
  rw [place?] at leads ⊢
  split_ifs at leads ⊢ with nul empty long rooted
  · exact follow_of_entryAt?_eq (fun _ => entryAt?_put_of_ne) noDirectory leads
  · exact follow_of_entryAt?_eq (fun _ => entryAt?_put_of_ne) noDirectory leads

/-- **What is written is what is read.** -/
theorem readText_of_writeText (written : tree.writeText path text = .ok tree') :
    tree'.readText path = .ok text := by
  obtain ⟨place, leads, noDirectory, rfl⟩ := exists_place_of_writeText written
  have notRoot : place ≠ [] := by
    rintro rfl
    exact noDirectory rfl
  simp only [readText, find?, place?_put leads noDirectory, entryAt?_put notRoot, bind, Except.bind]
  rfl

/-- **File trees keep what is written to them.** -/
theorem keeps_files : files.Keeps := by
  intro path text before after written
  simp only [files, StateT.run_bind, StateT.run_get, pure_bind] at written
  cases attempt : before.writeText path text with
  | error cause =>
    rw [attempt] at written
    cases written
  | ok tree =>
    rw [attempt] at written
    obtain rfl : tree = after := congrArg Prod.snd written
    show (tree.readText path, tree) = _
    rw [readText_of_writeText attempt]

end FileTree

/-! ## Texts of configurations -/

open Decoder (Takes)
open Decoder.Fields (withDefault_bind withDefault_last)

theorem isPlain_wordToJson (w : UInt64) : (wordToJson w).IsPlain := w.toNat_lt

theorem Construction.takes_decoder (c : Construction) : Takes decoder c.toJson c := by
  cases c with
  | eks20 => exact Decoder.takes_oneOf rfl
  | smallestAutomaton => exact Decoder.takes_oneOf rfl

namespace EngineConfig

variable (c : EngineConfig)

theorem isPlain_toJson : c.toJson.IsPlain := by
  obtain ⟨owlPath, _⟩ := c
  cases owlPath <;> simp [toJson, Construction.toJson, isPlain_wordToJson, Json.IsPlain]

theorem takes_decoder : Takes decoder c.toJson c := by
  refine Decoder.takes_record (by simp) (by simp) c.isPlain_toJson fun levels => ?_
  refine (withDefault_bind rfl (Decoder.takes_optional_text c.owlPath (by cases c.owlPath <;> rfl))
    (withDefault_bind rfl c.construction.takes_decoder
    (withDefault_bind rfl (Decoder.takes_bool c.simplifyFormula)
    (withDefault_bind rfl (Decoder.takes_bool c.simplifyAcceptance)
    (withDefault_bind rfl (Decoder.takes_bool c.portfolio)
    (withDefault_bind rfl (Decoder.takes_bool c.complete)
    (withDefault_bind rfl (Decoder.takes_bool c.stateAcceptance)
    (withDefault_last rfl (Decoder.takes_word c.timeout))))))))).trans ?_
  exact if_congr (by simp [wordToJson]) rfl rfl

end EngineConfig

namespace BatchConfig

variable (c : BatchConfig)

theorem isPlain_toJson : c.toJson.IsPlain := by
  simp [toJson, isPlain_wordToJson, Json.IsPlain]

theorem takes_decoder (cores : UInt64) : Takes (decoder cores) c.toJson c := by
  refine Decoder.takes_record (by simp) (by simp) c.isPlain_toJson fun levels => ?_
  refine (withDefault_bind rfl (Decoder.takes_word c.maxExpressionDepth)
    (withDefault_bind rfl (Decoder.takes_bool c.includeLtlDefinitions)
    (withDefault_last rfl (Decoder.takes_word c.maxParallelBatches)))).trans ?_
  simp [wordToJson]

end BatchConfig

namespace OutputConfig

variable (c : OutputConfig)

theorem isPlain_toJson : c.toJson.IsPlain := by simp [toJson, Json.IsPlain]

theorem takes_decoder : Takes decoder c.toJson c := by
  refine Decoder.takes_record (by simp) (by simp) c.isPlain_toJson fun levels => ?_
  refine (withDefault_bind rfl (Decoder.takes_bool c.dryRun)
    (withDefault_last rfl (Decoder.takes_bool c.prettyPrint))).trans ?_
  simp

end OutputConfig

namespace TranslatorConfig

variable (c : TranslatorConfig)

theorem isPlain_toJson : c.toJson.IsPlain := by
  simp [toJson, c.engine.isPlain_toJson, c.batch.isPlain_toJson, c.output.isPlain_toJson]

theorem takes_decoder (cores : UInt64) : Takes (decoder cores) c.toJson c := by
  refine Decoder.takes_record (by simp) (by simp) c.isPlain_toJson fun levels => ?_
  refine (withDefault_bind rfl c.engine.takes_decoder
    (withDefault_bind rfl (c.batch.takes_decoder cores)
    (withDefault_last rfl c.output.takes_decoder))).trans ?_
  simp

/-- A configuration takes two levels. -/
theorem nesting_toJson_le (levels : Nat) : c.toJson.nesting ≤ levels + 2 := by
  obtain ⟨⟨owlPath, _⟩, _, _⟩ := c
  cases owlPath <;>
    simp [toJson, EngineConfig.toJson, BatchConfig.toJson, OutputConfig.toJson, wordToJson,
      Construction.toJson]

/-- **The text of a configuration holds the configuration.** -/
theorem ofText?_pretty (cores : UInt64) : ofText? c.toJson.pretty cores = some c := by
  have fits : c.toJson.nesting ≤ fileLevels := c.nesting_toJson_le 125
  rw [ofText?, ← Json.write_indented, Json.parse?_write (.indented 0) c.isPlain_toJson,
    Option.bind_some, c.takes_decoder cores fileLevels, if_pos fits]

/-! ## Loading -/

/-- What a check is told of paths that the configuration does not name does not matter. -/
theorem complaint?_congr (exists? exists?' : String → Bool)
    (same : ∀ path, c.engine.owlPath = some path → exists? path = exists?' path) :
    c.complaint? exists? = c.complaint? exists?' := by
  rw [complaint?, complaint?]
  cases named : c.engine.owlPath with
  | none => rfl
  | some path => simp only [Option.filter, same path named]

/-- **The complaint is about the first fault.** -/
theorem complaint?_eq_head?_faults (exists? : String → Bool) :
    c.complaint? exists? = (c.faults exists?).head? := by
  have zero : ((c.counts.filter fun count => count.2 = 0).map fun count =>
      ConfigError.invalidValue count.1 "0").head? =
      if c.engine.timeout = 0 then some (.invalidValue "engine.timeout_ms" "0")
      else if c.batch.maxExpressionDepth = 0 then
        some (.invalidValue "batch.max_expression_depth" "0")
      else if c.batch.maxParallelBatches = 0 then
        some (.invalidValue "batch.max_parallel_batches" "0")
      else none := by
    simp only [counts, List.filter_cons, decide_eq_true_eq]
    split_ifs <;> rfl
  rw [complaint?, faults, List.head?_append, zero]
  cases c.engine.owlPath with
  | none => rfl
  | some path => cases there : exists? path <;> simp [Option.filter, there]

variable {σ : Type} {files : Files (StateM σ)} {path : String} {before : σ}

/-- **A check refuses the first fault,** and gives a configuration without faults as it is. -/
theorem validate_eq :
    ((c.validate files).run before).1 =
      match (c.faults fun path => ((files.pathExists path).run before).1).head? with
      | some cause => .error cause
      | none => .ok c := by
  have told (found : Bool) (after : σ) : ((match c.complaint? fun _ => found with
      | some complaint => return .error complaint
      | none => return .ok c : StateM σ (Except ConfigError TranslatorConfig)).run after).1 =
      match c.complaint? fun _ => found with
      | some cause => .error cause
      | none => .ok c := by
    cases c.complaint? fun _ => found <;> rfl
  rw [← complaint?_eq_head?_faults]
  -- The files are asked about the engine's path only, and only if there is one.
  cases named : c.engine.owlPath with
  | none =>
    rw [c.complaint?_congr _ (fun _ => true) (by simp [named]), ← told true before, validate, named]
    rfl
  | some path =>
    rw [c.complaint?_congr _ (fun _ => ((files.pathExists path).run before).1) (by simp [named]),
      ← told _ ((files.pathExists path).run before).2, validate, named]
    rfl

/-- What passes is a configuration without faults, -/
theorem validate_eq_ok_iff :
    ((c.validate files).run before).1 = .ok c ↔
      c.faults (fun path => ((files.pathExists path).run before).1) = [] := by
  rw [validate_eq, ← List.head?_eq_none_iff]
  split
  · rename_i found
    simp [found]
  · rename_i found
    simp [found]

/-- and what is told of any other is its first fault. -/
theorem validate_eq_error_iff {cause : ConfigError} :
    ((c.validate files).run before).1 = .error cause ↔
      (c.faults fun path => ((files.pathExists path).run before).1).head? = some cause := by
  rw [validate_eq]
  split
  · rename_i found
    simp [found]
  · rename_i found
    simp [found]

/-- **Saving** writes the text of the configuration. -/
theorem save_eq :
    (c.save files path).run before =
      match (files.writeText path c.toJson.pretty).run before with
      | (.error cause, after) => (.error (.invalidFormat cause.message), after)
      | (.ok (), after) => (.ok (), after) := by
  rw [save, StateT.run_bind]
  rcases (files.writeText path c.toJson.pretty).run before with ⟨_ | _, after⟩ <;> rfl

/-- **Loading** reads a text and checks the configuration that it holds. -/
theorem load_eq (cores : UInt64) :
    (load files path cores).run before =
      match (files.readText path).run before with
      | (.error _, after) => (.error (.fileNotFound path), after)
      | (.ok text, after) =>
          match ofText? text cores with
          | none => (.error (.invalidFormat (files.refusal "configuration" text)), after)
          | some c => (c.validate files).run after := by
  have opened (f : Except FileError String → StateM σ (Except ConfigError TranslatorConfig)) :
      (files.readText path >>= f).run before =
        (f ((files.readText path).run before).1).run ((files.readText path).run before).2 := rfl
  rw [load, opened]
  rcases (files.readText path).run before with ⟨_ | text, after⟩
  · rfl
  · dsimp only
    cases ofText? text cores <;> rfl

/-- **Saved configurations are loaded as they are checked.**  File trees keep what is written to
them.  With any files that do, let a configuration have been saved at a path, whatever texts and
numbers are in it.  Then loading it, on a machine with any number of cores, gives what checking it
gives, as the files stand after it has been saved: the configuration itself if it has no fault, and
otherwise the error that the first of its faults is, in the order of the engine's path, the time
limit, the depth and the number of batches. -/
theorem load_saved (c : TranslatorConfig) (path : String) :
    FileTree.files.Keeps ∧
      ∀ {σ : Type} (files : Files (StateM σ)), files.Keeps → ∀ (cores : UInt64) (before after : σ),
        (c.save files path).run before = (.ok (), after) →
          let loaded := ((load files path cores).run after).1
          let faults := c.faults fun path => ((files.pathExists path).run after).1
          loaded = ((c.validate files).run after).1 ∧ (loaded = .ok c ↔ faults = []) ∧
            ∀ cause, loaded = .error cause ↔ faults.head? = some cause := by
  refine ⟨FileTree.keeps_files, fun files keeps cores before after saved => ?_⟩
  intro loaded faults
  have written : (files.writeText path c.toJson.pretty).run before = (.ok (), after) := by
    rw [save_eq] at saved
    split at saved
    · cases saved
    · rename_i state attempt
      obtain rfl := congrArg Prod.snd saved
      exact attempt
  have read := keeps path c.toJson.pretty before after written
  have checked : loaded = ((c.validate files).run after).1 := by
    simp only [loaded, load_eq, read, ofText?_pretty]
  rw [checked]
  exact ⟨rfl, c.validate_eq_ok_iff, fun cause => c.validate_eq_error_iff⟩

/-- A configuration whose engine is the file that it is saved in: there is none before, and it is
loaded with all its settings on a machine with eight cores.  Of another one with two faults the
first is told. -/
theorem load_saved_itself :
    let path := "set/\"own\".json"
    let c : TranslatorConfig := { default with
      engine := { EngineConfig.default with
        owlPath := some "set/.//../set/\"own\".json", timeout := 18446744073709551615 } }
    let worn : TranslatorConfig := { c with
      engine := { c.engine with owlPath := some "set/owl\n", timeout := 0 } }
    let tree : FileTree := ⟨[(["set"], .directory)], []⟩
    let kept (c : TranslatorConfig) : FileTree :=
      ⟨[(["set", "\"own\".json"], .file (some c.toJson.pretty)), (["set"], .directory)], []⟩
    (c.validate FileTree.files).run tree =
        (.error (.invalidValue "engine.owl_path" "set/.//../set/\"own\".json"), tree) ∧
      (c.save FileTree.files path).run tree = (.ok (), kept c) ∧
      ((load FileTree.files path 8).run (kept c)).1 = .ok c ∧
      (worn.save FileTree.files path).run tree = (.ok (), kept worn) ∧
      ((load FileTree.files path 8).run (kept worn)).1 =
        .error (.invalidValue "engine.owl_path" "set/owl\n") := by
  have saved (c : TranslatorConfig) : (c.save FileTree.files "set/\"own\".json").run
      ⟨[(["set"], .directory)], []⟩ =
        (.ok (), ⟨[(["set", "\"own\".json"], .file (some c.toJson.pretty)),
          (["set"], .directory)], []⟩) := rfl
  intro path c worn tree kept
  obtain ⟨keeps, loads⟩ := load_saved c path
  obtain ⟨-, whole, -⟩ := loads FileTree.files keeps 8 tree (kept c) (saved c)
  obtain ⟨-, -, refused⟩ :=
    (load_saved worn path).2 FileTree.files keeps 8 tree (kept worn) (saved worn)
  exact ⟨rfl, saved c, whole.2 rfl, saved worn, (refused _).2 rfl⟩

end TranslatorConfig
end ActorLtl
