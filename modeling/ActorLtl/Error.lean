/-
# What can go wrong

Four groups of causes, one for each thing the program depends on: the files that a batch is
read from, the definitions in them, the translation engine, and the configuration.  Each
cause carries what a reader needs to know and nothing else; its wording is in `message`, and
its name, for a program that reads the answer, in `name`.
-/

namespace ActorLtl

/-- Why no property model could be read for a batch. -/
inductive SourceError where
  | fileAccess (path reason : String)
  | invalidModel (path detail : String)
  | invalidPropertyModel (path detail : String)
  /-- A definition names an instance that the model does not declare. -/
  | unknownInstance (subject missing : String)
  deriving DecidableEq, Repr

/-- Why a definition has no formula. -/
inductive DefinitionError where
  | depthExceeded (subject : String) (depth limit : Nat)
  /-- The formula uses a proposition that has no name. -/
  | danglingProposition (subject : String) (index available : Nat)
  deriving DecidableEq, Repr

/-- Why a formula has no automaton. -/
inductive EngineError where
  | engineNotFound (engine : String)
  | executionFailed (output : String)
  | timeout (milliseconds : Nat)
  /-- The engine ran to its end and wrote no automaton. -/
  | emptyOutput (formula : String)
  deriving DecidableEq, Repr

/-- Why there is no usable configuration. -/
inductive ConfigError where
  | fileNotFound (path : String)
  | invalidFormat (detail : String)
  | missingKey (key : String)
  | invalidValue (key value : String)
  deriving DecidableEq, Repr

/-- Any of these, or a fault of the program itself. -/
inductive TranslatorError where
  | source (cause : SourceError)
  | definition (cause : DefinitionError)
  | engine (cause : EngineError)
  | config (cause : ConfigError)
  | internal (detail : String)
  deriving DecidableEq, Repr

namespace SourceError

/-- What a reader is told. -/
def message : SourceError → String
  | fileAccess path reason => "Could not access file \"" ++ path ++ "\": " ++ reason
  | invalidModel path detail => "Invalid model in " ++ path ++ ": " ++ detail
  | invalidPropertyModel path detail => "Invalid property model in " ++ path ++ ": " ++ detail
  | unknownInstance subject missing =>
      "Definition '" ++ subject ++ "' refers to unknown rebec '" ++ missing ++ "'"

/-- The name of the cause. -/
def name : SourceError → String
  | fileAccess .. => "FileAccess"
  | invalidModel .. => "InvalidModel"
  | invalidPropertyModel .. => "InvalidPropertyModel"
  | unknownInstance .. => "UnknownInstance"

end SourceError

namespace DefinitionError

/-- What a reader is told. -/
def message : DefinitionError → String
  | depthExceeded subject depth limit =>
      "Expression of '" ++ subject ++ "' is nested " ++ toString depth ++
        " levels deep, limit is " ++ toString limit
  | danglingProposition subject index available =>
      "Formula of '" ++ subject ++ "' uses proposition " ++ toString index ++
        " but only " ++ toString available ++ " are named"

/-- The name of the cause. -/
def name : DefinitionError → String
  | depthExceeded .. => "DepthExceeded"
  | danglingProposition .. => "DanglingProposition"

/-- The name of the definition that has no formula. -/
def subject : DefinitionError → String
  | depthExceeded subject .. => subject
  | danglingProposition subject .. => subject

/-- **Whatever the cause, the reader is told which definition it is about.** -/
theorem exists_message_eq (cause : DefinitionError) :
    ∃ before behind, cause.message = before ++ cause.subject ++ behind := by
  have longer {subject text : String} (more : String) :
      (∃ before behind, text = before ++ subject ++ behind) →
        ∃ before behind, text ++ more = before ++ subject ++ behind := by
    rintro ⟨before, behind, rfl⟩
    exact ⟨before, behind ++ more, String.append_assoc⟩
  cases cause with
  | depthExceeded => exact longer _ (longer _ (longer _ ⟨_, _, rfl⟩))
  | danglingProposition => exact longer _ (longer _ (longer _ (longer _ ⟨_, _, rfl⟩)))

end DefinitionError

namespace EngineError

/-- What a reader is told. -/
def message : EngineError → String
  | engineNotFound engine => "Translation engine not found: " ++ engine
  | executionFailed output => "Translation engine execution failed: " ++ output
  | timeout milliseconds => "Translation engine timeout after " ++ toString milliseconds ++ "ms"
  | emptyOutput formula => "Translation engine produced no automaton for: " ++ formula

/-- The name of the cause. -/
def name : EngineError → String
  | engineNotFound .. => "EngineNotFound"
  | executionFailed .. => "ExecutionFailed"
  | timeout .. => "Timeout"
  | emptyOutput .. => "EmptyOutput"

end EngineError

namespace ConfigError

/-- What a reader is told. -/
def message : ConfigError → String
  | fileNotFound path => "Configuration file not found: " ++ path
  | invalidFormat detail => "Invalid configuration format: " ++ detail
  | missingKey key => "Missing required configuration key: " ++ key
  | invalidValue key value => "Invalid configuration value for key '" ++ key ++ "': " ++ value

/-- The name of the cause. -/
def name : ConfigError → String
  | fileNotFound .. => "FileNotFound"
  | invalidFormat .. => "InvalidFormat"
  | missingKey .. => "MissingKey"
  | invalidValue .. => "InvalidValue"

end ConfigError

/-- What a reader is told, with the group of the cause in front. -/
def TranslatorError.message : TranslatorError → String
  | source cause => "Compilation error: " ++ cause.message
  | definition cause => "Definition error: " ++ cause.message
  | engine cause => "Translation engine error: " ++ cause.message
  | config cause => "Configuration error: " ++ cause.message
  | internal detail => "Internal error: " ++ detail

end ActorLtl
