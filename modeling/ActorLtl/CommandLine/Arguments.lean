/-
# Command-line arguments

A command line is a list of options of the program, a command, and the options of the
command.  An option has a long name, and maybe a letter.  It may be written `--name value`,
`--name=value`, `-n value`, `-nvalue` or `-n=value`; letters of options without value can be
joined, as in `-vc FILE`.  A value that is an argument of its own does not begin with `-`,
unless it is `-`.  Options come in any order; only those that collect values may come twice.

The arguments are read from left to right, and the first thing that is wrong, or that asks
for help, decides.  Whether something required is missing is looked at last.
-/

import ActorLtl.Config

namespace ActorLtl
namespace CommandLine

/-- Why a command line leads to no command. -/
inductive Refusal where
  /-- It asks for help. -/
  | help
  /-- It asks for the version. -/
  | version
  /-- It is not well formed. -/
  | usage
  deriving DecidableEq, Repr

/-- What an option is for. -/
inductive OptionKind where
  | switch
  /-- Takes a value that the test accepts. -/
  | value (accepts : String → Bool)
  /-- Takes such a value each time. -/
  | values (accepts : String → Bool)
  /-- Ends the reading of arguments. -/
  | stop (refusal : Refusal)

/-- An option. -/
structure CommandOption where
  long : String
  short : Option Char
  kind : OptionKind

/-- The options met so far with their values, an empty one for a switch. -/
abbrev Met := List (String × String)

namespace CommandOption

/-- Meets the option with or without a value. -/
def meet (met : Met) (o : CommandOption) (value : Option String) : Except Refusal Met :=
  let once := !met.any (·.1 == o.long)
  match o.kind, value with
  | .switch, none => if once then .ok (met ++ [(o.long, "")]) else .error .usage
  | .value accepts, some v =>
      if once && accepts v then .ok (met ++ [(o.long, v)]) else .error .usage
  | .values accepts, some v => if accepts v then .ok (met ++ [(o.long, v)]) else .error .usage
  | .stop refusal, none => .error refusal
  | _, _ => .error .usage

/-- Whether the option takes a value. -/
def takesValue (o : CommandOption) : Bool :=
  match o.kind with
  | .value _ => true
  | .values _ => true
  | _ => false

end CommandOption

/-- Reads the letters of an argument such as `-vc`.  If the last letter's option still needs
its value, that option is handed back. -/
def letters (options : List CommandOption) (met : Met) :
    List Char → Except Refusal (Met × Option CommandOption)
  | [] => .ok (met, none)
  | c :: cs =>
      match options.find? (·.short == some c) with
      | none => .error .usage
      | some o =>
          if o.takesValue then
            match cs with
            | [] => .ok (met, some o)
            | '=' :: value => do return (← o.meet met (some (String.ofList value)), none)
            | value => do return (← o.meet met (some (String.ofList value)), none)
          else do letters options (← o.meet met none) cs

/-- Reads the body of an argument such as `--name=value`.  If the option still needs its
value, it is handed back. -/
def longName (options : List CommandOption) (met : Met) (body : List Char) :
    Except Refusal (Met × Option CommandOption) :=
  let (name, rest) := body.span (· ≠ '=')
  match options.find? (·.long == String.ofList name) with
  | none => .error .usage
  | some o =>
      match rest with
      | [] => if o.takesValue then .ok (met, some o) else do return (← o.meet met none, none)
      | _ :: value => do return (← o.meet met (some (String.ofList value)), none)

/-- Reads options up to the first argument that is neither an option nor a value, and hands
that one back with all that follow it.  `pending` is an option that waits for its value. -/
def readOptions (options : List CommandOption) (met : Met) (pending : Option CommandOption) :
    List String → Except Refusal (Met × List String)
  | [] => if pending.isSome then .error .usage else .ok (met, [])
  | argument :: rest =>
      match argument.toList, pending with
      | '-' :: _ :: _, some _ => .error .usage
      | _, some o => do readOptions options (← o.meet met (some argument)) none rest
      | ['-', '-'], none => if rest.isEmpty then .ok (met, []) else .error .usage
      | '-' :: '-' :: body, none => do
          let (met, pending) ← longName options met body
          readOptions options met pending rest
      | '-' :: c :: cs, none => do
          let (met, pending) ← letters options met (c :: cs)
          readOptions options met pending rest
      | _, none => .ok (met, argument :: rest)

/-! ## The commands -/

/-- What `nba` is asked for beside its files. -/
structure NbaOptions where
  construction : Option Construction
  skipFormulaSimplifier : Bool
  skipAcceptanceSimplifier : Bool
  skipPortfolio : Bool
  complete : Bool
  stateAcceptance : Bool
  dryRun : Bool
  deriving DecidableEq, Repr

/-- The configuration with these options taken into account.  An option can switch a
simplification off and a requirement on, never the other way. -/
def NbaOptions.apply (o : NbaOptions) (c : TranslatorConfig) : TranslatorConfig where
  engine := { c.engine with
    construction := o.construction.getD c.engine.construction
    simplifyFormula := c.engine.simplifyFormula && !o.skipFormulaSimplifier
    simplifyAcceptance := c.engine.simplifyAcceptance && !o.skipAcceptanceSimplifier
    portfolio := c.engine.portfolio && !o.skipPortfolio
    complete := c.engine.complete || o.complete
    stateAcceptance := c.engine.stateAcceptance || o.stateAcceptance }
  batch := c.batch
  output := { c.output with dryRun := c.output.dryRun || o.dryRun }

/-- A command with its arguments. -/
inductive Command where
  | translate (model : String) (properties : List String) (output : Option String)
  | nba (model property : String) (output : Option String) (options : NbaOptions)
  | info
  deriving DecidableEq, Repr

/-- What a command line asks for. -/
structure Invocation where
  config : Option String
  verbose : Bool
  command : Command
  deriving DecidableEq, Repr

/-- Asks for help. -/
def helpOption : CommandOption := ⟨"help", some 'h', .stop .help⟩

/-- An option whose value is a path; a path is not empty. -/
def pathOption (long : String) (short : Char) : CommandOption :=
  ⟨long, some short, .value (· ≠ "")⟩

def programOptions : List CommandOption :=
  [pathOption "config" 'c', ⟨"verbose", some 'v', .switch⟩, helpOption,
   ⟨"version", some 'V', .stop .version⟩]

def translateOptions : List CommandOption :=
  [pathOption "model" 'm', ⟨"property", some 'p', .values (· ≠ "")⟩, pathOption "output" 'o',
   helpOption]

def nbaOptions : List CommandOption :=
  [pathOption "model" 'm', pathOption "property" 'p', pathOption "output" 'o',
   ⟨"translation", some 't', .value fun name => (Construction.ofName? name).isOk⟩,
   ⟨"skip-formula-simplifier", none, .switch⟩, ⟨"skip-acceptance-simplifier", none, .switch⟩,
   ⟨"skip-translation-portfolio", none, .switch⟩, ⟨"complete", none, .switch⟩,
   ⟨"state-acceptance", none, .switch⟩, ⟨"dry-run", none, .switch⟩, helpOption]

/-- The value of an option that must be there. -/
def required (met : Met) (long : String) : Except Refusal String :=
  match met.lookup long with
  | some value => .ok value
  | none => .error .usage

/-- Reads all options of a command; nothing else may stand among them. -/
def onlyOptions (options : List CommandOption) (arguments : List String) :
    Except Refusal Met := do
  match ← readOptions options [] none arguments with
  | (met, []) => return met
  | (_, _ :: _) => throw .usage

/-- Reads the arguments of a command. -/
def readCommand (name : String) (arguments : List String) : Except Refusal Command := do
  match name with
  | "translate" =>
      let met ← onlyOptions translateOptions arguments
      let model ← required met "model"
      discard (required met "property")
      return .translate model ((met.filter (·.1 == "property")).map Prod.snd)
        (met.lookup "output")
  | "nba" =>
      let met ← onlyOptions nbaOptions arguments
      let model ← required met "model"
      let property ← required met "property"
      let on (long : String) : Bool := (met.lookup long).isSome
      return .nba model property (met.lookup "output") {
        construction := (met.lookup "translation").bind fun name =>
          (Construction.ofName? name).toOption
        skipFormulaSimplifier := on "skip-formula-simplifier"
        skipAcceptanceSimplifier := on "skip-acceptance-simplifier"
        skipPortfolio := on "skip-translation-portfolio"
        complete := on "complete"
        stateAcceptance := on "state-acceptance"
        dryRun := on "dry-run" }
  | "info" => do
      discard (onlyOptions [helpOption] arguments)
      return .info
  | "help" =>
      if arguments.length ≤ 1 ∧ arguments.all ["translate", "nba", "info", "help"].contains then
        throw .help
      else throw .usage
  | _ => throw .usage

/-- What a command line asks for. -/
def parse (arguments : List String) : Except Refusal Invocation := do
  match ← readOptions programOptions [] none arguments with
  | (_, []) => throw .usage
  | (met, name :: rest) =>
      return {
        config := met.lookup "config"
        verbose := (met.lookup "verbose").isSome
        command := ← readCommand name rest }

/-- The forms of an option, in one line. -/
example : (parse ["-vc=a", "translate", "--model", "m", "-pp", "--property=q", "-o", "-"]).toOption =
    some ⟨some "a", true, .translate "m" ["p", "q"] (some "-")⟩ := by decide +kernel

end CommandLine
end ActorLtl
