import StructuralTyping.Config
import StructuralTyping.Files
import StructuralTyping.Report
import StructuralTyping.Scenario.Read

/-!
# The command line

The command takes flags and the paths of scenarios.  It reads a configuration,
given by a flag or found in the working directory or above it, runs every
scenario and reports the results.  It exits with 0 when every case passed, with
1 when something failed, with 2 on a bad flag, and with 64 when nothing was
asked for or the configuration cannot be read.

Everything here is a function of the arguments and the files.
-/

namespace StructuralTyping

/-! ## Arguments -/

/-- What the arguments ask for. -/
structure Command where
  /-- The path of the configuration, empty to look for one. -/
  config : String := ""
  debug : Bool := false
  verbose : Bool := false
  paths : List String := []

/-- Why arguments are refused.  A request for help is one reason. -/
inductive FlagProblem where
  | help
  | badForm (argument : String)
  | undefined (name : String)
  | badTruth (value name : String)
  | valueMissing (name : String)
  deriving DecidableEq, Repr, Inhabited

namespace FlagProblem

/-- The flags with their meaning. -/
def usage : String :=
  "Usage of tscheck:\n"
    ++ "  -config string\n    \tPath to tsinfer.yaml (default: search from the current directory)\n"
    ++ "  -debug\n    \tLog checker decisions to stderr\n"
    ++ "  -v\tPrint passing cases too\n"

/-- What is printed about a problem with flags. -/
def text : FlagProblem → String
  | .help => usage
  | .badForm a => "bad flag syntax: " ++ a ++ "\n" ++ usage
  | .undefined n => "flag provided but not defined: -" ++ n ++ "\n" ++ usage
  | .badTruth v n =>
    "invalid boolean value " ++ quote v ++ " for -" ++ n ++ ": parse error\n" ++ usage
  | .valueMissing n => "flag needs an argument: -" ++ n ++ "\n" ++ usage

/-- The exit status. -/
def status : FlagProblem → Nat
  | .help => 0
  | _ => 2

end FlagProblem

/-- An argument as a flag: its name and the value after an equals sign. -/
structure Flag where
  name : String
  value? : Option String

/-- How an argument reads. -/
inductive Argument where
  | plain
  | endOfFlags
  | flag (f : Flag)
  | malformed

/-- Reads an argument.  A flag starts with one or two dashes. -/
def Argument.read (s : String) : Argument :=
  match s.toList with
  | ['-', '-'] => .endOfFlags
  | '-' :: c :: cs =>
    let body := if c == '-' then cs else c :: cs
    match body with
    | [] => .malformed
    | first :: rest =>
      if first == '-' || first == '=' then .malformed
      else
        match cutList? ['='] rest with
        | some (name, value) => .flag ⟨String.ofList (first :: name), some (String.ofList value)⟩
        | none => .flag ⟨String.ofList body, none⟩
  | _ => .plain

/-- Reads a truth value. -/
def readTruth? (s : String) : Option Bool :=
  if ["1", "t", "T", "true", "TRUE", "True"].contains s then some true
  else if ["0", "f", "F", "false", "FALSE", "False"].contains s then some false
  else none

namespace Command

/-- The value of a flag that is true when it is given alone. -/
def truthOf (f : Flag) : Except FlagProblem Bool :=
  match f.value? with
  | none => .ok true
  | some v =>
    match readTruth? v with
    | some b => .ok b
    | none => .error (.badTruth v f.name)

/-- Reads arguments into a command.  Flags end at the first argument that is
none. -/
def readInto (k : Command) : List String → Except FlagProblem Command
  | [] => .ok k
  | a :: as =>
    match Argument.read a with
    | .plain => .ok { k with paths := a :: as }
    | .endOfFlags => .ok { k with paths := as }
    | .malformed => .error (.badForm a)
    | .flag f =>
      match f.name, f.value?, as with
      | "config", some v, as => readInto { k with config := v } as
      | "config", none, v :: as => readInto { k with config := v } as
      | "config", none, [] => .error (.valueMissing "config")
      | "debug", _, as =>
        match truthOf f with
        | .ok b => readInto { k with debug := b } as
        | .error p => .error p
      | "v", _, as =>
        match truthOf f with
        | .ok b => readInto { k with verbose := b } as
        | .error p => .error p
      | name, _, _ => .error (if name == "help" || name == "h" then .help else .undefined name)

/-- Reads arguments. -/
def read (args : List String) : Except FlagProblem Command := readInto {} args

end Command

/-! ## Configuration -/

/-- The name of a configuration that is looked for. -/
def configName : String := "tsinfer.yaml"

/-- Where a configuration is looked for: in a directory, then above it. -/
def configPlaces (directory : String) : List String :=
  (ancestors directory).map fun d => if d == "/" then d ++ configName else d ++ "/" ++ configName

namespace Command

/-- The path of the configuration: the given one, or the first that can be read. -/
def configPath? (k : Command) (F : Files) : Option String :=
  if k.config.isEmpty then (configPlaces F.directory).find? fun p => (F.read p).isOk
  else some k.config

/-- Reads the configuration.  The default when there is none. -/
def loadConfig (k : Command) (F : Files) : Except String Config :=
  match k.configPath? F with
  | none => .ok {}
  | some path =>
    match F.read path with
    | .error p => .error ("reading config " ++ path ++ ": " ++ p.text path)
    | .ok content =>
      match Config.read path content with
      | .ok c => .ok c
      | .error p => .error (p.text path)

end Command

/-! ## Logging -/

/-- The text must be quoted in a log line. -/
def needsQuotes (s : String) : Bool :=
  s.isEmpty || s.toList.any fun c =>
    let n := c.toNat
    if n < 128 then n < 33 || c == '=' || c == '"'
    else n == 0xfffd || isSpace c || !isPrintable c

/-- A value in a log line. -/
def logValue (s : String) : String := if needsQuotes s then quote s else s

/-- A log line as it is written. -/
def LogLine.text (l : LogLine) : String :=
  joinText " " (["level=DEBUG", "msg=" ++ logValue l.message, "component=checker"]
    ++ l.values.map fun (k, v) => k ++ "=" ++ logValue v) ++ "\n"

/-- The log of a case. -/
def CaseResult.log (c : CaseResult) : String :=
  String.join (c.trace.map fun r => (r.logLine c.decls).text)

/-! ## Running -/

/-- What a command leaves behind. -/
structure Ending where
  status : Nat
  output : String := ""
  errors : String := ""
  deriving DecidableEq, Repr, Inhabited

/-- What has been written and counted so far. -/
structure Progress where
  output : String := ""
  errors : String := ""
  tally : Tally := {}

/-- A message of the command itself. -/
def commandMessage (s : String) : String := "tscheck: " ++ s ++ "\n"

/-- Reads the scenario at a path. -/
def loadScenario (F : Files) (path : String) : Except String Scenario :=
  match F.read path with
  | .error p => .error ("reading scenario: " ++ p.text path)
  | .ok content =>
    match Scenario.read path content with
    | .ok s => .ok s
    | .error p => .error (p.text path)

namespace Command

/-- Runs the scenario at a path.  One that cannot be read counts as a failure. -/
def runPath (k : Command) (F : Files) (o : Options) (g : Progress) (path : String) : Progress :=
  match loadScenario F path with
  | .error message =>
    { g with errors := g.errors ++ commandMessage message, tally := g.tally.add false }
  | .ok s =>
    let results := s.run o
    let log := if k.debug then String.join (results.map (·.log)) else ""
    { output := g.output ++ Reporter.text { verbose := k.verbose } s.path results
      errors := g.errors ++ log
      tally := g.tally.addAll results }

/-- Runs all scenarios under a configuration. -/
def runAll (k : Command) (F : Files) (c : Config) : Ending :=
  let g := k.paths.foldl (k.runPath F c.options) {}
  ⟨if 0 < g.tally.failed then 1 else 0, g.output ++ g.tally.text, g.errors⟩

/-- Runs a command. -/
def run (k : Command) (F : Files) : Ending :=
  if k.paths.isEmpty then
    { status := 64, errors := "Usage: tscheck [-config file] [-debug] [-v] scenario.yaml...\n" }
  else
    match k.loadConfig F with
    | .error message => { status := 64, errors := commandMessage message }
    | .ok c => k.runAll F c

/-- The paths that a command may read. -/
def reads (k : Command) (directory : String) : List String :=
  (if k.config.isEmpty then configPlaces directory else [k.config]) ++ k.paths

end Command

/-- Runs the command line. -/
def runCommandLine (args : List String) (F : Files) : Ending :=
  match Command.read args with
  | .error p => { status := p.status, errors := p.text }
  | .ok k => k.run F

end StructuralTyping
