import Workflow.Command.Arguments
import Workflow.Compile.Environment
import Workflow.Program.Json
import Workflow.Source.Disk

/-!
The commands: `check` validates a file, `dump-generated-code` prints its listing, `stats` counts its
definitions and `parse` prints its program as JSON. A command ends with code 0, with code 1 where
`check` finds errors, and with code 2 where it cannot do its work.
-/

namespace Workflow

/-- What a command prints, and the code it ends with. -/
structure CommandResult where
  code : Nat := 0
  out : String := ""
  err : String := ""
  deriving DecidableEq, Repr

/-- What to do. -/
inductive Command where
  | check (file : String) (json : Bool)
  | dump (file : String) (strip : Bool) (output : Option String)
  | stats (file : String) (json : Bool)
  | parse (file : String) (pretty : Bool)
  deriving DecidableEq, Repr

namespace Command

def file : Command → String
  | check file _ | dump file _ _ | stats file _ | parse file _ => file

def usages : List Usage := [⟨"check", "Parse and analyze a workflow (no output on success)",
    [{ long := "json", about := "Print diagnostics as JSON" }]⟩,
  ⟨"dump-generated-code", "Compile a workflow and print the generated code",
    [{ long := "strip-comments", about := "Leave out `# file:line` source comments" },
      { long := "output", short := some 'o', value := some "OUTPUT", about := "Output file (default: stdout)" }]⟩,
  ⟨"stats", "Count definitions in a workflow file",
    [{ long := "json", about := "Print counts as JSON" }]⟩,
  ⟨"parse", "Parse a workflow and output the AST as JSON",
    [{ long := "pretty", short := some 'p', about := "Pretty-print the AST JSON" }]⟩]

def ofArguments (name : String) (a : Arguments) : Command :=
  let file := a.file.getD ""
  match name with
  | "check" => check file (a.has "json")
  | "dump-generated-code" => dump file (a.has "strip-comments") (a.given.lookup "output")
  | "stats" => stats file (a.has "json")
  | _ => parse file (a.has "pretty")

/-! ### Help -/

/-- Rows of two columns, of which the first is as wide as its longest cell. -/
def columns (rows : List (String × String)) : String :=
  let width := (rows.map fun r => r.1.length).foldl max 0
  String.join (rows.map fun (left, right) =>
    "  " ++ left ++ String.ofList (List.replicate (width - left.length) ' ') ++ "  " ++ right ++ "\n")

def Switch.display (s : Switch) : String :=
  (match s.short with
    | some c => "-" ++ String.singleton c ++ ", "
    | none => "    ") ++ "--" ++ s.long
    ++ (match s.value with
      | some v => " <" ++ v ++ ">"
      | none => "")

def helpSwitch : Switch := { long := "help", short := some 'h', about := "Print help" }

def Usage.help (x : Usage) : String :=
  x.about ++ "\n\nUsage: weave " ++ x.name ++ " [OPTIONS] <FILE>\n\nArguments:\n"
    ++ columns [("<FILE>", "Input workflow file")] ++ "\nOptions:\n"
    ++ columns ((x.switches ++ [helpSwitch]).map fun s => (s.display, s.about))

def help : String :=
  "weave workflow language compiler\n\nUsage: weave <COMMAND>\n\nCommands:\n"
    ++ columns (usages.map (fun x => (x.name, x.about))
      ++ [("help", "Print this message or the help of the given subcommand(s)")])
    ++ "\nOptions:\n" ++ columns [("-h, --help", "Print help"), ("-V, --version", "Print version")]

def usage? (name : String) : Option Usage := usages.find? (·.name = name)

def misuse (message : String) : CommandResult := { code := 2, err := "error: " ++ message ++ "\n" }

/-- The command of a command line, or what to print instead. -/
def read : List String → Except CommandResult Command
  | [] => .error { code := 2, err := help }
  | ["help"] => .error { out := help }
  | ["help", name] =>
    match usage? name with
    | some x => .error { out := x.help }
    | none => .error (misuse ("unrecognized subcommand '" ++ name ++ "'"))
  | name :: rest =>
    match usage? name with
    | some x =>
      match readArguments x ({}, none) rest with
      | .ok a => .ok (ofArguments name a)
      | .error .help => .error { out := x.help }
      | .error (.usage message) => .error (misuse message)
    | none =>
      if name = "--help" || Text.startsWith name.toList ['-', 'h'] then .error { out := help }
      else if name = "--version" || Text.startsWith name.toList ['-', 'V'] then .error { out := "weave 0.1.0\n" }
      else .error (misuse ("unrecognized subcommand '" ++ name ++ "'"))

/-! ### Work -/

def report (files : Files) (source name : String) (ds : List Diagnostic) : String :=
  String.join (ds.map fun d =>
    d.render (if d.file = name then source else (files.get? d.file).getD "") ++ "\n")

def failed (details message : String) : CommandResult := { code := 2, err := details ++ "Error: " ++ message ++ "\n" }

def runCheck (files : Files) (source name : String) (json : Bool) : CommandResult :=
  let ds := validate files source name
  let errors := (ds.filter Diagnostic.isError).length
  let out := if json then (Json.arr (ds.map Diagnostic.toJson)).pretty ++ "\n" else ""
  let err := if json then "" else report files source name ds
  if 0 < errors then
    { code := 1, out := out, err := err ++ "check failed: " ++ name ++ " (" ++ toString errors ++ " error(s))\n" }
  else if json then { out := out }
  else match Program.statsOfSource source with
    | .error e => failed err e.message
    | .ok s => { err := err ++ "check passed: " ++ name ++ "\n  " ++ toString s.models ++ " model(s), "
        ++ toString s.agents ++ " agent(s), " ++ toString s.flows ++ " flow(s), "
        ++ toString s.handlers ++ " handler(s)\n" }

def runDump (config : CompilerConfig) (files : Files) (source name : String) (strip : Bool) :
    Except CommandResult String :=
  match compile config files source name with
  | .ok c => .ok (c.unit.listing.render !strip)
  | .error e => .error (failed (report files source name e.diagnostics) ("compilation failed: " ++ e.message))

def runStats (source : String) (json : Bool) : CommandResult :=
  match Program.statsOfSource source with
  | .error e => failed (report [] source "<stats>" e.diagnostics) e.message
  | .ok s =>
    if json then { out := s.toJson.render ++ "\n" }
    else { out := "models: " ++ toString s.models ++ "\nagents: " ++ toString s.agents ++ "\nflows: "
        ++ toString s.flows ++ "\nhandlers: " ++ toString s.handlers ++ "\n" }

def runParse (source name : String) (pretty : Bool) : CommandResult :=
  match Program.ofSource source name with
  | .error e => failed (report [] source name e.diagnostics) e.message
  | .ok p => { out := (if pretty then p.toJson.pretty else p.toJson.render) ++ "\n" }

def fileBound : Nat := 10000

def run {m : Type → Type} [Monad m] (fs : FileAccess m) (env : Table String) (c : Command) : m CommandResult := do
  let name := c.file
  match ← fs.read name with
  | none => pure (failed "" ("failed to read " ++ name))
  | some source =>
    let files ← fs.gather fileBound (importedNames source name) []
    match c with
    | check _ json => pure (runCheck files source name json)
    | stats _ json => pure (runStats source json)
    | parse _ pretty => pure (runParse source name pretty)
    | dump _ strip output =>
      match runDump (.ofEnvironment env) files source name strip, output with
      | .error e, _ => pure e
      | .ok code, none => pure { out := code }
      | .ok code, some path =>
        if ← fs.write path code then pure { err := "wrote " ++ path ++ "\n" }
        else pure (failed "" ("failed to write " ++ path))

def runLine {m : Type → Type} [Monad m] (fs : FileAccess m) (env : Table String) (args : List String) :
    m CommandResult :=
  match read args with
  | .ok c => c.run fs env
  | .error e => pure e

end Command

end Workflow
