import Workflow.Text.Part

/-!
Arguments of the command line. After the name of a command, options may stand anywhere; an option is
given once at most, a value follows its option or is attached to it, and behind `--` everything is a
file. Asking for help ends the reading of arguments.
-/

namespace Workflow.Command

/-- An option of a command. -/
structure Switch where
  long : String
  short : Option Char := none
  /-- What the value stands for, if the option takes one. -/
  value : Option String := none
  about : String
  deriving Repr

/-- A command: its name, what it does, and its options. -/
structure Usage where
  name : String
  about : String
  switches : List Switch
  deriving Repr

/-- Arguments as read: the file, and the options with their values. -/
structure Arguments where
  file : Option String := none
  given : List (String × String) := []
  deriving Repr

/-- Why the arguments are not taken for a command. -/
inductive Stop where
  | help
  | usage (message : String)
  deriving Repr

namespace Arguments

def has (a : Arguments) (long : String) : Bool := (a.given.lookup long).isSome

def add (a : Arguments) (s : Switch) (value : String) : Except Stop Arguments :=
  if a.has s.long then .error (.usage ("the argument '--" ++ s.long ++ "' cannot be used multiple times"))
  else if s.value.isSome && value = "" then
    .error (.usage ("a value is required for '--" ++ s.long ++ "' but none was supplied"))
  else .ok { a with given := a.given ++ [(s.long, value)] }

def addFile (a : Arguments) (file : String) : Except Stop Arguments :=
  if a.file.isSome then .error (.usage ("unexpected argument '" ++ file ++ "' found"))
  else if file = "" then .error (.usage "a value is required for '<FILE>' but none was supplied")
  else .ok { a with file := some file }

end Arguments

def unexpected {α : Type} (arg : List Char) : Except Stop α :=
  .error (.usage ("unexpected argument '" ++ String.ofList arg ++ "' found"))

def isSwitch (arg : String) : Bool :=
  match arg.toList with
  | '-' :: _ :: _ => true
  | _ => false

/-- What an argument leaves to be done: nothing, or an option that waits for its value. -/
abbrev Pending := Arguments × Option Switch

def readLong (x : Usage) (a : Arguments) (body : List Char) : Except Stop Pending :=
  let name := String.ofList (body.takeWhile (· ≠ '='))
  let attached := (body.dropWhile (· ≠ '=')).tail?.map String.ofList
  if name = "help" && attached.isNone then .error .help
  else match x.switches.find? (·.long = name), attached with
    | none, _ => unexpected ('-' :: '-' :: body)
    | some s, some value =>
      if s.value.isSome then do .ok (← a.add s value, none) else unexpected ('-' :: '-' :: body)
    | some s, none => if s.value.isSome then .ok (a, some s) else do .ok (← a.add s "", none)

/-- Reads the letters behind one dash. What follows the letter of an option with a value is the
value. -/
def readShort (x : Usage) : Arguments → List Char → Except Stop Pending
  | a, [] => .ok (a, none)
  | a, c :: rest =>
    if c = 'h' then .error .help
    else match x.switches.find? (·.short = some c) with
      | none => unexpected ['-', c]
      | some s =>
        if s.value.isSome then
          match rest with
          | [] => .ok (a, some s)
          | '=' :: value => do .ok (← a.add s (String.ofList value), none)
          | value => do .ok (← a.add s (String.ofList value), none)
        else do readShort x (← a.add s "") rest

def readArgument (x : Usage) (a : Arguments) (arg : String) : Except Stop Pending :=
  match arg.toList with
  | '-' :: '-' :: body => readLong x a body
  | '-' :: c :: rest => readShort x a (c :: rest)
  | _ => do .ok (← a.addFile arg, none)

def Arguments.complete (a : Arguments) : Except Stop Arguments :=
  if a.file.isSome then .ok a
  else .error (.usage "the following required arguments were not provided: <FILE>")

/-- Reads the arguments behind the name of a command. -/
def readArguments (x : Usage) : Pending → List String → Except Stop Arguments
  | (a, none), [] => a.complete
  | (_, some s), [] => .error (.usage ("a value is required for '--" ++ s.long ++ "' but none was supplied"))
  | (a, some s), arg :: rest =>
    if isSwitch arg then
      .error (.usage ("a value is required for '--" ++ s.long ++ "' but none was supplied"))
    else do readArguments x (← a.add s arg, none) rest
  | (a, none), arg :: rest =>
    if arg = "--" then do (← rest.foldlM Arguments.addFile a).complete
    else do readArguments x (← readArgument x a arg) rest

end Workflow.Command
