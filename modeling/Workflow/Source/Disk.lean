import Workflow.Source.Imports

/-!
Where commands find their files: some way to read and write by path, of which a disk in memory is
one. Reading starts from one file and goes on to the files that it imports.
-/

namespace Workflow

/-- A way to read and write files; reading gives nothing where there is no text, and writing says whether it was
possible. -/
structure FileAccess (m : Type → Type) where
  read : String → m (Option String)
  write : String → String → m Bool

/-- Files by path, from the working directory. Directories are there for the files in them. -/
abbrev Disk := Table String

namespace Disk

def paths (d : Disk) : List (List (List Char)) := d.map fun file => Path.split file.1.toList

def isDirectory (d : Disk) (parts : List (List Char)) : Bool :=
  parts.isEmpty || d.paths.any fun path => parts.length < path.length && path.take parts.length = parts

/-- Follows a path from a directory. Empty parts and single dots stay, two dots go up. -/
def walk (d : Disk) (place : List (List Char)) : List (List Char) → Option (List (List Char))
  | [] => some place
  | part :: rest =>
    if !d.isDirectory place then none
    else if part = [] || part = ['.'] then d.walk place rest
    else if part = ['.', '.'] then
      if place.isEmpty then none else d.walk place.dropLast rest
    else d.walk (place ++ [part]) rest

/-- The file that a path means. Absolute paths lead nowhere. -/
def locate? (d : Disk) (path : String) : Option String :=
  if path.toList.head? = some '/' then none
  else (d.walk [] (Path.split path.toList)).bind fun parts =>
    if d.isDirectory parts then none else some (String.ofList (Path.join parts))

def read? (d : Disk) (path : String) : Option String := (d.locate? path).bind d.get?

def write? (d : Disk) (path text : String) : Option Disk := (d.locate? path).map fun name => d.insert name text

def access : FileAccess (StateM Disk) where
  read path := do return (← get).read? path
  write path text := do
    match (← get).write? path text with
    | some d =>
      set d
      pure true
    | none => pure false

end Disk

def importedNames (source name : String) : List String :=
  match Program.ofSource source name with
  | .ok p => (Loaded.importPaths p).map fun path => Path.resolve name path.node
  | .error _ => []

def FileAccess.gather {m : Type → Type} [Monad m] (fs : FileAccess m) : Nat → List String → Files → m Files
  | 0, _, files => pure files
  | _, [], files => pure files
  | fuel + 1, name :: rest, files => do
    if files.contains name then fs.gather fuel rest files
    else match ← fs.read name with
      | none => fs.gather fuel rest files
      | some source => fs.gather fuel (rest ++ importedNames source name) (files.insert name source)

end Workflow
