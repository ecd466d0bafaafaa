import Workflow.Compile.Basic

/-!
A session keeps compiled units under the digest of their source, so that the same text is compiled
once. A unit that is found is used again only if the files it imports are still the same. When the
session is full, the unit that was put in longest ago is dropped.
-/

namespace Workflow

/-- A unit in a session, with its number in the order of compilation. -/
structure Cached where
  number : Nat
  compiled : Compiled

/-- A session of the compiler. -/
structure Session where
  config : CompilerConfig := {}
  /-- Entries by digest, the latest first. A source that did not compile leaves an empty one. -/
  entries : List (String × Option Cached) := []
  registry : Registry := []
  hits : Nat := 0
  misses : Nat := 0
  /-- Number of units compiled so far. -/
  units : Nat := 0

namespace Session

def capacity (s : Session) : Nat := max s.config.cacheCapacity 1

/-- Puts an entry in front; what is too much is dropped at the end. -/
def put (s : Session) (key : String) (entry : Option Cached) : Session :=
  { s with entries := ((key, entry) :: s.entries.filter (·.1 ≠ key)).take s.capacity }

def fillEntry (s : Session) (key : String) (c : Cached) : Session :=
  { s with entries := s.entries.map fun e => if e.1 = key then (key, some c) else e }

/-- Whether a unit can be used again under a name: its imports mean the same files, and these have not changed. -/
def isFresh (files : Files) (name : String) (c : Compiled) : Bool :=
  (c.name = name
    || c.importPaths.all fun path => Path.resolve c.name path = Path.resolve name path)
  && c.imports.all fun (file, hash) =>
    match files.get? file with
    | some source => Digest.ofText source = hash
    | none => false

/-- Compiles a source for an entry that is there and empty. -/
def fill (s : Session) (files : Files) (key source name : String) : Session × Except CompileError Cached :=
  let s := { s with misses := s.misses + 1 }
  match compile s.config files source name with
  | .error e => (s, .error e)
  | .ok c =>
    let cached : Cached := ⟨s.units, c⟩
    let s := { s.fillEntry key cached with
      units := s.units + 1, registry := s.registry.register c.unit.sourceMap }
    (s, .ok cached)

def compile (s : Session) (files : Files) (source name : String) : Session × Except CompileError Cached :=
  let key := Digest.ofText source
  match s.entries.find? (·.1 = key) with
  | none => (s.put key none).fill files key source name
  | some (_, none) => s.fill files key source name
  | some (_, some cached) =>
    if isFresh files name cached.compiled then ({ s with hits := s.hits + 1 }, .ok cached)
    else (s.put key none).fill files key source name

def clear (s : Session) : Session := { s with entries := [] }

end Session

end Workflow
