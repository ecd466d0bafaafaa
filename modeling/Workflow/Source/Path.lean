/-!
Paths of source files. A path is a text whose parts are divided by slashes. An import is looked up
beside the file that holds it; nothing but the end of a path is cleaned up.
-/

namespace Workflow.Path

/-- The parts of a text between slashes; there is always one more than there are slashes. -/
def split : List Char → List (List Char)
  | [] => [[]]
  | '/' :: rest => [] :: split rest
  | c :: rest =>
    match split rest with
    | [] => [[c]]
    | part :: parts => (c :: part) :: parts

/-- The text of parts with slashes between them. -/
def join : List (List Char) → List Char
  | [] => []
  | [part] => part
  | part :: parts => part ++ '/' :: join parts

/-- Drops parts at the end that say nothing: empty ones, and single dots. -/
def trim (parts : List (List Char)) : List (List Char) :=
  (parts.reverse.dropWhile fun part => part.isEmpty || part = ['.']).reverse

/-- What a path starts with. -/
inductive Lead where
  | root
  | here
  | none
  deriving DecidableEq

def lead : List Char → Lead × List Char
  | '/' :: rest => (.root, rest)
  | ['.'] => (.here, [])
  | '.' :: '/' :: rest => (.here, '/' :: rest)
  | path => (.none, path)

def Lead.text : Lead → List Char
  | root => ['/']
  | here => ['.']
  | none => []

/-- The directory that holds a path. The root, and an empty path, are held by none. -/
def parent? (path : List Char) : Option (List Char) :=
  let (start, rest) := lead path
  match trim (split rest), start with
  | [], .here => some []
  | [], _ => none
  | parts, start => some (start.text ++ join (trim parts.dropLast))

/-- A path inside a directory; an absolute path stands for itself. -/
def inside (dir path : List Char) : List Char :=
  if path.head? = some '/' then path
  else if dir.getLast? = some '/' then dir ++ path
  else dir ++ '/' :: path

/-- The file that a path means when a file imports it. -/
def resolve (importer path : String) : String :=
  match parent? importer.toList with
  | none | some [] => path
  | some dir => String.ofList (inside dir path.toList)

end Workflow.Path
