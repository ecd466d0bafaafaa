import Workflow.Listing.Op

/-!
Listings: the lines that a program compiles to, each an operation or a comment at some depth. The
text of a listing shows the depth of a line by its indentation.
-/

namespace Workflow

/-- What stands on a line. -/
inductive LineContent where
  | op (o : Op)
  | comment (text : String)

/-- A line of a listing. -/
structure Line where
  depth : Nat
  content : LineContent

abbrev Listing := List Line

namespace Line

def indentation : Nat := 2

/-- Text of a line with its line break; a comment may be left out. -/
def render (comments : Bool) (l : Line) : String :=
  let lead := String.ofList (List.replicate (l.depth * indentation) ' ')
  match l.content with
  | .op o => lead ++ o.display ++ "\n"
  | .comment text => if comments then lead ++ "# " ++ text ++ "\n" else ""

end Line

def Listing.render (lines : Listing) (comments : Bool) : String :=
  String.join (lines.map (Line.render comments))

end Workflow
