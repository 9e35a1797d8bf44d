import SchemaDesk.Text.Basic

/-!
# Paths

A path is a root, which is empty for a path relative to the working folder, and the names on the
way.  Empty names and single dots say nothing and are left out; two dots lead to the folder above.
-/

namespace SchemaDesk

/-- A path of files or folders. -/
structure Path where
  root : Text
  names : List Text
  deriving DecidableEq, Repr

namespace Path

/-- The root of a written path: one slash counts like three or more, two are a root of their own. -/
def rootOf : Text → Text
  | .char '/' :: .char '/' :: .char '/' :: _ => "/"
  | .char '/' :: .char '/' :: _ => "//"
  | .char '/' :: _ => "/"
  | _ => []

/-- The pieces of a text between slashes. -/
def pieces : Text → Text × List Text
  | [] => ([], [])
  | c :: rest =>
      let (current, later) := pieces rest
      if c = '/' then ([], current :: later) else (c :: current, later)

/-- The path that a text writes. -/
def ofText (t : Text) : Path :=
  let (first, later) := pieces t
  ⟨rootOf t, (first :: later).filter fun name => !name.isEmpty && name ≠ "."⟩

/-- Whether a path starts at a root of its own. -/
def isAbsolute (p : Path) : Bool :=
  !p.root.isEmpty

/-- The path that leads on from a folder; an absolute path leads away from it. -/
def join (folder path : Path) : Path :=
  if path.isAbsolute then path else { folder with names := folder.names ++ path.names }

/-- The folder that the last name of a path is in. -/
def parent (p : Path) : Path :=
  { p with names := p.names.dropLast }

/-- The written form of a path; the working folder is a dot. -/
def text (p : Path) : Text :=
  let way := p.root ++ Text.join "/" p.names
  if way.isEmpty then "." else way

/-- Whether a text can write the path of a file: its last piece has to be a name. -/
def writesFile (t : Text) : Bool :=
  let (first, later) := pieces t
  let last := (later.getLast?).getD first
  !last.isEmpty && last ≠ "." && last ≠ ".."

/-- Whether a path holds the character that no path may hold. -/
def holdsNul (p : Path) : Bool :=
  p.names.any (·.contains '\x00')

end Path

end SchemaDesk
