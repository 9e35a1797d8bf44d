import SchemaDesk.Storage.Path

/-!
# Files and folders

The files and folders that a session has made, below its working folder or elsewhere.  Folders above
the working folder, and the root, count as there.  Reading and writing are as strict as a file
system: every folder on the way has to be there, a folder is no file, a name has at most 255 bytes,
and a written path at most 4095.  Names are the same when their bytes are.
-/

namespace SchemaDesk

/-- A name in a file system, by its bytes. -/
abbrev FileName := List UInt8

/-- Where the way to a place starts: at the root, or some folders above the working folder. -/
inductive Origin where
  | root
  | above (levels : Nat)
  deriving DecidableEq, Repr

/-- A place, by the names that lead to it. -/
structure Spot where
  origin : Origin
  names : List FileName := []
  deriving DecidableEq, Repr

/-- The files, with their contents, and the folders. -/
structure Disk where
  folders : List Spot := []
  files : List (Spot × ByteArray) := []

/-- Why a file or a folder cannot be used. -/
inductive DiskError where
  /-- Something on the way is missing, is a file or has too long a name, or the path is too long. -/
  | refused
  /-- The path is of a folder where a file is needed. -/
  | folder
  /-- The path holds a character that no path may hold. -/
  | invalid
  /-- The path or the contents hold a surrogate that has no bytes. -/
  | unpaired
  /-- More folders are missing than are made at once. -/
  | tooDeep
  deriving DecidableEq, Repr

namespace Disk

/-- Whether a place is a folder. -/
def isFolder (d : Disk) (spot : Spot) : Bool :=
  spot.names.isEmpty || d.folders.contains spot

/-- The contents of the file at a place. -/
def file? (d : Disk) (spot : Spot) : Option ByteArray :=
  d.files.lookup spot

/-- The name that leads to the folder above: two dots. -/
def upward : FileName := [46, 46]

/-- The folder above a place; the root is above itself. -/
def above (spot : Spot) : Spot :=
  match spot.names, spot.origin with
  | [], .above levels => ⟨.above (levels + 1), []⟩
  | names, origin => ⟨origin, names.dropLast⟩

/-- The place that a name leads to from another place. -/
def step (spot : Spot) (name : FileName) : Spot :=
  if name = upward then above spot else { spot with names := spot.names ++ [name] }

/-- The greatest length of a name in bytes. -/
def maxNameBytes : Nat := 255

/-- The greatest length of a written path in bytes. -/
def maxPathBytes : Nat := 4095

/-- The most folders that are made at once. -/
def maxMissing : Nat := 985

/-- Where a path starts. -/
def start (p : Path) : Spot :=
  ⟨if p.isAbsolute then .root else .above 0, []⟩

/-- Follows names through folders that are there. -/
def walk (d : Disk) : Spot → List FileName → Except DiskError Spot
  | spot, [] => .ok spot
  | spot, name :: rest =>
      if maxNameBytes < name.length then .error .refused
      else
        let next := step spot name
        if d.isFolder next then walk d next rest else .error .refused

/-- Follows names, making the folders that are not there. -/
def makeAlong (d : Disk) : Spot → List FileName → Except DiskError Unit × Disk
  | _, [] => (.ok (), d)
  | spot, name :: rest =>
      let next := step spot name
      if maxNameBytes < name.length then (.error .refused, d)
      else if d.isFolder next then makeAlong d next rest
      else if (d.file? next).isSome then (.error .refused, d)
      else makeAlong { d with folders := d.folders ++ [next] } next rest

/-- How many folders following some names has to make. -/
def missing (d : Disk) : Spot → List FileName → Nat
  | _, [] => 0
  | spot, name :: rest =>
      let next := step spot name
      if maxNameBytes < name.length then 0
      else if d.isFolder next then missing d next rest
      else if (d.file? next).isSome then 0
      else rest.length + 1

/-- Whether a written path is longer than a file system takes. -/
def isTooLong (path : Text) : Bool :=
  path.nameBytes?.any fun bytes => maxPathBytes < bytes.length

/-- The names of a path, if it can be handed to a file system. -/
def wayOf (p : Path) : Except DiskError (List FileName) :=
  match p.names.mapM Text.nameBytes? with
  | none => .error .unpaired
  | some names =>
      if p.holdsNul then .error .invalid
      else if isTooLong p.text then .error .refused
      else .ok names

/-- Makes a folder and those on the way to it. -/
def makeFolder (d : Disk) (p : Path) : Except DiskError Unit × Disk :=
  match wayOf p with
  | .error e => (.error e, d)
  | .ok names =>
      if maxMissing < missing d (start p) names then (.error .tooDeep, d)
      else makeAlong d (start p) names

/-- The place of a file, whose folder has to be there. -/
def fileSpot (d : Disk) (p : Path) : Except DiskError Spot := do
  let names ← wayOf p
  match names.getLast? with
  | none => .error .folder
  | some name =>
      let folder ← walk d (start p) names.dropLast
      if maxNameBytes < name.length then .error .refused
      else
        let spot := step folder name
        if d.isFolder spot then .error .folder else .ok spot

/-- Sets the contents of a file in a list of files. -/
def setFile (spot : Spot) (contents : ByteArray) :
    List (Spot × ByteArray) → List (Spot × ByteArray)
  | [] => [(spot, contents)]
  | (s, old) :: rest =>
      if s = spot then (s, contents) :: rest else (s, old) :: setFile spot contents rest

/-- Writes a file, in place of what it held before. -/
def write (d : Disk) (p : Path) (contents : ByteArray) : Except DiskError Unit × Disk :=
  match fileSpot d p with
  | .error e => (.error e, d)
  | .ok spot => (.ok (), { d with files := setFile spot contents d.files })

/-- Writes a text file.  The file is emptied before the text becomes bytes. -/
def writeText (d : Disk) (p : Path) (text : Text) : Except DiskError Unit × Disk :=
  match d.write p ByteArray.empty with
  | (.error e, d) => (.error e, d)
  | (.ok (), d) =>
      match text.utf8? with
      | some contents => d.write p contents
      | none => (.error .unpaired, d)

/-- The contents of a file. -/
def read (d : Disk) (p : Path) : Except DiskError ByteArray := do
  let spot ← fileSpot d p
  match d.file? spot with
  | some contents => .ok contents
  | none => .error .refused

/-- A text as it is read from a file: every way of ending a line becomes one line feed. -/
def readLines : List Char → List Char
  | [] => []
  | [c] => if c = '\r' then ['\n'] else [c]
  | c :: d :: rest =>
      if c = '\r' then
        if d = '\n' then '\n' :: readLines rest else '\n' :: readLines (d :: rest)
      else c :: readLines (d :: rest)

end Disk

end SchemaDesk
