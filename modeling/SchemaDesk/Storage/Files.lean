import SchemaDesk.Json.Reader
import SchemaDesk.Json.Writer
import SchemaDesk.Storage.Disk
import SchemaDesk.Storage.Document

/-!
# Saving, loading and exporting

A project is saved as an indented JSON document and loaded from one; its SQL text is exported to a
file named after it.  A project that is not sound is not saved.
-/

namespace SchemaDesk.Files

/-- The failure of an operation for which the file system's own errors are not reported. -/
def ofDiskError : DiskError → Failure
  | .refused => .noSuchFile
  | .folder => .isFolder
  | .invalid => .badPath
  | .unpaired => .unpaired
  | .tooDeep => .tooDeep

/-- Saves a project.  The file is emptied before the document is made. -/
def save (d : Disk) (p : Project) (path stamp : Text) : Except Failure Unit × Disk :=
  match p.checkIntegrity with
  | .error e => (.error e, d)
  | .ok () =>
      let target := Path.ofText path
      match d.write target ByteArray.empty with
      | (.error e, d) => (.error (ofDiskError e), d)
      | (.ok (), d) =>
          match p.toDocument stamp with
          | .error e => (.error e, d)
          | .ok document =>
              let (result, d) := d.writeText target (Json.indented document)
              (result.mapError ofDiskError, d)

/-- The characters of a text file, whose bytes have to be UTF-8. -/
def readText (d : Disk) (path : Path) : Except Failure (List Char) :=
  match d.read path with
  | .error e => .error (ofDiskError e)
  | .ok contents =>
      match String.fromUTF8? contents with
      | some s => .ok (Disk.readLines s.toList)
      | none => .error .notUtf8

/-- The document in a file. -/
def readDocument (d : Disk) (path : Text) : Except Failure Value :=
  let unreadable : Failure := .problem (.unreadable path)
  let target := Path.ofText path
  if (Disk.wayOf target).toBool && (Disk.isTooLong path || !Path.writesFile path) then
    .error unreadable
  else
    match readText d target with
    | .error .noSuchFile | .error .isFolder => .error unreadable
    | .error e => .error e
    | .ok text =>
        match Json.parse text with
        | .ok document => .ok document
        | .error .malformed => .error unreadable
        | .error .tooManyDigits => .error .badNumber
        | .error .tooDeep => .error .tooDeep

/-- The failure of an export; what the file system refuses is reported. -/
def ofExportError : DiskError → Failure
  | .refused | .folder => .problem .unwritable
  | e => ofDiskError e

/-- Exports the SQL text of a project to a file in a folder, which is made if it is not there; the
answer is the path of the file. -/
def exportSql (d : Disk) (p : Project) (folder stamp : Text) : Except Failure Path × Disk :=
  match Sql.exportFileName p.name with
  | .error e => (.error e, d)
  | .ok fileName =>
      let target := (Path.ofText folder).join (Path.ofText fileName)
      match d.makeFolder target.parent with
      | (.error e, d) => (.error (ofExportError e), d)
      | (.ok (), d) =>
          match Sql.ddl p stamp with
          | .error e => (.error e, d)
          | .ok ddl =>
              match d.writeText target ddl with
              | (.error e, d) => (.error (ofExportError e), d)
              | (.ok (), d) => (.ok target, d)

end SchemaDesk.Files
