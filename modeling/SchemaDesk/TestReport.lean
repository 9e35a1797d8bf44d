import SchemaDesk.Storage.Files
import SchemaDesk.Timestamp

/-!
# Reports of failed test runs

A run of tests that did not pass is put on record: a short summary, the names of the tests that
failed, and the output of the run.  The record is a text file whose name holds the time.
-/

namespace SchemaDesk

/-- A run of tests. -/
structure TestRun where
  testsRun : Value
  failures : List Text := []
  errors : List Text := []
  skipped : Nat := 0
  output : Text := []
  pattern : Text := []
  deriving DecidableEq, Repr

namespace TestRun

/-- The report of a run. -/
def report (r : TestRun) (now : Timestamp) : Text :=
  let summary : Text :=
    "Summary: ran=" ++ r.testsRun.text ++ ", failures=" ++ toString r.failures.length ++
      ", errors=" ++ toString r.errors.length ++ ", skipped=" ++ toString r.skipped
  let head : List Text :=
    ["Timestamp: " ++ { now with microsecond := 0 }.text, "Pattern: " ++ r.pattern, summary,
      "Failed tests:"]
  let failed := (r.failures ++ r.errors).map fun name : Text => "  - " ++ name
  let hint : Text :=
    "Fix hint: inspect stack traces below, fix failing tests, then rerun this script."
  Text.join "\n" (head ++ failed ++ [hint, [], r.output.trimRight, []])

/-- The path of the report written at a given time. -/
def reportPath (folder : Text) (now : Timestamp) : Path :=
  (Path.ofText folder).join ⟨[], ["dbcanvas_failures_" ++ now.fileText ++ ".txt"]⟩

/-- Writes a report, making its folder if it is not there; the answer is the path of the file. -/
def writeReport (d : Disk) (folder content : Text) (now : Timestamp) :
    Except Failure Path × Disk :=
  let path := reportPath folder now
  match d.makeFolder (Path.ofText folder) with
  | (.error e, d) => (.error (Files.ofDiskError e), d)
  | (.ok (), d) =>
      let (result, d) := d.writeText path content
      (match result with
        | .ok () => .ok path
        | .error e => .error (Files.ofDiskError e), d)

end TestRun

end SchemaDesk
