import AccessTokens.Storage.Database
import AccessTokens.Storage.Opened

/-!
# Opening databases

The settings of a database name a path. The directories above it are made first, which fails below
something that is no directory, and then the path is handed to the engine as the text of a connection
(`Settings.openOn`). A database that cannot be written to can be opened all the same, but its migrations
fail (`Opened.migrate`), so that it never has a table.
-/

namespace AccessTokens.Storage

/-- Opens the database of some settings, or tells why it cannot be opened. -/
def Settings.openOn (s : Settings) (tree : FileTree) : Except StorageError (FileTree × Opened) :=
  let path := Text.bytes s.path
  match tree.makeDirectories? (FileTree.parentPath path) with
  | none => .error .files
  | some tree' =>
    let connection := Connection.ofText? (Text.bytes "sqlite:" ++ path)
    match connection.bind fun c => c.open? tree' s.writeAheadLog with
    | none => .error .engine
    | some result => .ok result

namespace Opened

/-- The database that is found on opening, of which a file keeps what it held before. -/
def database (o : Opened) (kept : Database) : Database := if o.inFile then kept else Database.bare

/-- Makes the table, unless nothing can be written. -/
def migrate (o : Opened) (d : Database) : Except StorageError Database :=
  if o.writable then .ok d.migrate else .error .migration

end Opened

end AccessTokens.Storage
