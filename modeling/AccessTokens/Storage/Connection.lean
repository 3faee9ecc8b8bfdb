import AccessTokens.Storage.Location
import AccessTokens.Text.Bytes
import AccessTokens.Text.Ends
import AccessTokens.Text.Percent
import AccessTokens.Text.Pieces

/-!
# Connections

The text of a connection says how a database is to be opened: a scheme, which may be repeated, a
percent-encoded path, and options after a `?` (`Connection.ofText?`). The path `:memory:` stands for a
database in memory before it is decoded; a path that comes out as `:memory:` after decoding is left to
the engine.

Options are set one after the other, and the last one to set a thing decides, except that no option
takes back `mode=ro` or `mode=memory`. Keys and values that are not known are refused, but for the name
of a file system, which is the engine's to know.
-/

namespace AccessTokens.Storage

/-- How a database is to be opened. -/
structure Connection where
  path : List UInt8
  inMemory : Bool := false
  readOnly : Bool := false
  /-- A file that is not there is made. -/
  create : Bool := false
  /-- The file is taken to be unchangeable. -/
  immutable : Bool := false
  /-- The name of a file system, if it is not the usual one. -/
  fileSystem : Option String := none

namespace Connection

/-- A text without all repetitions of another one at its start, of which there are at most `n`. -/
def withoutAll (start : List UInt8) : Nat → List UInt8 → List UInt8
  | 0, bs => bs
  | n + 1, bs =>
    match Text.after? start bs with
    | some rest => withoutAll start n rest
    | none => bs

/-- The text of a connection without its scheme. -/
def withoutScheme (bs : List UInt8) : List UInt8 :=
  withoutAll (Text.bytes "sqlite:") bs.length
    (withoutAll (Text.bytes "sqlite://") bs.length bs)

/-- The text that bytes encode, if they encode one. -/
def decoded? (bs : List UInt8) : Option String :=
  String.fromUTF8? (ByteArray.mk (Percent.decode bs).toArray)

/-- A key or a value of an option, where `+` stands for a space. Bytes that encode no text become a
character that is in no known key or value. -/
def optionText (bs : List UInt8) : String :=
  (decoded? (bs.map fun b => if b = '+'.toUInt8 then ' '.toUInt8 else b)).getD "\ufffd"

/-- Sets one option. -/
def set? (c : Connection) (key value : String) : Option Connection :=
  match key, value with
  | "mode", "ro" => some { c with readOnly := true }
  | "mode", "rwc" => some { c with create := true }
  | "mode", "memory" => some { c with inMemory := true }
  | "mode", "rw" | "cache", "private" | "cache", "shared" => some c
  | "immutable", "true" | "immutable", "1" => some { c with immutable := true }
  | "immutable", "false" | "immutable", "0" => some { c with immutable := false }
  | "vfs", name => some { c with fileSystem := some name }
  | _, _ => none

/-- Sets the options that a text lists. -/
def setAll? (c : Connection) (options : List UInt8) : Option Connection :=
  ((Text.pieces '&'.toUInt8 options).filter (· ≠ [])).foldlM (fun c option =>
    c.set? (optionText (Text.upTo '='.toUInt8 option)) (optionText (Text.beyond '='.toUInt8 option))) c

/-- Reads the text of a connection. -/
def ofText? (text : List UInt8) : Option Connection := do
  let whole := withoutScheme text
  let path := Text.upTo '?'.toUInt8 whole
  let options := Text.beyond '?'.toUInt8 whole
  -- The path of a database in memory is told before anything is decoded.
  if path = Text.bytes Settings.memoryPath then
    setAll? { path := path, inMemory := true } options
  else
    setAll? { path := Text.bytes (← decoded? path) } options

end Connection

end AccessTokens.Storage
