import AccessTokens.Storage.Connection
import AccessTokens.Storage.FileTree

/-!
# What the engine is told to open

The engine takes the name of a file as a path, or, if it begins with `file:`, as an address: a path and
options, each percent-encoded, in which a byte of zero ends the part it stands in (`Target.ofName?`).
The options of an address can take rights away (`Target.access?`), choose a file system
(`Target.fileSystem?`), or say yes or no to a thing (`Target.isSet`).
-/

namespace AccessTokens.Storage

/-! ### File systems -/

/-- A way of the engine to reach files. -/
structure FileSystem where
  name : String
  /-- The greatest number of bytes in a full name with that of its journal. -/
  longestPath : Nat := 512
  /-- Tells whether writes can go to a log beside the file. -/
  keepsLog : Bool := false
  /-- What is added to the name of a file for the index of its log, unless that is in memory. -/
  indexSuffix : Option String := none
  /-- What is added to the name of a file for its lock, if that is a place of its own. -/
  lockSuffix : Option String := none
  /-- Tells whether the files are in memory. -/
  inMemory : Bool := false

namespace FileSystem

/-- The file system that is used unless another one is named. -/
def usual : FileSystem := { name := "unix", keepsLog := true, indexSuffix := some "-shm" }

/-- Every file system there is. -/
def all : List FileSystem :=
  [usual,
    { name := "unix-none" },
    { name := "unix-dotfile", lockSuffix := some ".lock" },
    { name := "unix-excl", keepsLog := true },
    { name := "memdb", longestPath := 1024, inMemory := true }]

/-- The file system with a name. -/
def ofName? (name : List UInt8) : Option FileSystem :=
  all.find? fun fs => Text.bytes fs.name = name

end FileSystem

/-! ### Rights -/

/-- What may be done with a file. -/
inductive OpenMode
  | readOnly
  | readWrite
  /-- A file that is not there is made. -/
  | create
  deriving DecidableEq

namespace OpenMode

/-- Each mode allows more than the one before it. -/
def rank : OpenMode → Nat
  | .readOnly => 1
  | .readWrite => 2
  | .create => 3

/-- The mode that a word of an address asks for. -/
def ofWord? (word : List UInt8) : Option OpenMode :=
  if word = Text.bytes "ro" then some .readOnly
  else if word = Text.bytes "rw" then some .readWrite
  else if word = Text.bytes "rwc" then some .create
  else none

end OpenMode

/-- A mode, which an address may have left open, and whether the database is in memory. -/
structure Access where
  mode : Option OpenMode
  inMemory : Bool

namespace Access

/-- The access that a word of an address asks for. It may not ask for more than there is, unless the
database is in memory. -/
def restrict? (a : Access) (word : List UInt8) : Option Access :=
  if word = Text.bytes "memory" then some ⟨none, true⟩
  else do
    let mode ← OpenMode.ofWord? word
    if a.inMemory || mode.rank ≤ (a.mode.map OpenMode.rank).getD 0 then
      some ⟨some mode, false⟩
    else none

/-- Takes an option of an address into an access. -/
def withOption? (a : Access) (key value : List UInt8) : Option Access :=
  if key = Text.bytes "mode" then a.restrict? value
  else if key = Text.bytes "cache" then
    if value = Text.bytes "shared" ∨ value = Text.bytes "private" then some a else none
  else some a

end Access

/-! ### Names of files -/

/-- A path and options that go with it. -/
structure Target where
  path : List UInt8
  options : List (List UInt8 × List UInt8) := []

namespace Target

/-- A part of an address, which ends before its first byte of zero. -/
def part (bs : List UInt8) : List UInt8 := Text.upTo 0 (Percent.decode bs)

/-- An address without its authority, which may only be the local host. -/
def withoutAuthority? (address : List UInt8) : Option (List UInt8) :=
  match Text.after? (Text.bytes "//") address with
  | none => some address
  | some rest =>
    let authority := Text.upTo FileTree.slash rest
    if authority = [] ∨ authority = Text.bytes "localhost" then
      some (rest.drop authority.length)
    else none

/-- The options that a text lists. One without a key is passed over. -/
def optionsOf (bs : List UInt8) : List (List UInt8 × List UInt8) :=
  ((Text.pieces '&'.toUInt8 bs).map fun option =>
    (part (Text.upTo '='.toUInt8 option), part (Text.beyond '='.toUInt8 option))).filter
      fun option => option.1 ≠ []

/-- The target of the name of a file. -/
def ofName? (name : List UInt8) : Option Target :=
  match Text.after? (Text.bytes "file:") name with
  | none => some { path := name }
  | some address => do
    let body := Text.upTo '#'.toUInt8 (← withoutAuthority? address)
    return {
      path := part (Text.upTo '?'.toUInt8 body)
      options := optionsOf (Text.beyond '?'.toUInt8 body) }

/-- The target of a connection. A path that goes with options is taken as it is, and only a path that
goes alone may be an address, which must not have a byte of zero. -/
def ofConnection? (c : Connection) : Option Target :=
  if c.immutable || c.fileSystem.isSome then
    let immutable := if c.immutable then [(Text.bytes "immutable", Text.bytes "true")] else []
    let fileSystem := c.fileSystem.toList.map fun name =>
      (Text.bytes "vfs", Text.upTo 0 (Text.bytes name))
    some { path := Text.upTo 0 c.path, options := immutable ++ fileSystem }
  else if 0 ∈ c.path then none
  else ofName? c.path

/-- The value of the first option with a key. -/
def value? (t : Target) (key : String) : Option (List UInt8) := t.options.lookup (Text.bytes key)

/-- The number that digits of a base at the start of a text make with the one before them. -/
def leadingNumber (base : Nat) : Nat → List Char → Nat
  | n, [] => n
  | n, c :: cs =>
    match (Hex.digitValue? c).filter (· < base) with
    | some d => leadingNumber base (base * n + d) cs
    | none => n

/-- Tells whether a value says yes: as a word of any case, or as a number below 2³¹ whose lowest byte is
not zero. A number is decimal unless it begins with `0x`, and what follows its digits is passed over. -/
def isYes (value : List UInt8) : Bool :=
  let cs := value.map fun b => (Char.ofNat b.toNat).toLower
  if (cs.head?.map Char.isDigit).getD false then
    let n := match cs with
      | '0' :: 'x' :: digits => leadingNumber 16 0 digits
      | digits => leadingNumber 10 0 digits
    n < 0x80000000 && n % 256 ≠ 0
  else ["on", "yes", "true"].any fun word => word.toList = cs

/-- Tells whether the first option with a key says yes. -/
def isSet (t : Target) (key : String) : Bool := ((t.value? key).map isYes).getD false

/-- The access that is left when the options are taken into one. -/
def access? (t : Target) (a : Access) : Option Access :=
  t.options.foldlM (fun a option => a.withOption? option.1 option.2) a

/-- The file system that the last option to name one names. -/
def fileSystem? (t : Target) : Option FileSystem :=
  match (t.options.reverse).lookup (Text.bytes "vfs") with
  | none => some .usual
  | some name => FileSystem.ofName? name

end Target

end AccessTokens.Storage
