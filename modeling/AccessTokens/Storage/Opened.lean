import AccessTokens.Storage.Target

/-!
# Opened databases

A target is opened on a tree of files (`Target.open?`). A database without a path is in memory, as is
one with the path `:memory:`. Otherwise a file is opened or made.

The engine needs more than the file that it opens. Before a write it notes in a journal what the file
held; once the file is logged, writes go to a log, which has an index; and a lock may have a place of its
own. The name of each is that of the file and a suffix (`FileTree.beside`). Where one of them cannot be
made, because something else is there or its name is too long, the file cannot be written to or not even
be read (`Target.openAt?`). A file that is taken to be unchangeable needs none of them
(`Target.openFile?`).

A database is worked with through several connections. The path of a later one must not go through what
the first one has made, which is the file, and a log with its index while it is open
(`FileTree.withLog`).
-/

namespace AccessTokens.Storage

/-- A database that has been opened. -/
structure Opened where
  /-- The data outlive the connection. -/
  inFile : Bool
  writable : Bool
  deriving DecidableEq

/-- What is added to the name of a file for its journal. -/
def journalSuffix : String := "-journal"

/-- What is added to the name of a file for its log. -/
def logSuffix : String := "-wal"

/-- A tree while the log of a file is open, which is then a file, as is its index. -/
def FileTree.withLog (t : FileTree) (fs : FileSystem) (place : List FileName) : FileTree :=
  (logSuffix :: fs.indexSuffix.toList).foldl
    (fun t suffix => t.make (FileTree.beside place suffix) .foreign) t

namespace Target

/-- A target without a path, or with that of memory, or opened in memory, has no file. -/
def hasFile (t : Target) (a : Access) : Bool :=
  !a.inMemory && t.path ≠ [] && t.path ≠ Text.bytes Settings.memoryPath

/-- Opens the index of a log, which has no place if it is in memory, and tells whether the log can be
written to. What is in the place of the index is only read, and without anything there an index is made,
unless it is asked to be read only. -/
def openIndex? (t : Target) (tree : FileTree) (place : Option (List FileName)) : Option Bool :=
  match place with
  | none => some true
  | some place =>
    if !tree.isFree place then some false
    else if t.isSet "readonly_shm" then none
    else some true

/-- The place that a path has for a file system. -/
def place? (t : Target) (tree : FileTree) (fs : FileSystem) : Option (List FileName) :=
  tree.fullName? fs.longestPath t.path

/-- Opens what is at a place on the disk. If a log is asked for, the file is logged at once, which is a
first write and needs the journal. Without locks there is no log. -/
def openAt? (t : Target) (tree : FileTree) (fs : FileSystem) (a : Access) (log : Bool)
    (place : List FileName) : Option (FileTree × Opened) := do
  let locks := !t.isSet "nolock"
  let asksToWrite := a.mode ≠ some .readOnly
  let journaled := asksToWrite && tree.isFree (FileTree.beside place journalSuffix)
  let index := fs.indexSuffix.map (FileTree.beside place)
  -- A log beside an empty file is taken away before anything is read, which fails for a directory.
  if (tree.find? (FileTree.beside place logSuffix)).isSome then none
  if locks && fs.lockSuffix.any fun suffix => !tree.isFree (FileTree.beside place suffix) then none
  match ← tree.find? place, fs.keepsLog && locks, log with
  | .database true, true, _ =>
    let writable := asksToWrite && (← t.openIndex? tree index)
    -- The next connection finds the log and its index.
    let _ ← t.place? (tree.withLog fs place) fs
    return (tree, ⟨true, writable⟩)
  | .database false, true, true =>
    if journaled then
      -- The log and its index are opened by the next access.
      let writable := (t.openIndex? tree index).getD false
      return (tree.insert place (.database true), ⟨true, writable⟩)
    else none
  | .database false, _, _ => return (tree, ⟨true, journaled⟩)
  | .device, false, _ | .device, _, false => return (tree, ⟨true, false⟩)
  | _, _, _ => none

/-- Opens a file on the disk, or makes it. Whoever names a path whose rights a new file gets has to name
one that leads to something. -/
def openFile? (t : Target) (tree : FileTree) (fs : FileSystem) (a : Access) (log : Bool) :
    Option (FileTree × Opened) := do
  if !((t.value? "modeof").map tree.leadsTo).getD true then none
  let place ← t.place? tree fs
  if fs.longestPath < FileTree.pathLength place + journalSuffix.length then none
  let tree := if a.mode = some .create then tree.make place (.database false) else tree
  -- The next connection finds the file.
  let _ ← t.place? tree fs
  if t.isSet "immutable" then
    match ← tree.find? place with
    | .database _ | .device => return (tree, ⟨true, false⟩)
    | _ => none
  else t.openAt? tree fs a log place

/-- Opens a target with the rights that a connection gives. -/
def open? (t : Target) (tree : FileTree) (a : Access) (log : Bool) : Option (FileTree × Opened) := do
  let a ← t.access? a
  let fs ← t.fileSystem?
  let writable := a.mode ≠ some .readOnly
  if !t.hasFile a then return (tree, ⟨false, writable⟩)
  else if fs.inMemory then
    if t.path.length + journalSuffix.length ≤ fs.longestPath then
      return (tree, ⟨false, writable && !t.isSet "immutable"⟩)
    else none
  else t.openFile? tree fs a log

end Target

/-- The rights that a connection gives. -/
def Connection.access (c : Connection) (create : Bool) : Access where
  mode := some (if c.readOnly then .readOnly else if create then .create else .readWrite)
  inMemory := c.inMemory

/-- Opens a database: once to make it, if its path leads to nothing, and then to work with it. -/
def Connection.open? (c : Connection) (tree : FileTree) (log : Bool) :
    Option (FileTree × Opened) := do
  let target ← Target.ofConnection? c
  let tree ←
    if c.inMemory || tree.leadsTo c.path then some tree
    else (target.open? tree (c.access true) true).map Prod.fst
  target.open? tree (c.access c.create) log

end AccessTokens.Storage
