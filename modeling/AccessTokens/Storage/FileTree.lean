import AccessTokens.Text.Bytes
import AccessTokens.Text.Pieces

/-!
# Trees of files

Names and paths are lists of bytes. A tree is made of directories, of database files, and of what is
neither (`FileNode`), and relative paths start from its working directory (`FileTree`). Something new is
made only where nothing is yet, in a directory that is not closed (`FileTree.isFree`).

A path is followed in two ways. The operating system walks from one directory to the next, so that
every name but the last one has to lead to a directory that is there (`FileTree.walk?`). The database
engine reads a path as a text first: a `..` takes away the name before it, whether or not that name
leads anywhere (`FileTree.fullName?`).
-/

namespace AccessTokens.Storage

/-- The name of an entry of a directory. -/
abbrev FileName := List UInt8

/-- What a name in a tree leads to. -/
inductive FileNode
  /-- A directory. Nothing can be made in it if it is closed. -/
  | directory (entries : List (FileName × FileNode)) (closed : Bool)
  /-- A database, which is logged once its writes go to a log beside it. -/
  | database (logged : Bool)
  /-- What reads as an empty file and keeps nothing that is written. -/
  | device
  /-- What is there and holds no database. -/
  | foreign

namespace FileNode

/-- What the names from a node on lead to. -/
def find? : FileNode → List FileName → Option FileNode
  | node, [] => some node
  | .directory entries _, name :: names =>
    match entries.lookup name with
    | some child => child.find? names
    | none => none
  | _, _ :: _ => none

/-- Puts a node where names lead to, with a directory for each name on the way that leads nowhere. -/
def insert : FileNode → List FileName → FileNode → FileNode
  | _, [], new => new
  | .directory entries closed, name :: names, new =>
    let child := (entries.lookup name).getD (.directory [] false)
    .directory ((name, child.insert names new) :: entries.filter (·.1 ≠ name)) closed
  | node, _ :: _, _ => node

end FileNode

/-- A tree of files and the directory from which relative paths start. -/
structure FileTree where
  working : List FileName
  root : FileNode

namespace FileTree

/-! ### Paths -/

/-- The byte between the names of a path. -/
def slash : UInt8 := '/'.toUInt8

/-- The name that leads from a directory to itself. -/
def here : FileName := Text.bytes "."

/-- The name that leads to the directory above. -/
def above : FileName := Text.bytes ".."

/-- The greatest number of bytes in a name. -/
def longestName : Nat := 255

/-- The greatest number of bytes in a path. -/
def longestPath : Nat := 4095

/-- An empty name and the name of the directory itself lead nowhere else. -/
def leadsNowhere (name : FileName) : Bool := name = [] || name = here

/-- The place that a name leads to from another one. -/
def step (place : List FileName) (name : FileName) : List FileName :=
  if leadsNowhere name then place
  else if name = above then place.dropLast
  else place ++ [name]

/-- The path without its last name. -/
def parentPath (path : List UInt8) : List UInt8 :=
  let names := (Text.pieces slash path).reverse
  [slash].intercalate (((names.dropWhile leadsNowhere).drop 1).dropWhile leadsNowhere).reverse

/-- The number of bytes in the absolute path of a place. -/
def pathLength (place : List FileName) : Nat :=
  place.foldl (fun n name => n + 1 + name.length) 0

/-- The place from which a path is followed. -/
def start (t : FileTree) (path : List UInt8) : List FileName :=
  if path.head? = some slash then [] else t.working

/-- What is at a place. -/
def find? (t : FileTree) (place : List FileName) : Option FileNode := t.root.find? place

/-- Puts a node at a place. -/
def insert (t : FileTree) (place : List FileName) (new : FileNode) : FileTree :=
  { t with root := t.root.insert place new }

/-- Tells whether there is a directory at a place. -/
def isDirectory (t : FileTree) (place : List FileName) : Bool :=
  match t.find? place with
  | some (.directory _ _) => true
  | _ => false

/-- Tells whether something new can be made at a place: nothing is there yet, the name can be one, and
the directory above is there and not closed. -/
def isFree (t : FileTree) (place : List FileName) : Bool :=
  match place.getLast?, t.find? place, t.find? place.dropLast with
  | some name, none, some (.directory _ false) => name.length ≤ longestName && 0 ∉ name
  | _, _, _ => false

/-- Puts a node at a place where something new can be made, and leaves every other place as it is. -/
def make (t : FileTree) (place : List FileName) (new : FileNode) : FileTree :=
  if t.isFree place then t.insert place new else t

/-- The place of a file beside another one, whose name it extends. -/
def beside (place : List FileName) (suffix : String) : List FileName :=
  place.dropLast ++ [place.getLastD [] ++ Text.bytes suffix]

/-! ### Walking -/

/-- Walks from a place along names, each of which has to start from a directory. -/
def walk? (t : FileTree) : List FileName → List FileName → Option (List FileName)
  | place, [] => some place
  | place, name :: names =>
    if t.isDirectory place then t.walk? (step place name) names else none

/-- Tells whether a path leads to anything. The empty path leads nowhere, nor does one that is too
long. -/
def leadsTo (t : FileTree) (path : List UInt8) : Bool :=
  path ≠ [] && path.length ≤ longestPath &&
    ((t.walk? (t.start path) (Text.pieces slash path)).bind t.find?).isSome

/-- Goes from a directory to one in it, which is made if there is nothing of its name. -/
def enter? (name : FileName) (state : FileTree × List FileName) :
    Option (FileTree × List FileName) :=
  let place := step state.2 name
  if state.1.isDirectory place then some (state.1, place)
  else if state.1.isFree place then some (state.1.insert place (.directory [] false), place)
  else none

/-- The tree with the directory of a path made, and each directory on the way to it, unless something
is in the way or a name cannot be one. -/
def makeDirectories? (t : FileTree) (path : List UInt8) : Option FileTree :=
  if path.length ≤ longestPath then
    ((Text.pieces slash path).foldlM (fun state name => enter? name state)
      (t, t.start path)).map Prod.fst
  else none

/-! ### Full names -/

/-- Takes a name into a full name of fewer than `limit` bytes. It may lead nowhere, but it may not start
from what is no directory. -/
def extend? (t : FileTree) (limit : Nat) (place : List FileName) (name : FileName) :
    Option (List FileName) :=
  if leadsNowhere name || name = above then some (step place name)
  else
    let passes : Bool := match t.find? place with
      | some (.directory _ _) => name.length ≤ longestName
      | some _ => false
      -- Nothing is looked up in a directory that is not there.
      | none => true
    if passes ∧ pathLength (place ++ [name]) < limit then some (place ++ [name]) else none

/-- The full name of a path, in which no name leads to the directory above. -/
def fullName? (t : FileTree) (limit : Nat) (path : List UInt8) : Option (List FileName) :=
  (Text.pieces slash path).foldlM (t.extend? limit) (t.start path)

end FileTree

end AccessTokens.Storage
