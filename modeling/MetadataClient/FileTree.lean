import MetadataClient.Entries
import MetadataClient.Error
import MetadataClient.Text.Split

/-! A tree of directories and text files, and what the system answers when a path in it
is read or written. -/
namespace MetadataClient

/-- The names on the way to a place, the innermost first. -/
abbrev Path := List String

namespace Path

def stays (name : String) : Bool :=
  name == "" || name == "."

/-- The names between the slashes. Only the last one may stay in its directory, which
then has to be there. A dot and a slash behind it are the same as a dot. -/
def ofText (text : String) : Path :=
  let names := ((Text.split '/' text.toList).map String.ofList).reverse
  let trailing := names.takeWhile stays
  let others := names.filter (!stays ·)
  if trailing.contains "." then "." :: others
  else if trailing.isEmpty then others
  else "" :: others

def parent (path : Path) : Path :=
  (path.dropWhile stays).tail

end Path

inductive FileEntry
  | directory
  | file (text : String)
deriving DecidableEq, Repr

structure FileTree where
  entries : SortedMap Path FileEntry

namespace FileTree

def empty : FileTree :=
  ⟨.empty⟩

def find? (tree : FileTree) (place : Path) : Option FileEntry :=
  if place = [] then some .directory else tree.entries.find? place

def insert (tree : FileTree) (place : Path) (entry : FileEntry) : FileTree :=
  ⟨tree.entries.insert place entry⟩

theorem find?_insert (tree : FileTree) (place asked : Path) (entry : FileEntry)
    (below : place ≠ []) :
    (tree.insert place entry).find? asked =
      if place = asked then some entry else tree.find? asked := by
  by_cases top : asked = []
  · subst top
    rw [find?, if_pos rfl, if_neg below, find?, if_pos rfl]
  · rw [find?, if_neg top, find?, if_neg top]
    exact SortedMap.find?_insert ..

def nameLimit : Nat := 255

def step (directory : Path) (name : String) : Except FileError Path :=
  if Path.stays name then .ok directory
  else if name = ".." then .ok directory.tail
  else if nameLimit < name.utf8ByteSize then .error .nameTooLong
  else .ok (name :: directory)

def enter (tree : FileTree) : Path → Except FileError Path
  | [] => .ok []
  | name :: parent =>
    ((tree.enter parent).bind (step · name)).bind fun place =>
      match tree.find? place with
      | none => .error .notFound
      | some (.file _) => .error .notDirectory
      | some .directory => .ok place

/-- The place a path leads to, be something there or not. All before the last name has
to be a directory. -/
def locate (tree : FileTree) : Path → Except FileError Path
  | [] => .ok []
  | name :: parent => (tree.enter parent).bind (step · name)

def isDirectory (tree : FileTree) (path : Path) : Bool :=
  (tree.enter path).isOk

def read (tree : FileTree) (path : Path) : Except FileError String :=
  match tree.locate path with
  | .error cause => .error cause
  | .ok place =>
    match tree.find? place with
    | none => .error .notFound
    | some .directory => .error .isDirectory
    | some (.file text) => .ok text

def makeDirectory (tree : FileTree) (path : Path) : Except FileError FileTree :=
  match tree.locate path with
  | .error cause => .error cause
  | .ok place =>
    match tree.find? place with
    | none => .ok (tree.insert place .directory)
    | some _ => .error .alreadyExists

def ensureDirectory (tree : FileTree) (path : Path) : Except FileError FileTree :=
  match tree.makeDirectory path with
  | .ok tree => .ok tree
  | .error cause => if tree.isDirectory path then .ok tree else .error cause

def attempt (tree : FileTree) (change : Except FileError FileTree) :
    Except FileError Unit × FileTree :=
  match change with
  | .ok changed => (.ok (), changed)
  | .error cause => (.error cause, tree)

def makeDirectories (tree : FileTree) : Path → Except FileError Unit × FileTree
  | [] => (.ok (), tree)
  | name :: parent =>
    match tree.ensureDirectory (name :: parent) with
    | .error .notFound =>
      match tree.makeDirectories parent with
      | (.ok (), tree) => tree.attempt (tree.ensureDirectory (name :: parent))
      | failed => failed
    | change => tree.attempt change

/-- Puts the text in place of a file. A path that ends in a slash names no file. -/
def write (tree : FileTree) (path : Path) (text : String) : Except FileError FileTree :=
  match path with
  | "" :: names => (tree.enter names.tail).bind fun _ => .error .isDirectory
  | path =>
    match tree.locate path with
    | .error cause => .error cause
    | .ok place =>
      if tree.find? place = some .directory then .error .isDirectory
      else .ok (tree.insert place (.file text))

/-- Writes a file together with the directories that it is in. These stay when only the
file cannot be written. -/
def save (tree : FileTree) (path : Path) (text : String) : Except FileError Unit × FileTree :=
  match tree.makeDirectories path.parent with
  | (.ok (), tree) => tree.attempt (tree.write path text)
  | failed => failed

end FileTree
end MetadataClient
