/-! The files that configurations are read from: those of the working directory, by their paths, and
those of the user's directory for this program, by their names. -/
namespace ScriptBridge.Config

inductive Location where
  | working (path : String)
  | user (name : String)
  deriving DecidableEq, Repr, Inhabited

/-- The files that can be read, with their bytes. -/
abbrev Files := Location → Option ByteArray

/-- The parts of a path, between slashes. -/
def pathParts : List Char → List (List Char)
  | [] => [[]]
  | c :: rest =>
    if c = '/' then [] :: pathParts rest
    else match pathParts rest with
      | part :: parts => (c :: part) :: parts
      | [] => [[c]]

/-- A place in a directory: the names of the directories on the way to it, and its own. -/
abbrev Way := List (List Char)

/-- A part of a path that stays where it is. -/
def isHere (part : List Char) : Bool := part.isEmpty || part == ['.']

/-- A part of a path that leads one directory up. -/
def isAbove (part : List Char) : Bool := part == ['.', '.']

/-- What a path leads to from a directory on, part by part: a file that is named last, on a way through
directories only. A way out of the first directory leads to nothing. -/
def follow? (isDirectory : Way → Bool) : Way → List (List Char) → Option Way
  | _, [] => none
  | way, part :: rest =>
    if rest.isEmpty then if isHere part || isAbove part then none else some (way ++ [part])
    else if isHere part then follow? isDirectory way rest
    else if isAbove part then if way.isEmpty then none else follow? isDirectory way.dropLast rest
    else if isDirectory (way ++ [part]) then follow? isDirectory (way ++ [part]) rest
    else none

/-- A directory with what lies in it, at any depth. -/
structure Folder where
  directories : List Way
  files : List (Way × ByteArray)

namespace Folder

def empty : Folder := ⟨[], []⟩

/-- Makes the directories that a path names on its way. -/
def makeWay (f : Folder) : Way → List (List Char) → Folder
  | _, [] => f
  | _, [_] => f
  | way, part :: rest =>
    if isHere part then f.makeWay way rest
    else if isAbove part then f.makeWay way.dropLast rest
    else makeWay { f with directories := (way ++ [part]) :: f.directories } (way ++ [part]) rest

/-- The file that a path leads to. -/
def read (f : Folder) (path : String) : Option ByteArray := do
  let way ← follow? f.directories.contains [] (pathParts path.toList)
  (f.files.find? fun g => g.1 == way).map Prod.snd

/-- Writes a file; directories on the way to it are made. -/
def write (f : Folder) (path : String) (bytes : ByteArray) : Folder :=
  let parts := pathParts path.toList
  let f := f.makeWay [] parts
  match follow? f.directories.contains [] parts with
  | some way => { f with files := (way, bytes) :: f.files }
  | none => f

end Folder

/-- The working directory and the user's. -/
structure Tree where
  working : Folder
  user : Folder

namespace Tree

def empty : Tree := ⟨.empty, .empty⟩

def read (t : Tree) : Files
  | .user name => t.user.read name
  | .working path => if path.toList.head? = some '/' then none else t.working.read path

/-- Puts a file under its name in a listing, where the user's come under `user/`. -/
def add (t : Tree) (name : String) (bytes : ByteArray) : Tree :=
  if "user/".toList.isPrefixOf name.toList then
    { t with user := t.user.write (String.ofList (name.toList.drop 5)) bytes }
  else { t with working := t.working.write name bytes }

/-- Files under the names of a listing; of several under one name the last one stays. -/
def ofList (files : List (String × ByteArray)) : Tree := files.foldl (fun t f => t.add f.1 f.2) empty

end Tree
end ScriptBridge.Config
