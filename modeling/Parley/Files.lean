import Parley.Path

/-! A tree of files. A directory exists if it is the working directory or leads to it or to a file.
A path is followed component by component from the root or the working directory, and each step
must start in a directory. -/
namespace Parley

inductive ReadError where
  | notFound
  | notDirectory
  | isDirectory
  | nameTooLong
  | nulInName
  | notUtf8
  deriving DecidableEq, Repr

def ReadError.message : ReadError → Text
  | notFound => "No such file or directory (os error 2)".toList
  | notDirectory => "Not a directory (os error 20)".toList
  | isDirectory => "Is a directory (os error 21)".toList
  | nameTooLong => "File name too long (os error 36)".toList
  | nulInName => "file name contained an unexpected NUL byte".toList
  | notUtf8 => "stream did not contain valid UTF-8".toList

/-- A place in the tree: the components that lead to it from the root, last first. -/
abbrev Place := List Bytes

structure Files where
  directory : Place
  contents : List (Place × Bytes) := []
  deriving Repr

inductive Node where
  | directory
  | file (contents : Bytes)
  deriving DecidableEq, Repr

namespace Files

def placeFrom (start : Place) (path : Bytes) : Place := (Path.components path).reverse ++ start

def startOf (fs : Files) (path : Bytes) : Place :=
  if Path.isAbsolute path then [] else fs.directory

def addFile (fs : Files) (path contents : Bytes) : Files :=
  { fs with contents := (placeFrom (fs.startOf path) path, contents) :: fs.contents }

def node? (fs : Files) (place : Place) : Option Node :=
  match fs.contents.find? fun f => f.1 = place with
  | some f => some (.file f.2)
  | none =>
    if place.isSuffixOf fs.directory || fs.contents.any fun f => place.isSuffixOf f.1 then
      some .directory
    else none

/-- The longest name of a file, in octets. -/
def maxName : Nat := 255

/-- The longest path, in octets, however short its names are. -/
def maxPath : Nat := 4095

def follow (fs : Files) (place : Place) (component : Bytes) : Except ReadError Place :=
  match fs.node? place with
  | none => .error .notFound
  | some (.file _) => .error .notDirectory
  | some .directory =>
    if component = [] || component = [Path.dot] then .ok place
    else if Path.isParent component then .ok place.tail
    else if maxName < component.length then .error .nameTooLong
    else if (fs.node? (component :: place)).isSome then .ok (component :: place)
    else .error .notFound

def lookup (fs : Files) (path : Bytes) : Except ReadError Node :=
  if path = [] then .error .notFound
  else if path.contains 0 then .error .nulInName
  else if maxPath < path.length then .error .nameTooLong
  else
    match (Path.splitFrom [] path).foldlM fs.follow (fs.startOf path) with
    | .error e => .error e
    | .ok place =>
      match fs.node? place with
      | some node => .ok node
      | none => .error .notFound

def isPresent (fs : Files) (path : Bytes) : Bool :=
  match fs.lookup path with
  | .ok _ => true
  | .error _ => false

def readText (fs : Files) (path : Bytes) : Except ReadError Text :=
  match fs.lookup path with
  | .error e => .error e
  | .ok .directory => .error .isDirectory
  | .ok (.file contents) =>
    match Utf8.decode? contents with
    | some text => .ok text
    | none => .error .notUtf8

end Files
end Parley
