import Parley.Text.Utf8

/-! Paths are octets; slashes separate their components. A component `.` and an empty one stand for
nothing, except that a trailing slash is kept when a path is made absolute and that exactly two
leading slashes are a root of their own. -/
namespace Parley.Path

def slash : UInt8 := 0x2F
def dot : UInt8 := 0x2E

/-- The octets between slashes; `part` is the part being read, latest octet first. -/
def splitFrom (part : Bytes) : Bytes → List Bytes
  | [] => [part.reverse]
  | b :: rest => if b = slash then part.reverse :: splitFrom [] rest else splitFrom (b :: part) rest

def isParent (component : Bytes) : Bool := component = [dot, dot]

/-- The components that say something. -/
def components (path : Bytes) : List Bytes :=
  (splitFrom [] path).filter fun c => c ≠ [] && c ≠ [dot]

def isAbsolute (path : Bytes) : Bool := path.head? = some slash

def endsInSlash (path : Bytes) : Bool := path.getLast? = some slash

/-- A component, or a trailing slash, after a path. -/
def join (path component : Bytes) : Bytes :=
  if path = [] || endsInSlash path then path ++ component else path ++ slash :: component

def root (path : Bytes) : Bytes :=
  match path.takeWhile (· = slash) with
  | [_, _] => [slash, slash]
  | _ => [slash]

/-- The path as seen from the root; none if it is empty. -/
def absolute? (directory path : Bytes) : Option Bytes :=
  if path = [] then none
  else
    let joined := (components path).foldl join (if isAbsolute path then root path else directory)
    some (if endsInSlash path then join joined [] else joined)

/-- The last component, unless it leads to a parent. -/
def fileName? (path : Bytes) : Option Bytes :=
  (components path).getLast?.filter fun c => !isParent c

/-- A file name without its last extension; a name whose only dot comes first has none. -/
def stem (name : Bytes) : Bytes :=
  let before := (name.reverse.dropWhile (· ≠ dot)).drop 1
  if before = [] then name else before.reverse

def fileStem? (path : Bytes) : Option Bytes := (fileName? path).map stem

end Parley.Path
