/-! Paths of files, separated by slashes.
A path is kept as it is written. Empty parts and single dots inside it mean nothing, but a slash or
a dot at its start anchors it; its last meaningful part, if no double dot, names a file.
-/

namespace BenchLog

/-- A path as it is written. -/
structure Path where
  text : String
  deriving Repr, DecidableEq

namespace Path

/-- The parts of a text between the occurrences of a separator. -/
def splitAt (separator : Char) : List Char → List (List Char)
  | [] => [[]]
  | c :: cs =>
      if c = separator then [] :: splitAt separator cs
      else
        match splitAt separator cs with
        | [] => [[c]]
        | piece :: pieces => (c :: piece) :: pieces

def joinWith (separator : Char) : List (List Char) → List Char
  | [] => []
  | [piece] => piece
  | piece :: pieces => piece ++ separator :: joinWith separator pieces

/-- Where a path begins. -/
inductive Anchor where
  /-- Nothing is said. -/
  | none
  /-- At the root. -/
  | root
  /-- At the current directory, by a dot at the start. -/
  | here
  deriving Repr, DecidableEq

def anchored (p : Path) : Anchor × List (List Char) :=
  match splitAt '/' p.text.toList with
  | [] :: piece :: pieces => (.root, piece :: pieces)
  | ['.'] :: pieces => (.here, pieces)
  | pieces => (.none, pieces)

def anchoredText : Anchor → List (List Char) → List Char
  | .none, pieces => joinWith '/' pieces
  | .root, pieces => '/' :: joinWith '/' pieces
  | .here, [] => ['.']
  | .here, pieces => '.' :: '/' :: joinWith '/' pieces

/-- A part that leads nowhere. -/
def isIdle (piece : List Char) : Bool :=
  piece == [] || piece == ['.']

/-- The parts up to the last one that leads somewhere. -/
def dropIdleEnd (pieces : List (List Char)) : List (List Char) :=
  (pieces.reverse.dropWhile isIdle).reverse

/-- The double dot, which leads to the directory above. -/
def up : List Char := ['.', '.']

def fileName? (p : Path) : Option (List Char) :=
  (dropIdleEnd p.anchored.2).getLast?.filter (· != up)

/-- The parts of the directory in which a path names a file. -/
def directory (p : Path) : List (List Char) :=
  dropIdleEnd (dropIdleEnd p.anchored.2).dropLast

/-- The path with another name of the file, in the same directory. -/
def withFileName (p : Path) (name : List Char) : Path :=
  ⟨String.ofList (anchoredText p.anchored.1 (p.directory ++ [name]))⟩

/-- A step of a path. -/
inductive Component where
  | root
  | here
  | up
  | name (text : List Char)
  deriving Repr, DecidableEq

/-- The step that an anchor is. -/
def Anchor.steps : Anchor → List Component
  | .none => []
  | .root => [.root]
  | .here => [.here]

def step (piece : List Char) : Component :=
  if piece = up then .up else .name piece

/-- The steps that the parts of a path are, apart from the idle ones. -/
def steps (pieces : List (List Char)) : List Component :=
  (pieces.filter fun piece => !isIdle piece).map step

/-- The steps that a path takes, its anchor first. -/
def components (p : Path) : List Component :=
  p.anchored.1.steps ++ steps p.anchored.2

/-- The path with a word and an underscore in front of the name of its file, or in front of all of
it if it names no file. -/
def withLeadingWord (p : Path) (word : String) : Path :=
  match p.fileName? with
  | some name => p.withFileName ((word ++ "_").toList ++ name)
  | none => ⟨word ++ "_" ++ p.text⟩

end Path

end BenchLog
