import BenchLog.Disk

/-! Files in memory under a current directory.
Only files are kept: every directory on the way to one exists. What lies outside the current
directory is unknown; nothing is found there and nothing can be created.
-/

namespace BenchLog

/-- Files by the names that lead to them from the current directory. -/
structure FileTree where
  files : List (List (List Char) × List UInt8)
  deriving Repr, DecidableEq

namespace FileTree

/-- Where a path leads. -/
inductive Place where
  /-- To a directory that does not lie below the current one. -/
  | outside
  /-- To a place below the current directory, by names. -/
  | inside (names : List (List Char))
  deriving Repr, DecidableEq

def content? (tree : FileTree) : Place → Option (List UInt8)
  | .outside => none
  | .inside names => (tree.files.find? (·.1 == names)).map (·.2)

/-- A directory lies at a place: the current one or one on the way to a file. -/
def isDirectory (tree : FileTree) : Place → Bool
  | .outside => true
  | .inside names =>
      names == [] || tree.files.any fun file =>
        names.isPrefixOf file.1 && decide (names.length < file.1.length)

/-- The length in bytes from which on a name is too long. -/
def nameLimit : Nat := 256

/-- The length in bytes from which on a path as a whole is too long. -/
def pathLimit : Nat := 4096

/-- One step of a path from a directory. -/
def step (place : Place) (piece : List Char) : Except FileError Place :=
  if Path.isIdle piece then .ok place
  else
    match place with
    | .outside => if piece = Path.up then .ok .outside else .error .notFound
    | .inside names =>
        if piece = Path.up then
          .ok (if names = [] then .outside else .inside names.dropLast)
        else if nameLimit ≤ (String.ofList piece).utf8ByteSize then .error .nameTooLong
        else .ok (.inside (names ++ [piece]))

/-- The place to which the parts of a path lead from a place, each step being taken from a
directory. -/
def walk (tree : FileTree) : Place → List (List Char) → Except FileError Place
  | place, [] => .ok place
  | place, piece :: pieces =>
      if tree.isDirectory place then
        match step place piece with
        | .ok next => tree.walk next pieces
        | .error e => .error e
      else if (tree.content? place).isSome then .error .notDirectory
      else .error .notFound

/-- The place from which a path starts and its parts; a path must be neither empty nor too long. -/
def start (p : Path) : Except FileError (Place × List (List Char)) :=
  if p.text.toList.any fun c => c.toNat == 0 then .error .zeroInPath
  else if pathLimit ≤ p.text.utf8ByteSize then .error .nameTooLong
  else if p.text = "" then .error .notFound
  else
    match p.anchored with
    | (.root, pieces) => .ok (.outside, pieces)
    | (_, pieces) => .ok (.inside [], pieces)

def place (tree : FileTree) (p : Path) : Except FileError Place := do
  let (place, pieces) ← start p
  tree.walk place pieces

def read (tree : FileTree) (p : Path) : Except FileError (List UInt8) := do
  let place ← tree.place p
  match tree.content? place with
  | some bytes => return bytes
  | none => throw (if tree.isDirectory place then .isDirectory else .notFound)

/-- The names of the file that would be created at a path. The path must name it with its last
part, in a directory that exists. -/
def target (tree : FileTree) (p : Path) : Except FileError (List (List Char)) := do
  let (origin, pieces) ← start p
  let parents := (pieces.reverse.dropWhile (· == [])).reverse.dropLast
  let directory ← tree.walk origin parents
  if !tree.isDirectory directory then
    throw (if (tree.content? directory).isSome then .notDirectory else .notFound)
  match pieces.getLast? with
  | none => throw .isDirectory
  | some piece =>
      if Path.isIdle piece || piece == Path.up then throw .isDirectory
      match ← step directory piece with
      | .outside => throw .isDirectory
      | .inside names =>
          if tree.isDirectory (.inside names) then throw .isDirectory
          return names

/-- The files with one replaced, or added at the end. -/
def putFile (names : List (List Char)) (bytes : List UInt8)
    : List (List (List Char) × List UInt8) → List (List (List Char) × List UInt8)
  | [] => [(names, bytes)]
  | file :: files =>
      if file.1 = names then (names, bytes) :: files else file :: putFile names bytes files

/-- The tree with a content in the file to which a path leads. -/
def write (tree : FileTree) (p : Path) (bytes : List UInt8) : Except FileError FileTree := do
  let names ← tree.target p
  return ⟨putFile names bytes tree.files⟩

def exists? (tree : FileTree) (p : Path) : Bool :=
  match tree.place p with
  | .ok place => tree.isDirectory place || (tree.content? place).isSome
  | .error _ => false

instance : Disk (StateM FileTree) where
  read p := return (← get).read p
  write p bytes := do
    match (← get).write p bytes with
    | .ok tree => set tree; return .ok ()
    | .error e => return .error e
  exists? p := return (← get).exists? p

theorem find?_putFile (names : List (List Char)) (bytes : List UInt8)
    (files : List (List (List Char) × List UInt8))
    : (putFile names bytes files).find? (·.1 == names) = some (names, bytes) := by
  induction files with
  | nil => simp [putFile]
  | cons file files ih =>
      unfold putFile
      split
      · simp
      · rename_i h
        simp [h, ih]

theorem find?_putFile_of_ne {names other : List (List Char)} (h : other ≠ names)
    (bytes : List UInt8) (files : List (List (List Char) × List UInt8))
    : (putFile names bytes files).find? (·.1 == other) = files.find? (·.1 == other) := by
  induction files with
  | nil => simp [putFile, h.symm]
  | cons file files ih =>
      unfold putFile
      split
      · rename_i hf
        simp [hf, h.symm]
      · simp only [List.find?_cons, ih]

end FileTree

end BenchLog
