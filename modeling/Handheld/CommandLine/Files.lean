/-
Module: Handheld.CommandLine.Files
Purpose: The two things that the program asks of a file system, and a small file system in memory
  that answers them: a working directory of plain files, and around it what every system has.
Main exports: FileError, Files, Path, Directory, Directory.readPath, Directory.writePath
-/

namespace Handheld.CommandLine

/-- Why a file could not be read or written. -/
inductive FileError where
  | notFound
  | notDirectory
  | isDirectory
  | noSpace
  | nameTooLong
  /-- Any other reason, in the words of the system. -/
  | other (reason : String)
deriving DecidableEq, Repr

/-- The wording of a reason, with the number that the system gives it. -/
def FileError.message : FileError → String
  | .notFound => "No such file or directory (os error 2)"
  | .notDirectory => "Not a directory (os error 20)"
  | .isDirectory => "Is a directory (os error 21)"
  | .noSpace => "No space left on device (os error 28)"
  | .nameTooLong => "File name too long (os error 36)"
  | .other reason => reason

/-- Whole files, read and written by path. -/
class Files (m : Type → Type) where
  read : (path : String) → m (Except FileError (Array UInt8))
  write : (path : String) → (content : Array UInt8) → m (Except FileError Unit)

/-! ### Paths -/

/-- The bytes that a name may have. -/
def nameLimit : Nat := 255

/-- The bytes that a path may have. -/
def pathLimit : Nat := 4095

/-- A path, taken apart at its slashes. -/
structure Path where
  /-- Whether it starts at the root. -/
  absolute : Bool
  /-- Its names; several slashes in a row separate as one does. -/
  names : List String
  /-- Whether it ends in a slash. -/
  slash : Bool
deriving DecidableEq, Repr

/-- Take a path apart. -/
def Path.ofString (path : String) : Path :=
  let parts := path.splitOn "/"
  { absolute := parts.head? = some "" && path ≠ ""
    names := parts.filter (· ≠ "")
    slash := parts.getLast? = some "" }

/-! ### The directory -/

/-- A directory of plain files. -/
structure Directory where
  files : List (String × Array UInt8) := []
deriving DecidableEq, Repr

namespace Directory

/-- The content of the file of a given name. -/
def content? (d : Directory) (name : String) : Option (Array UInt8) :=
  d.files.lookup name

/-- Write a file, in place of one of the same name. -/
def put (d : Directory) (name : String) (content : Array UInt8) : Directory :=
  ⟨(name, content) :: d.files.filter fun file => file.1 ≠ name⟩

/-- The directories in which a path can arrive. -/
inductive Spot where
  /-- The directory itself. -/
  | working
  /-- A directory around it. -/
  | around
  | root
  /-- The directory of devices. -/
  | devices
  /-- Another directory in the root. -/
  | standard
deriving DecidableEq, Repr

/-- The directories, but for that of devices, which stand in the root of every system. -/
def standardNames : List String :=
  ["bin", "etc", "home", "lib", "media", "mnt", "opt", "proc", "root", "run", "sbin", "srv", "sys",
    "tmp", "usr", "var"]

/-- What a name can stand for. -/
inductive Entry where
  | directory (spot : Spot)
  | file (content : Array UInt8)
  /-- A device that is empty and takes everything. -/
  | sink
  /-- A device that takes nothing. -/
  | full
  | nothing
deriving DecidableEq, Repr

/-- The directory above another. The root is above itself. -/
def above : Spot → Spot
  | .working | .around => .around
  | .root | .devices | .standard => .root

/-- What a name stands for. Of a directory outside only what every system has is known. -/
def find (d : Directory) (spot : Spot) (name : String) : Entry :=
  if name = "." then .directory spot
  else if name = ".." then .directory (above spot)
  else
    match spot with
    | .working =>
      match d.content? name with
      | some content => .file content
      | none => .nothing
    | .root =>
      if name = "dev" then .directory .devices
      else if name ∈ standardNames then .directory .standard
      else .nothing
    | .devices => if name = "null" then .sink else if name = "full" then .full else .nothing
    | .around | .standard => .nothing

/-- Go from a directory into one that it names. -/
def enter (d : Directory) (spot : Spot) (name : String) : Except FileError Spot :=
  if nameLimit < name.utf8ByteSize then .error .nameTooLong
  else
    match d.find spot name with
    | .directory spot => .ok spot
    | .nothing => .error .notFound
    | _ => .error .notDirectory

/-- Where a path arrives: the directory that holds its last name, that name, and whether a slash
    follows it. A path without names is taken for a single dot. -/
structure Arrival where
  spot : Spot
  name : String
  slash : Bool
deriving DecidableEq, Repr

/-- Follow a path up to its last name. -/
def follow (d : Directory) (path : String) : Except FileError Arrival :=
  if pathLimit < path.utf8ByteSize then .error .nameTooLong
  else do
    let p := Path.ofString path
    let spot ← p.names.dropLast.foldlM d.enter (if p.absolute then Spot.root else .working)
    return { spot, name := p.names.getLastD ".", slash := p.slash }

/-- Read the file at which a path arrives. -/
def readPath (d : Directory) (path : String) : Except FileError (Array UInt8) := do
  let a ← d.follow path
  if nameLimit < a.name.utf8ByteSize then throw .nameTooLong
  let content ←
    match d.find a.spot a.name with
    | .directory _ => throw .isDirectory
    | .nothing => throw .notFound
    | .file content => pure content
    | .sink => pure #[]
    | .full => throw (.other "the device never ends")
  if a.slash then throw .notDirectory else return content

/-- Write the file at which a path arrives, or make it. A slash at the end asks for a directory, and
    that is refused before anything is looked up. What is made outside of the directory is not kept
    here. -/
def writePath (d : Directory) (path : String) (content : Array UInt8) :
    Except FileError Directory := do
  let a ← d.follow path
  if a.slash then throw .isDirectory
  if nameLimit < a.name.utf8ByteSize then throw .nameTooLong
  match d.find a.spot a.name with
  | .directory _ => throw .isDirectory
  | .full => throw .noSpace
  | .sink => return d
  | .file _ | .nothing => return if a.spot = .working then d.put a.name content else d

/-- A directory that a computation carries along is a file system. -/
instance : Files (StateM Directory) where
  read path := do return (← get).readPath path
  write path content := do
    match (← get).writePath path content with
    | .error error => return .error error
    | .ok d => set d; return .ok ()

/-- A file that has been written holds what was written, and every other file what it held. -/
theorem content?_put (d : Directory) (name other : String) (content : Array UInt8) :
    (d.put name content).content? other =
      if other = name then some content else d.content? other := by
  unfold content? put
  by_cases h : other = name
  · rw [if_pos h, h, List.lookup_cons_self]
  · rw [if_neg h, List.lookup_cons, beq_false_of_ne h]
    dsimp only
    induction d.files with
    | nil => rfl
    | cons file files ih =>
        by_cases hfile : file.1 = name
        · rw [List.filter_cons_of_neg (by simp [hfile]), ih, List.lookup_cons, hfile,
            beq_false_of_ne h]
        · rw [List.filter_cons_of_pos (by simp [hfile]), List.lookup_cons, List.lookup_cons, ih]

end Directory

end Handheld.CommandLine
