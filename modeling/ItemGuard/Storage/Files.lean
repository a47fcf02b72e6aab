import ItemGuard.Storage.Path
import ItemGuard.Text.Utf8
import Std.Data.ExtTreeMap

/-!
# The file system

Names lead to directories and files; a file is a number under which its content is kept, so that a
file can be renamed or removed while a handle to it stays open. There are no links and no
permissions. `walk` follows the names of a path, each below a directory that has to exist.
-/

namespace ItemGuard.Storage

/-- What a name leads to. -/
inductive Node where
  | directory
  | file (id : Nat)
  deriving DecidableEq

/-- A file system with a working directory. -/
structure Files where
  nodes : Std.ExtTreeMap Location Node
  contents : Std.ExtTreeMap Nat Bytes
  /-- No file has this number or a larger one. -/
  next : Nat
  cwd : Location

namespace Files

/-- The file system with the directories down to the working directory only. -/
def emptyAt (cwd : Location) : Files where
  nodes := ((List.range cwd.length).map fun n => (cwd.take (n + 1), Node.directory)).foldl
    (fun m p => m.insert p.1 p.2) ∅
  contents := ∅
  next := 0
  cwd := cwd

/-- What is at a location; the root is a directory. -/
def node? (fs : Files) (loc : Location) : Option Node :=
  if loc.isEmpty then some .directory else fs.nodes[loc]?

/-- The content of the file with a number. -/
def content (fs : Files) (id : Nat) : Bytes :=
  fs.contents.getD id []

/-! ## Finding things -/

/-- What a name leads to in a directory. -/
def lookUp (fs : Files) (directory : Location) (name : String) : Except Failure (Option Node) :=
  if nameLimit < name.utf8ByteSize then .error .nameTooLong
  else .ok (fs.node? (directory ++ [name]))

/-- Follows names from a location. -/
def walk (fs : Files) : Location → List String → Except Failure Location
  | loc, [] => .ok loc
  | loc, name :: names =>
    match fs.node? loc with
    | none => .error .notFound
    | some (.file _) => .error .notADirectory
    | some .directory =>
      if name = "." then walk fs loc names
      -- The root has no directory around it: `..` stays there.
      else if name = ".." then walk fs loc.dropLast names
      else
        match fs.lookUp loc name with
        | .error e => .error e
        | .ok none => .error .notFound
        | .ok (some _) => walk fs (loc ++ [name]) names

/-- Where a path starts. -/
def start (fs : Files) (p : Path) : Location :=
  if p.rooted then [] else fs.cwd

/-- A path that no operation accepts. -/
def checkPath (p : Path) : Except Failure Unit :=
  if p.hasNull then .error .nullInPath
  else if p.isEmpty then .error .notFound
  else if pathLimit < p.size then .error .nameTooLong
  else .ok ()

/-- What a path leads to. -/
def find (fs : Files) (p : Path) : Except Failure (Location × Node) := do
  checkPath p
  let loc ← fs.walk (fs.start p) p.names
  match fs.node? loc with
  | none => .error .notFound
  | some (.file id) => if p.trailing then .error .notADirectory else .ok (loc, .file id)
  | some .directory => .ok (loc, .directory)

def pathExists (fs : Files) (path : String) : Bool :=
  match fs.find (.ofText path) with
  | .ok _ => true
  | .error _ => false

def isDirectory (fs : Files) (path : Path) : Bool :=
  match fs.find path with
  | .ok (_, .directory) => true
  | _ => false

/-- The place of a path's last name: the directory around it and the name. A path that has no
name of its own at its end leads to a directory. -/
inductive Place where
  | entry (directory : Location) (name : String)
  | directory
  deriving DecidableEq

/-- Finds the directory around a path's last name. -/
def placeOf (fs : Files) (p : Path) : Except Failure Place := do
  checkPath p
  match p.names.getLast? with
  | none => .ok .directory
  | some name =>
    let loc ← fs.walk (fs.start p) p.names.dropLast
    match fs.node? loc with
    | none => .error .notFound
    | some (.file _) => .error .notADirectory
    | some .directory =>
      .ok (if name = "." ∨ name = ".." then .directory else .entry loc name)

/-! ## Reading -/

def readBytes (fs : Files) (path : String) : Except Failure Bytes := do
  match ← fs.find (.ofText path) with
  | (_, .file id) => .ok (fs.content id)
  | (_, .directory) => .error .isADirectory

def readText (fs : Files) (path : String) : Except Failure String := do
  match Text.ofUtf8? (← fs.readBytes path) with
  | some text => .ok text
  | none => .error .notText

/-- Everything below a directory, by the names from there. -/
def below (fs : Files) (directory : Location) : List (List String × Node) :=
  fs.nodes.toList.filterMap fun p =>
    if directory.isPrefixOf p.1 && p.1 != directory then
      some (p.1.drop directory.length, p.2)
    else none

/-! ## Work in several parts

An operation that fails has changed nothing, but work that consists of several operations may fail
after some of them.
-/

/-- What some work came to, and the files that it left. -/
abbrev Attempt (α : Type) := Except Failure α × Files

/-- An operation as work of one part. -/
def attempt (fs : Files) (operation : Files → Except Failure Files) : Attempt Unit :=
  match operation fs with
  | .ok fs => (.ok (), fs)
  | .error e => (.error e, fs)

/-- Does operations one after the other, up to the first that fails. -/
def attemptAll (fs : Files) : List (Files → Except Failure Files) → Attempt Unit
  | [] => (.ok (), fs)
  | operation :: operations =>
    match operation fs with
    | .ok fs => fs.attemptAll operations
    | .error e => (.error e, fs)

/-! ## Directories -/

def makeDirectory (fs : Files) (p : Path) : Except Failure Files := do
  match ← fs.placeOf p with
  | .directory => .error .alreadyExists
  | .entry directory name =>
    match ← fs.lookUp directory name with
    | some _ => .error .alreadyExists
    | none => .ok { fs with nodes := fs.nodes.insert (directory ++ [name]) .directory }

/-- Makes a directory that may exist already. -/
def ensureDirectory (fs : Files) (p : Path) : Except Failure Files :=
  match fs.makeDirectory p with
  | .ok fs => .ok fs
  | .error e => if fs.isDirectory p then .ok fs else .error e

/-- Makes the directory of the first path, and those around it, whose paths follow, that are
missing. -/
def makeDirectories (fs : Files) : List String → Attempt Unit
  | [] => (.ok (), fs)
  | path :: around =>
    let p := Path.ofText path
    match fs.makeDirectory p with
    | .ok fs => (.ok (), fs)
    | .error e =>
      if e.kind = .notFound then
        match fs.makeDirectories around with
        | (.error e, fs) => (.error e, fs)
        -- A path that ends in `..` may lead to a directory that was just made.
        | (.ok (), fs) => fs.attempt fun fs => fs.ensureDirectory p
      else if fs.isDirectory p then (.ok (), fs)
      else (.error e, fs)

/-- Makes the directory of a path, and those around it that are missing. -/
def makePath (fs : Files) (path : String) : Attempt Unit :=
  fs.makeDirectories (Path.upward path)

/-- Makes the directories around the last name of a path. -/
def makeParents (fs : Files) (path : String) : Attempt Unit :=
  fs.makeDirectories ((Path.upward path).drop 1)

/-! ## Removing and renaming -/

def removeFile (fs : Files) (path : String) : Except Failure Files := do
  let p := Path.ofText path
  match ← fs.placeOf p with
  | .directory => .error .isADirectory
  | .entry directory name =>
    match ← fs.lookUp directory name with
    | none => .error .notFound
    | some .directory => .error .isADirectory
    | some (.file _) =>
      if p.trailing then .error .notADirectory
      else .ok { fs with nodes := fs.nodes.erase (directory ++ [name]) }

/-- Removes what a path leads to, a directory with everything below it. -/
def removeAll (fs : Files) (path : String) : Except Failure Files := do
  let (loc, _) ← fs.find (.ofText path)
  .ok { fs with nodes := fs.nodes.filter fun l _ => !loc.isPrefixOf l }

/-- Where a location is after a move. -/
def relocated (source target l : Location) : Location :=
  if source.isPrefixOf l then target ++ l.drop source.length else l

/-- Moves a directory with everything below it to a location where nothing else is. A process that
works in there moves along. -/
def moveTree (fs : Files) (source target : Location) : Files :=
  { fs with
    nodes := fs.nodes.toList.foldl (fun m p => m.insert (relocated source target p.1) p.2) ∅
    cwd := relocated source target fs.cwd }

/-- Gives a file or directory another name. A file replaces a file, and a directory replaces a
directory that has no entries. -/
def rename (fs : Files) (source target : String) : Except Failure Files := do
  let sp := Path.ofText source
  let tp := Path.ofText target
  match ← fs.placeOf sp, ← fs.placeOf tp with
  | .entry sdir sname, .entry tdir tname =>
    let s := sdir ++ [sname]
    let t := tdir ++ [tname]
    match ← fs.lookUp sdir sname with
    | none => .error .notFound
    | some (.file id) =>
      match ← fs.lookUp tdir tname with
      | some .directory => .error .isADirectory
      | _ =>
        if sp.trailing || tp.trailing then .error .notADirectory
        else .ok { fs with nodes := (fs.nodes.erase s).insert t (.file id) }
    | some .directory =>
      match ← fs.lookUp tdir tname with
      | some (.file _) => .error .notADirectory
      -- A directory does not move below itself.
      | none => if s.isPrefixOf t then .error .invalidArgument else .ok (fs.moveTree s t)
      | some .directory =>
        if s = t then .ok fs
        else if s.isPrefixOf t then .error .invalidArgument
        else if (fs.below t).isEmpty then .ok (fs.moveTree s t)
        else .error .directoryNotEmpty
  | _, _ => .error .invalidArgument

/-! ## Writing -/

/-- An open file. Writes go to the end of the file, wherever that is at the moment, or to a
position of the handle's own. -/
structure Handle where
  file : Nat
  appends : Bool
  offset : Nat
  deriving DecidableEq

/-- Finds the file of a path and makes it if it is missing. -/
def openFile (fs : Files) (path : String) : Except Failure (Files × Nat) := do
  let p := Path.ofText path
  match ← fs.placeOf p with
  | .directory => .error .isADirectory
  | .entry directory name =>
    if p.trailing then .error .isADirectory
    else
      match ← fs.lookUp directory name with
      | some .directory => .error .isADirectory
      | some (.file id) => .ok (fs, id)
      | none =>
        .ok ({ fs with
          nodes := fs.nodes.insert (directory ++ [name]) (.file fs.next)
          contents := fs.contents.insert fs.next []
          next := fs.next + 1 }, fs.next)

/-- Opens a file for writing at its end. -/
def openAppending (fs : Files) (path : String) : Except Failure (Files × Handle) := do
  let (fs, id) ← fs.openFile path
  .ok (fs, ⟨id, true, 0⟩)

/-- Opens a file for writing from its start and drops its content. -/
def openTruncated (fs : Files) (path : String) : Except Failure (Files × Handle) := do
  let (fs, id) ← fs.openFile path
  .ok ({ fs with contents := fs.contents.insert id [] }, ⟨id, false, 0⟩)

/-- The content with bytes written at a position; a gap before the position fills with zeros. -/
def overwrite (content : Bytes) (offset : Nat) (bytes : Bytes) : Bytes :=
  content.take offset ++ List.replicate (offset - content.length) 0 ++ bytes
    ++ content.drop (offset + bytes.length)

def write (fs : Files) (h : Handle) (bytes : Bytes) : Files × Handle :=
  let content := fs.content h.file
  if h.appends then
    ({ fs with contents := fs.contents.insert h.file (content ++ bytes) }, h)
  else
    ({ fs with contents := fs.contents.insert h.file (overwrite content h.offset bytes) },
      { h with offset := h.offset + bytes.length })

/-- The number of bytes in an open file. -/
def sizeOf (fs : Files) (h : Handle) : Nat :=
  (fs.content h.file).length

/-- Puts bytes into a file in place of its content, and makes the directories around it. -/
def replaceFile (fs : Files) (path : String) (bytes : Bytes) : Except Failure Files := do
  let (made, fs) := fs.makeParents path
  made
  let (fs, h) ← fs.openTruncated path
  .ok (fs.write h bytes).1

end Files
end ItemGuard.Storage
