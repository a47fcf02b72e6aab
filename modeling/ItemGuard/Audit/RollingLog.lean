import ItemGuard.Storage.Files
import ItemGuard.Text.Numeral

/-!
# Rolling logs

A rolling log appends lines to an active file. Before a line that would make the active file larger
than the limit, the file is rolled over: it gets the number 1 at the end of its name, each numbered
file gets the next number, the one with the last number is dropped, and an empty file becomes
active. An empty active file takes any line, so no line is ever split or refused for its length.
-/

namespace ItemGuard.Audit

open Storage (Failure Files)
open Storage.Files (Attempt Handle)

/-- A log with an open active file. -/
structure RollingLog where
  path : String
  /-- The largest size of the active file; 0 for no limit. -/
  limit : Nat
  /-- The number of files to keep, the active one among them. -/
  count : Nat
  handle : Handle
  /-- The size of the active file, as far as this log has written it. -/
  written : Nat
  deriving DecidableEq

namespace RollingLog

/-- The path of the numbered file. -/
def rolledPath (path : String) (n : Nat) : String :=
  path ++ "." ++ String.ofList (Text.decimal n)

/-- Opens a log, in directories that are made where they are missing. What the active file holds
already stays and counts. -/
def create (path : String) (limit count : Nat) (fs : Files) : Attempt RollingLog :=
  match fs.makeParents path with
  | (.error e, fs) => (.error e, fs)
  | (.ok (), fs) =>
    match fs.openAppending path with
    | .error e => (.error e, fs)
    | .ok (fs, handle) => (.ok ⟨path, limit, count, handle, fs.sizeOf handle⟩, fs)

/-! ## Rolling over -/

/-- Removes a file if it exists. -/
def dropFile (path : String) (fs : Files) : Except Failure Files :=
  if fs.pathExists path then fs.removeFile path else .ok fs

/-- Renames a file if it exists. -/
def moveFile (source target : String) (fs : Files) : Except Failure Files :=
  if fs.pathExists source then fs.rename source target else .ok fs

/-- Renames a file, which may be missing. -/
def moveActive (source target : String) (fs : Files) : Except Failure Files :=
  match fs.rename source target with
  | .ok fs => .ok fs
  | .error e => if e.kind = .notFound then .ok fs else .error e

/-- How the files of a log of so many files move up by one number. -/
def shifts (path : String) (count : Nat) : List (Files → Except Failure Files) :=
  if count ≤ 1 then []
  else
    -- From the last one down, so that no file takes the place of one that has yet to move.
    dropFile (rolledPath path (count - 1))
      :: ((List.range (count - 2)).reverse.map fun k =>
        moveFile (rolledPath path (k + 1)) (rolledPath path (k + 2)))
      ++ [moveActive path (rolledPath path 1)]

def rotate (log : RollingLog) (fs : Files) : Attempt RollingLog :=
  match fs.attemptAll (shifts log.path log.count) with
  | (.error e, fs) => (.error e, fs)
  | (.ok (), fs) =>
    match fs.openTruncated log.path with
    | .error e => (.error e, fs)
    -- Unlike the handle of `create`, this one writes at a position of its own.
    | .ok (fs, handle) => (.ok { log with handle := handle, written := 0 }, fs)

/-! ## Writing -/

/-- The bytes of a line with its end. -/
def lineBytes (line : String) : Bytes :=
  Text.utf8 line ++ [10]

/-- The active file has to be rolled over before so many bytes. -/
def isFull (log : RollingLog) (size : Nat) : Bool :=
  0 < log.limit && 0 < log.written && log.limit < log.written + size

def put (log : RollingLog) (bytes : Bytes) (fs : Files) : RollingLog × Files :=
  let (fs, handle) := fs.write log.handle bytes
  ({ log with handle := handle, written := log.written + bytes.length }, fs)

/-- Writes a line, and rolls the log over before it if it has to be. A log that cannot be rolled
over is left as it is. -/
def append (log : RollingLog) (line : String) (fs : Files) : Attempt RollingLog :=
  let bytes := lineBytes line
  if log.isFull bytes.length then
    match log.rotate fs with
    | (.error e, fs) => (.error e, fs)
    | (.ok log, fs) =>
      let (log, fs) := log.put bytes fs
      (.ok log, fs)
  else
    let (log, fs) := log.put bytes fs
    (.ok log, fs)

end RollingLog
end ItemGuard.Audit
