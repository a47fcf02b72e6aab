/-!
# Failures of storage

An operation on files fails for a reason of some kind and says so in a text. The kinds that the
operations of this library meet have a fixed text; a sink of the host may fail with any text and
for reasons of other kinds.
-/

namespace ItemGuard.Storage

/-- Why an operation on files fails. -/
inductive FailureKind where
  /-- A file or directory on the way does not exist. -/
  | notFound
  /-- Something of that name is there already. -/
  | alreadyExists
  /-- A file stands where a directory is needed. -/
  | notADirectory
  /-- A directory stands where a file is needed. -/
  | isADirectory
  /-- The directory to replace has entries. -/
  | directoryNotEmpty
  /-- A name or a whole path has too many bytes. -/
  | nameTooLong
  /-- The content is no text. -/
  | invalidData
  /-- The path cannot be a path, or the operation makes no sense for it. -/
  | invalidInput
  /-- A reason of another kind, by its name. -/
  | other (name : String)
  deriving DecidableEq

/-- A failed operation. -/
structure Failure where
  kind : FailureKind
  text : String
  deriving DecidableEq

namespace Failure

def notFound : Failure := ⟨.notFound, "No such file or directory (os error 2)"⟩

def alreadyExists : Failure := ⟨.alreadyExists, "File exists (os error 17)"⟩

def notADirectory : Failure := ⟨.notADirectory, "Not a directory (os error 20)"⟩

def isADirectory : Failure := ⟨.isADirectory, "Is a directory (os error 21)"⟩

def directoryNotEmpty : Failure := ⟨.directoryNotEmpty, "Directory not empty (os error 39)"⟩

def nameTooLong : Failure := ⟨.nameTooLong, "File name too long (os error 36)"⟩

def invalidArgument : Failure := ⟨.invalidInput, "Invalid argument (os error 22)"⟩

/-- The content of a file is not UTF-8. -/
def notText : Failure := ⟨.invalidData, "stream did not contain valid UTF-8"⟩

/-- A path contains the null character. -/
def nullInPath : Failure := ⟨.invalidInput, "file name contained an unexpected NUL byte"⟩

end Failure
end ItemGuard.Storage
