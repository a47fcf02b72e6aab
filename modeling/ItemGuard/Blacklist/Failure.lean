import ItemGuard.Storage.Failure

/-!
# Blacklists that cannot be read

A blacklist file that does not exist is told apart from one that exists and cannot be read.
-/

namespace ItemGuard.Blacklist

/-- Why a blacklist file cannot be read. -/
inductive LoadError where
  | missing (path : String)
  | unread (path : String) (failure : Storage.Failure)
  deriving DecidableEq

namespace LoadError

/-- The error for a failure to read the file of a path. -/
def ofFailure (path : String) (failure : Storage.Failure) : LoadError :=
  if failure.kind = .notFound then .missing path else .unread path failure

def message : LoadError → String
  | missing path => "blacklist file " ++ path ++ " does not exist"
  | unread path failure => "could not read blacklist file " ++ path ++ ": " ++ failure.text

end LoadError
end ItemGuard.Blacklist
