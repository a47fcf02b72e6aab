/-!
# Verdicts

The answer to the question whether an actor may act: the action is allowed, or it is denied for a
reason.
-/

namespace ItemGuard

/-- Whether an action may go ahead. -/
inductive Verdict where
  | allow
  | deny (reason : String)
  deriving DecidableEq

namespace Verdict

def isDenial : Verdict → Bool
  | allow => false
  | deny _ => true

def reason? : Verdict → Option String
  | allow => none
  | deny reason => some reason

end Verdict
end ItemGuard
