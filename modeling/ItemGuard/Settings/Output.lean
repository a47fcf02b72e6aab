import ItemGuard.Settings.Basic

/-!
# The output of diagnostics

A process has one output for diagnostics. Whoever takes it first keeps it, a host that set up its
own one as well.
-/

namespace ItemGuard

/-- The output of diagnostics of a process. -/
inductive LogOutput where
  | free
  /-- The output is set up to show what a filter lets through. -/
  | taken (filter : String)
  deriving DecidableEq

namespace LogOutput

/-- Sets up the output with a filter, if it is free; answers whether it was. -/
def install (o : LogOutput) (filter : String) : Bool × LogOutput :=
  match o with
  | free => (true, taken filter)
  | taken other => (false, taken other)

/-- Sets up the output for the level of the settings, unless a filter is given instead. -/
def installFor (o : LogOutput) (s : Settings) (filter : Option String) : Bool × LogOutput :=
  o.install (filter.getD s.level)

end LogOutput
end ItemGuard
