/-!
# Reports of several failures

A run goes on after a failure, so that it can end with several.  A single failure is reported by its
own message; several are listed between brackets; where nothing failed there is no report.
-/

namespace SecretForge

def combined : List String → String
  | [m] => m
  | ms => "[" ++ String.intercalate ", " ms ++ "]"

/-- The report of a run's failures, given by their messages. -/
def report? (messages : List String) : Option String :=
  if messages.isEmpty then none else some (combined messages)

end SecretForge
