import SecretForge.Store

/-!
# A store that records

The plainest store: it keeps the operations it accepts, in order, and refuses those whose request it
was told to refuse.
-/

namespace SecretForge.Recorder

/-- The store that records every operation whose request is not among the refused ones. -/
def store (refused : List String) : Store (List Operation) where
  apply op :=
    if refused.contains op.assignment.call then
      Act.fail (.failed (.rejected op.assignment.call))
    else Act.modify (· ++ [op])
  logout := pure ()

end SecretForge.Recorder
