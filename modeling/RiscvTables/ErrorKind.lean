/-!
# Kinds of failure

Every error of this library that stops a run belongs to one of five kinds.  A caller that wants
to react to a failure, and not only to report it, looks at the kind.
-/

set_option autoImplicit false

namespace RiscvTables

/-- What sort of failure an error is. -/
inductive ErrorKind where
  /-- A value is malformed or out of range. -/
  | invalidParameter
  /-- Something that is needed is not there. -/
  | notFound
  /-- Something is there, but of a sort that is not handled. -/
  | unsupported
  /-- Two things that must agree do not. -/
  | aborted
  /-- Storage could not be had. -/
  | outOfResources
deriving DecidableEq, Repr

/-- The words for a kind. -/
def ErrorKind.label : ErrorKind → String
  | .invalidParameter => "invalid parameter"
  | .notFound => "not found"
  | .unsupported => "unsupported"
  | .aborted => "aborted"
  | .outOfResources => "out of resources"

end RiscvTables
