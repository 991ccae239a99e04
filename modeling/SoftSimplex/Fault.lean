import SoftSimplex.Symbol

/-!
Why a call can fail: a misuse that the caller can avoid, a required constraint that cannot hold, or
a defect of the solver itself.
-/

namespace SoftSimplex

/-- A broken promise of the solver, not of its caller. -/
inductive Defect where
  | leavingNotBasic
  | enteringNotInRow
  | objectiveMissing
  | artificialObjectiveMissing
  | artificialRowStuck
  | objectiveUnbounded
  | repairStuck
  | subjectMissing
  | weakStayRefused
  | editRefused
  | editConstraintLost
  | suggestionRefused
  | resetUnsupported
  | other (detail : String)
  deriving DecidableEq, Repr

inductive Fault where
  /-- A required constraint contradicts the required ones already there. -/
  | requiredFailure
  | constraintNotFound
  | duplicateConstraint
  | notAnEditVariable (unknown : Variable)
  | duplicateEditVariable (unknown : Variable)
  | requiredEditVariable (unknown : Variable)
  | noEditVariables
  | noEditSession
  | internal (defect : Defect)
  deriving DecidableEq, Repr

def Defect.message : Defect → String
  | leavingNotBasic => "pivot: leaving symbol is not basic"
  | enteringNotInRow => "pivot: entering symbol is not in the leaving row"
  | objectiveMissing => "objective row is missing"
  | artificialObjectiveMissing => "artificial objective row is missing"
  | artificialRowStuck => "artificial row has no pivotable symbol"
  | objectiveUnbounded => "objective function is unbounded in optimize"
  | repairStuck => "dual optimize failed"
  | subjectMissing => "subject is not in the expression"
  | weakStayRefused => "required failure while adding a weak stay"
  | editRefused => "required failure while adding an edit variable"
  | editConstraintLost => "constraint not found in remove_edit_vars_to"
  | suggestionRefused => "suggest_value failed in set_edited_value"
  | resetUnsupported => "reset not implemented"
  | other detail => detail

def Fault.message : Fault → String
  | requiredFailure => "Required constraint cannot be satisfied"
  | constraintNotFound => "The constraint is not in the solver"
  | duplicateConstraint => "The constraint has already been added to the solver"
  | notAnEditVariable unknown =>
    "Suggested a value for " ++ unknown.text ++ ", but it is not an edit variable"
  | duplicateEditVariable unknown => unknown.text ++ " is already an edit variable"
  | requiredEditVariable unknown =>
    "Edit constraints on " ++ unknown.text ++ " cannot be required"
  | noEditVariables => "No edit variables have been added"
  | noEditSession => "No edit session is in progress"
  | internal defect => "Internal solver error: " ++ defect.message

def Fault.replacing (old new fault : Fault) : Fault := if fault = old then new else fault

def Fault.isInternal : Fault → Bool
  | internal _ => true
  | _ => false

end SoftSimplex
