import SoftSimplex.Constraint
import SoftSimplex.Fault

/-!
What a call reports besides its result: the steps that it takes, for a log, and diagnostics, for
the sink that a host installs.
-/

namespace SoftSimplex

inductive Diagnostic where
  | notAnEditVariable (unknown : Variable)
  | editCountMismatch (expected found : Nat)
  | parametricIsBasic (unknown : Variable)
  deriving DecidableEq, Repr

def Diagnostic.text : Diagnostic → String
  | notAnEditVariable unknown =>
    "suggest_value for variable " ++ unknown.text ++ ", but it is not an edit variable"
  | editCountMismatch expected found =>
    "remove_edit_vars_to: expected " ++ toString expected ++ " edit variables, found " ++
      toString found
  | parametricIsBasic unknown =>
    "Error: variable " ++ unknown.text ++ " in the external parametric variables is basic"

inductive Sink where
  | log
  | memory (lines : List String)
  deriving DecidableEq, Repr

namespace Sink

def write (line : String) : Sink → Sink
  | log => log
  | memory lines => memory (lines ++ [line])

def clear : Sink → Sink
  | log => log
  | memory _ => memory []

def lines : Sink → List String
  | log => []
  | memory lines => lines

end Sink

inductive Event (K : Type) where
  | pivot (entering leaving : Symbol)
  | artificial (symbol : Symbol) (row : Expression K) (objective : Symbol)
  | adding (constraint : Constraint K)
  | contradicted (constraint : Constraint K)
  | refused (constraint : Constraint K) (fault : Fault)
  | removing (constraint : Constraint K)
  | beginEdit (count : Nat)
  | endEdit (kept : Nat)
  | diagnostic (warning : Diagnostic)

inductive Level where
  | trace
  | debug
  | warn
  deriving DecidableEq, Repr

def Level.text : Level → String
  | trace => "TRACE"
  | debug => "DEBUG"
  | warn => "WARN"

namespace Event

variable {K : Type}

def level : Event K → Level
  | pivot .. | artificial .. => .trace
  | diagnostic _ => .warn
  | _ => .debug

def diagnostic? : Event K → Option Diagnostic
  | diagnostic warning => some warning
  | _ => none

end Event

end SoftSimplex
