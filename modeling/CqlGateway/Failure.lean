import CqlGateway.Text.Quoted
import CqlGateway.Text.Utf8

/-!
# Failures

A failure is a cause with what was learnt on the way out: contexts in front of the message,
categories it was put in, and hints for the reader. Its category, message and hints are functions
of the whole chain.

The marks `‹` and `›` set off sensitive parts of a message elsewhere, so messages never contain
them: each is shown as a question mark. Hints are shown as they are.
-/

namespace CqlGateway

inductive Category where
  | parse
  | unsupportedFeature
  | missingRequiredClause
  | ambiguousName
  | invalidStatement
  | execution
  | permissionDenied
  | unclaimed
  | internal
  deriving DecidableEq, Repr

namespace Category

def name : Category → String
  | .parse => "ParseError"
  | .unsupportedFeature => "UnsupportedFeatureError"
  | .missingRequiredClause => "MissingRequiredClauseError"
  | .ambiguousName => "AmbiguousNameResolutionError"
  | .invalidStatement => "InvalidStatementError"
  | .execution => "ExecutionError"
  | .permissionDenied => "PermissionDeniedError"
  | .unclaimed => "NoTranslatorError"
  | .internal => "InternalError"

/-- A cause whose whole message is this text belongs to the category. -/
def marker? : Category → Option String
  | .parse => some "parse error"
  | .unsupportedFeature => some "unsupported feature"
  | .missingRequiredClause => some "missing required clause"
  | .ambiguousName => some "ambiguous name resolution"
  | .invalidStatement => some "invalid statement"
  | .execution => some "execution error"
  | .permissionDenied => some "permission denied"
  | .unclaimed => some "no translator"
  | .internal => none

/-- The categories a failure can be put in; the first that applies is reported. -/
def ranked : List Category :=
  [.parse, .unsupportedFeature, .missingRequiredClause, .ambiguousName, .invalidStatement,
   .execution, .permissionDenied, .unclaimed]

end Category

/-- Why something could not be done. -/
inductive Failure where
  /-- A cause found here. -/
  | plain (message : String)
  /-- A cause reported from outside, whose message is passed on unchanged. -/
  | foreign (message : String)
  | marked (category : Category) (cause : Failure)
  /-- What was being done when the cause arose. -/
  | wrapped (context : String) (cause : Failure)
  | hinted (hint : String) (cause : Failure)
  deriving DecidableEq, Repr

namespace Failure

/-- A message with the marks of sensitive parts made harmless. -/
def withoutMarks (s : String) : String :=
  String.ofList (s.toList.map fun c => if c = '‹' || c = '›' then '?' else c)

/-- The message of a failure, contexts first. -/
def message : Failure → String
  | .plain s => withoutMarks s
  | .foreign s => s
  | .marked _ f => f.message
  | .wrapped context f =>
    if context = "" then f.message else withoutMarks context ++ ": " ++ f.message
  | .hinted _ f => f.message

/-- Whether a failure was put in a category, or has a cause that says it belongs there. -/
def isIn (c : Category) : Failure → Bool
  | .plain s => c.marker? = some s
  | .foreign _ => false
  | .marked d f => c = d || f.isIn c
  | .wrapped _ f => f.isIn c
  | .hinted _ f => f.isIn c

def category (f : Failure) : Category :=
  (Category.ranked.find? f.isIn).getD .internal

/-- The hints of a failure, the one attached first in front, without repetitions. -/
def hints : Failure → List String
  | .plain _ => []
  | .foreign _ => []
  | .marked _ f => f.hints
  | .wrapped _ f => f.hints
  | .hinted h f => if h = "" || f.hints.contains h then f.hints else f.hints ++ [h]

def hintText (f : Failure) : String :=
  String.intercalate "\n--\n" f.hints

/-- The message with the hints behind it, as shown to a user. -/
def diagnostic (f : Failure) : String :=
  if f.hintText = "" then f.message else f.message ++ " (hint: " ++ f.hintText ++ ")"

/-! ### Making failures -/

/-- A construct that the store cannot express. -/
def unsupported (message : String) : Failure :=
  .marked .unsupportedFeature (.plain message)

/-- A clause that the store requires and the statement lacks. -/
def missing (message : String) : Failure :=
  .marked .missingRequiredClause (.plain message)

/-- A name that the statement does not determine. -/
def ambiguous (message : String) : Failure :=
  .marked .ambiguousName (.plain message)

/-- A malformed statement. -/
def invalid (message : String) : Failure :=
  .marked .invalidStatement (.plain message)

/-- A request that the caller may not make. -/
def denied (message : String) : Failure :=
  .marked .permissionDenied (.plain message)

/-- A statement that no family of statements claims. -/
def unclaimed (kind : String) : Failure :=
  .marked .unclaimed (.plain ("no translator for statement kind " ++ Text.quote kind))

def execution (cause : Failure) : Failure :=
  .marked .execution (.wrapped "failed to execute statement" cause)

/-- How much of a text that could not be parsed is shown, in bytes. -/
def excerptLimit : Nat := 80

/-- The part of a text that is shown in a message: all of it, or the longest prefix within the
limit followed by dots. -/
def excerpt (input : String) : String :=
  if h : input.utf8ByteSize ≤ excerptLimit then input
  else
    let cut := Text.boundaryBefore input excerptLimit (Nat.lt_of_not_le h)
    (input.sliceTo cut).copy ++ "..."

/-- A text that could not be parsed. -/
def parse (cause : Failure) (input : String) : Failure :=
  .marked .parse (.wrapped ("failed to parse " ++ Text.quote (excerpt input)) cause)

def assertionHint : String :=
  "You have encountered an unexpected error.\n\nPlease check the public issue tracker to check whether this problem is\nalready tracked. If you cannot find it there, please report the error\nwith details by creating a new issue.\n\nIf you would rather not post publicly, please contact us directly\nusing the support form.\n\nWe appreciate your feedback.\n"

/-- A failure that should have been impossible. -/
def assertion (message : String) : Failure :=
  .hinted assertionHint (.plain message)

end Failure

end CqlGateway
