import CqlGateway.Execution.Statements
import CqlGateway.Failure
import CqlGateway.Text.Scan

/-!
# Batches

A text is a batch if its first statement starts with `BEGIN BATCH`, possibly with a word between
that says what kind of batch it is. The batch ends at the statement `APPLY BATCH`, which has to be
the last one. The marks count only where a statement starts, so data that spells them is data.
-/

namespace CqlGateway.Execution

inductive BatchFault where
  | statementAfterEnd (statement : String)
  | empty
  | unterminated
  deriving DecidableEq, Repr

def BatchFault.message : BatchFault → String
  | .statementAfterEnd statement => "statement after APPLY BATCH: " ++ statement
  | .empty => "batch contains no statements"
  | .unterminated => "batch is missing APPLY BATCH"

def BatchFault.failure (fault : BatchFault) : Failure :=
  .invalid fault.message

/-- Whether a word can end before the rest of a text. -/
def endsWord : List Char → Bool
  | [] => true
  | c :: _ => !(c.isAlphanum || c = '_')

/-- What a statement holds after the mark that begins a batch. -/
def afterBegin? (cs : List Char) : Option (List Char) := do
  let rest ← Text.wordAndGap? ["begin"] cs
  let rest := (Text.wordAndGap? ["unlogged", "counter"] rest).getD rest
  let rest ← Text.keyword? "batch".toList rest
  if endsWord rest then some rest else none

/-- Whether a statement is the mark that ends a batch. -/
def isApply (cs : List Char) : Bool :=
  ((Text.wordAndGap? ["apply"] cs).bind (Text.keyword? "batch".toList)) = some []

/-- The statements before the mark that ends a batch, given those read before them, reversed. -/
def untilApply (read : List (List Char)) : List (List Char) → Except BatchFault (List (List Char))
  | [] => .error .unterminated
  | s :: rest =>
    if isApply s then
      match rest, read with
      | next :: _, _ => .error (.statementAfterEnd (String.ofList next))
      | [], [] => .error .empty
      | [], _ :: _ => .ok read.reverse
    else
      untilApply (s :: read) rest

/-- The statements of a batch, given the statements of the text; `none` if it is no batch. -/
def batchOf? : List (List Char) → Option (Except BatchFault (List (List Char)))
  | [] => none
  | first :: rest =>
    (afterBegin? first).map fun inner =>
      let inner := Text.trimChars inner
      untilApply [] (if inner.isEmpty then rest else inner :: rest)

/-- The statements of a batch; `none` if the text is no batch. -/
def batch? (text : String) : Option (Except BatchFault (List String)) :=
  (batchOf? (statementChars text.toList)).map fun found =>
    found.map fun body => body.map String.ofList

end CqlGateway.Execution
