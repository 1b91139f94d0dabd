import ChainCoverage.Block
import ChainCoverage.Text.Basic
import ChainCoverage.Text.Quoted
import ChainCoverage.Text.Unsigned

/-!
# Block arguments

Blocks are named on the command line by a number, or by two numbers with a hyphen
between them for an inclusive range.  Blanks around a number do not count.  The first
hyphen is the one between the numbers.

Main definitions:

- `BlockArgument.parse`: the span that an argument stands for.
-/

namespace ChainCoverage
namespace BlockArgument

/-- Why an argument names no blocks. -/
inductive Error where
  | badNumber (argument : String) (problem : Unsigned.Problem)
  | inverted (argument : String)
deriving DecidableEq

namespace Error

/-- The wording. -/
def message : Error → String
  | badNumber argument problem =>
    "invalid block number in " ++ Text.quoted argument ++ ": " ++ problem.message
  | inverted argument => "range " ++ Text.quoted argument ++ " ends before it starts"

end Error

/-- The two ends that a text names; both are the whole text when it has no hyphen. -/
def ends (text : List Char) : List Char × List Char :=
  match text.dropWhile (· ≠ '-') with
  | [] => (text, text)
  | _ :: last => (text.takeWhile (· ≠ '-'), last)

/-- The span that an argument stands for.  Its start is read before its end. -/
def parse (argument : String) : Except Error Span :=
  let (first, last) := ends argument.toList
  match Unsigned.parseWord (Text.trim first) with
  | .error problem => .error (.badNumber argument problem)
  | .ok first =>
    match Unsigned.parseWord (Text.trim last) with
    | .error problem => .error (.badNumber argument problem)
    | .ok last => if last < first then .error (.inverted argument) else .ok ⟨first, last⟩

/-- The argument for a span. -/
def format (span : Span) : String :=
  s!"{span.first}-{span.last}"

end BlockArgument
end ChainCoverage
