import ChainCoverage.Text.Unsigned

/-!
# Log levels

A worker's log level is named in any case or numbered from 1 to 5.  How much a
program itself logs is such a level or nothing at all; there 0 and `off` stand for
nothing, and an empty text for errors only.

Main definitions:

- `Level` and `Level.parse?`.
- `Verbosity` and `Verbosity.parse?`.
-/

namespace ChainCoverage

/-- How serious a log line is. -/
inductive Level where
  | error
  | warn
  | info
  | debug
  | trace
deriving DecidableEq

namespace Level

/-- The name in lower case. -/
def name : Level → String
  | error => "error"
  | warn => "warn"
  | info => "info"
  | debug => "debug"
  | trace => "trace"

/-- All levels, the most serious first. -/
def all : List Level := [error, warn, info, debug, trace]

/-- The level with a number, counted from one. -/
def ofNumber? : Nat → Option Level
  | 0 => none
  | n + 1 => all[n]?

/-- The level with a name, in any case of its ASCII letters. -/
def ofName? (text : String) : Option Level :=
  all.find? fun level => level.name == String.ofList (text.toList.map Char.toLower)

/-- The level that a text numbers or names. -/
def parse? (text : String) : Option Level :=
  match Unsigned.parse UInt64.size text.toList with
  | .ok number => ofNumber? number
  | .error _ => ofName? text

end Level

/-- How much is logged: nothing, or all lines from a level on. -/
inductive Verbosity where
  | off
  | upTo (level : Level)
deriving DecidableEq

namespace Verbosity

/-- The name in lower case. -/
def name : Verbosity → String
  | off => "off"
  | upTo level => level.name

/-- The verbosity that a text numbers or names. -/
def parse? (text : String) : Option Verbosity :=
  match Unsigned.parse UInt64.size text.toList with
  | .ok 0 => some off
  | .ok number => (Level.ofNumber? number).map upTo
  | .error _ =>
    if text = "" then
      some (upTo .error)
    else if String.ofList (text.toList.map Char.toLower) = "off" then
      some off
    else
      (Level.ofName? text).map upTo

end Verbosity
end ChainCoverage
