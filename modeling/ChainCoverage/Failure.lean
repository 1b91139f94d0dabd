import ChainCoverage.Block

/-!
# Failures

Why a request for coverage or for a plan is refused, and why the progress of a
chain could not be read.  Each failure is a cause; its wording is a function of
the cause.

Main definitions:

- `ParameterError`: a request that no answer fits.
- `Fault`: a collaborator's own failure, wrapped in any number of contexts.
- `Unavailable`: the progress of a chain could not be read.
- `CoverageFailure`: a coverage request ends in one of the two.

Main results:

- `bind_eq_ok_iff` and `bind_eq_error_iff`: what two steps come to, of which each may fail.
-/

namespace ChainCoverage

/-- A request with parameters that no answer fits. -/
inductive ParameterError where
  /-- No bucket was asked for. -/
  | noBuckets
  /-- No worker was asked for. -/
  | noWorkers
  /-- The range ends below its start. -/
  | inverted (first last : Block)
deriving DecidableEq

namespace ParameterError

/-- The wording without the kind of failure. -/
def detail : ParameterError → String
  | noBuckets => "bucket count must be at least 1"
  | noWorkers => "worker count must be at least 1"
  | inverted first last => s!"range end {last} is below range start {first}"

/-- The full wording. -/
def message (e : ParameterError) : String :=
  "invalid parameters: " ++ e.detail

end ParameterError

/-- A failure reported by a collaborator, with the contexts put around it. -/
inductive Fault where
  | cause (text : String)
  | within (context : String) (inner : Fault)
deriving DecidableEq

namespace Fault

/-- Contexts outermost first, then the cause, with a colon between them. -/
def message : Fault → String
  | cause text => text
  | within context inner => context ++ ": " ++ inner.message

instance : ToString Fault := ⟨message⟩

end Fault

/-- Why the progress of a chain could not be read, over the collaborators' own failures. -/
inductive Unavailable (ε : Type) where
  /-- A collaborator reported a failure, which is carried unchanged. -/
  | reported (failure : ε)
  /-- The source answered with a page that does not reach past `last`, its own last block. -/
  | stalled (last : Block)
deriving DecidableEq

namespace Unavailable

variable {ε : Type} [ToString ε]

/-- The wording without the kind of failure. -/
def detail : Unavailable ε → String
  | reported failure => toString failure
  | stalled last => s!"block source did not advance past block {last}"

/-- The full wording. -/
def message (u : Unavailable ε) : String :=
  "block source unavailable: " ++ u.detail

end Unavailable

/-- Why a coverage request has no answer. -/
inductive CoverageFailure (ε : Type) where
  | invalid (reason : ParameterError)
  | unavailable (reason : Unavailable ε)
deriving DecidableEq

namespace CoverageFailure

variable {ε : Type} [ToString ε]

/-- The full wording. -/
def message : CoverageFailure ε → String
  | invalid reason => reason.message
  | unavailable reason => reason.message

end CoverageFailure

/-! ## Outcomes -/

theorem toOption_eq_some_iff {ε α : Type} {x : Except ε α} {a : α} :
    x.toOption = some a ↔ x = .ok a := by
  cases x with
  | error reason => exact iff_of_false (fun h => by contradiction) fun h => by contradiction
  | ok value => exact ⟨fun h => congrArg Except.ok (Option.some.inj h), fun h => h ▸ rfl⟩

section Bind

variable {ε α β : Type} {x : Except ε α} {f : α → Except ε β}

theorem bind_eq_ok_iff {b : β} : (x >>= f) = .ok b ↔ ∃ a, x = .ok a ∧ f a = .ok b := by
  constructor
  · intro h
    cases x with
    | error reason => contradiction
    | ok a => exact ⟨a, rfl, h⟩
  · rintro ⟨a, rfl, h⟩
    exact h

theorem bind_eq_error_iff {reason : ε} :
    (x >>= f) = .error reason ↔ x = .error reason ∨ ∃ a, x = .ok a ∧ f a = .error reason := by
  cases x with
  | error other =>
    constructor
    · exact fun h => .inl (congrArg Except.error (Except.error.inj h))
    · rintro (h | ⟨a, h, _⟩)
      · exact congrArg Except.error (Except.error.inj h)
      · contradiction
  | ok a =>
    constructor
    · exact fun h => .inr ⟨a, rfl, h⟩
    · rintro (h | ⟨b, h, hb⟩)
      · contradiction
      · obtain rfl := Except.ok.inj h
        exact hb

end Bind

end ChainCoverage
