import ChainCoverage.Coverage.Basic
import ChainCoverage.Assignment.Basic
import ChainCoverage.Json.Printer
import ChainCoverage.Json.Schema

/-!
# The domain's values as JSON

Each kind of value that is written as JSON has a schema, the value it is written as, and
the way back from that value.  Spans are written as pairs, and only written.

Main definitions:

- `Shaped`: a type whose values are written and read as JSON.
- `decode`: reads a value from a text.
-/

namespace ChainCoverage

/-- A type whose values are written and read as JSON. -/
class Shaped (α : Type) where
  schema : Schema
  toJson : α → Json
  /-- The way back from a value in the fixed form that a schema reads. -/
  ofJson? : Json → Option α

/-- Reads a value from a text. -/
def decode {α : Type} [Shaped α] (document : String) : Except DecodeError α :=
  match (Shaped.schema α).readDocument document with
  | .error problem => .error problem
  | .ok json =>
    match Shaped.ofJson? json with
    | some value => .ok value
    | none => .error .mismatch

/-- Reads every value of a list. -/
def listOfJson? {α : Type} (item : Json → Option α) : Json → Option (List α)
  | .array items => items.mapM item
  | _ => none

/-- A natural number in a value. -/
def Json.toNat? : Json → Option Nat
  | .number n => n.toNat?
  | _ => none

/-- A word in a value. -/
def Json.toWord? (json : Json) : Option UInt64 :=
  json.toNat?.map UInt64.ofNat

/-- A half word in a value. -/
def Json.toHalfWord? (json : Json) : Option UInt32 :=
  json.toNat?.map UInt32.ofNat

/-- A text in a value. -/
def Json.toText? : Json → Option String
  | .text s => some s
  | _ => none

/-- A truth value in a value. -/
def Json.toBool? : Json → Option Bool
  | .bool b => some b
  | _ => none

namespace Schema

/-- A block number or another word. -/
def word : Schema := natural UInt64.size

/-- A small count. -/
def halfWord : Schema := natural UInt32.size

end Schema

/-- A span as a pair. -/
def Span.toJson (s : Span) : Json :=
  .array [.ofWord s.first, .ofWord s.last]

namespace TaskName

instance : Shaped TaskName where
  schema := .text
  toJson := .text
  ofJson? := Json.toText?

end TaskName

namespace TaskOptions

/-- Options that are left out have their defaults. -/
instance : Shaped TaskOptions where
  schema := .record [
    ("force_mode", .flag, some (.bool TaskOptions.default.force)),
    ("log_level", .text, some (.text TaskOptions.default.logLevel))]
  toJson o := .object [("force_mode", .bool o.force), ("log_level", .text o.logLevel)]
  ofJson?
    | .object [(_, force), (_, level)] => do
      return ⟨← force.toBool?, ← level.toText?⟩
    | _ => none

end TaskOptions

namespace WorkerTask

instance : Shaped WorkerTask where
  schema := .record [
    ("from", .word, none),
    ("to", .word, none),
    ("force_mode", .flag, none),
    ("log_level", .text, none)]
  toJson t := .object [
    ("from", .ofWord t.span.first),
    ("to", .ofWord t.span.last),
    ("force_mode", .bool t.options.force),
    ("log_level", .text t.options.logLevel)]
  ofJson?
    | .object [(_, first), (_, last), (_, force), (_, level)] => do
      return ⟨⟨← first.toWord?, ← last.toWord?⟩, ⟨← force.toBool?, ← level.toText?⟩⟩
    | _ => none

end WorkerTask

namespace RangeCoverage

instance : Shaped RangeCoverage where
  schema := .record [
    ("start", .word, none),
    ("end", .word, none),
    ("missing", .list .word, none)]
  toJson r := .object [
    ("start", .ofWord r.span.first),
    ("end", .ofWord r.span.last),
    ("missing", .array (r.missing.map .ofWord))]
  ofJson?
    | .object [(_, first), (_, last), (_, missing)] => do
      return ⟨⟨← first.toWord?, ← last.toWord?⟩, ← listOfJson? Json.toWord? missing⟩
    | _ => none

end RangeCoverage

namespace Coverage

instance : Shaped Coverage where
  schema := .record [
    ("latest", .word, none),
    ("ranges", .list (Shaped.schema RangeCoverage), none),
    ("bucket_width", .word, none),
    ("total_missing", .word, none)]
  toJson c := .object [
    ("latest", .ofWord c.latest),
    ("ranges", .array (c.ranges.map Shaped.toJson)),
    ("bucket_width", .ofWord c.bucketWidth),
    ("total_missing", .ofWord c.missingCount)]
  ofJson?
    | .object [(_, latest), (_, ranges), (_, width), (_, missing)] => do
      return ⟨← latest.toWord?, ← listOfJson? Shaped.ofJson? ranges, ← width.toWord?,
        ← missing.toWord?⟩
    | _ => none

end Coverage

namespace Started

instance : Shaped Started where
  schema := .record [
    ("task_id", Shaped.schema TaskName, none),
    ("task", Shaped.schema WorkerTask, none)]
  toJson s := .object [("task_id", .text s.id), ("task", Shaped.toJson s.task)]
  ofJson?
    | .object [(_, id), (_, task)] => do
      return ⟨← id.toText?, ← Shaped.ofJson? task⟩
    | _ => none

end Started

namespace NotStarted

instance : Shaped NotStarted where
  schema := .record [
    ("task", Shaped.schema WorkerTask, none),
    ("error", .text, none)]
  toJson f := .object [("task", Shaped.toJson f.task), ("error", .text f.error)]
  ofJson?
    | .object [(_, task), (_, error)] => do
      return ⟨← Shaped.ofJson? task, ← error.toText?⟩
    | _ => none

end NotStarted

namespace AssignmentReport

instance : Shaped AssignmentReport where
  schema := .record [
    ("started", .list (Shaped.schema Started), none),
    ("failed", .list (Shaped.schema NotStarted), none)]
  toJson r := .object [
    ("started", .array (r.started.map Shaped.toJson)),
    ("failed", .array (r.failed.map Shaped.toJson))]
  ofJson?
    | .object [(_, started), (_, failed)] => do
      return ⟨← listOfJson? Shaped.ofJson? started, ← listOfJson? Shaped.ofJson? failed⟩
    | _ => none

end AssignmentReport
end ChainCoverage
