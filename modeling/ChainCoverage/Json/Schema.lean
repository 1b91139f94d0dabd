import ChainCoverage.Json.Token

/-!
# Reading JSON by a schema

A schema tells the shape that a text must have.  The text is read from the left and its
first problem decides: either it is malformed there, which includes a text that ends
early, or a value of another shape stands there.

A record is an object, or an array of its fields in order.  In an object the members
may come in any order, unknown ones are skipped and a known one may not come twice.  A
field may have a default for when it is left out; in an object an optional field may
always be left out.

The value read is in a fixed form: a record is an object with all of its fields in
order.

Main definitions:

- `DecodeError` and `Schema`.
- `Schema.read`: reads one value from the front of some tokens.
- `Schema.readDocument`: reads a whole text.
-/

namespace ChainCoverage

/-- Why a text is not read. -/
inductive DecodeError where
  /-- The text is not JSON, or ends early. -/
  | malformed
  /-- A value of another shape stands in the text. -/
  | mismatch
deriving DecidableEq

/-- The shape of a value. -/
inductive Schema where
  /-- A natural number below a bound, written without sign, fraction or exponent. -/
  | natural (bound : Nat)
  | flag
  | text
  /-- A value of the inner shape, or null. -/
  | optional (inner : Schema)
  | list (item : Schema)
  /-- Fields with their names, shapes and defaults. -/
  | record (fields : List (String × Schema × Option Json))

/-- Reads a value from the front of some tokens and returns what is left. -/
abbrev Reader (α : Type) := List Token → Except DecodeError (α × List Token)

/-- How one field of a record is read. -/
structure FieldReader where
  name : String
  read : Reader Json
  /-- The value in an array that ends before the field. -/
  ifShort : Option Json
  /-- The value in an object without the field. -/
  ifAbsent : Option Json

namespace Schema

/-- The problem of tokens that do not start with the wanted value. -/
def otherShape : List Token → DecodeError
  | .null :: _ | .bool _ :: _ | .arrayOpen :: _ | .objectOpen :: _ => .mismatch
  | .text (some _) :: _ => .mismatch
  | .number n :: _ => if n.isFinite then .mismatch else .malformed
  | _ => .malformed

/-- Reads a natural number below a bound. -/
def readNatural (bound : Nat) : Reader Json
  | .number n :: rest =>
    match n.toNat? with
    | some value =>
      if value < bound then .ok (.ofNat value, rest)
      else .error (otherShape (.number n :: rest))
    | none => .error (otherShape (.number n :: rest))
  | tokens => .error (otherShape tokens)

/-- Reads a truth value. -/
def readFlag : Reader Json
  | .bool value :: rest => .ok (.bool value, rest)
  | tokens => .error (otherShape tokens)

/-- Reads a text. -/
def readText : Reader Json
  | .text (some content) :: rest => .ok (.text content, rest)
  | tokens => .error (otherShape tokens)

/-- Reads null, or else a value. -/
def readOptional (inner : Reader Json) : Reader Json
  | .null :: rest => .ok (.null, rest)
  | tokens => inner tokens

/-! ## Lists -/

/-- Takes the comma in front of an item or member, unless it is the first. -/
def separated : (first : Bool) → List Token → Except DecodeError (List Token)
  | true, tokens => .ok tokens
  | false, .comma :: rest => .ok rest
  | false, _ => .error .malformed

/-- Reads the items of an array up to its end, at most `fuel` of them. -/
def readItems (item : Reader Json) : (fuel : Nat) → (first : Bool) → Reader (List Json)
  | 0, _, _ => .error .malformed
  | _ + 1, _, .arrayClose :: rest => .ok ([], rest)
  | fuel + 1, first, tokens => do
    let tokens ← separated first tokens
    let (head, tokens) ← item tokens
    let (tail, tokens) ← readItems item fuel false tokens
    return (head :: tail, tokens)

/-- Reads an array. -/
def readList (item : Reader Json) : Reader Json
  | .arrayOpen :: rest => do
    let (items, rest) ← readItems item (rest.length + 1) true rest
    return (.array items, rest)
  | tokens => .error (otherShape tokens)

/-! ## Values that nobody asks for -/

/-- What surrounds a place in a text. -/
inductive Bracket where
  | array
  | object
deriving DecidableEq

/-- What may stand next in a value that is skipped. -/
inductive Awaited where
  | value
  | firstItem
  | firstMember
  | member
  | colon
  /-- A comma or the end of the innermost array or object. -/
  | more
deriving DecidableEq

/-- How far a value has been skipped: the brackets around the place, the innermost first, and what
may stand next. -/
inductive Skipping where
  | within (brackets : List Bracket) (awaited : Awaited)
  | complete
deriving DecidableEq

namespace Skipping

/-- Goes on behind a complete value. -/
def behind : List Bracket → Skipping
  | [] => complete
  | brackets => within brackets .more

/-- Takes the first token of a value. -/
def enter (brackets : List Bracket) : Token → Option Skipping
  | .arrayOpen => some (within (.array :: brackets) .firstItem)
  | .objectOpen => some (within (.object :: brackets) .firstMember)
  | .null | .bool _ | .number _ | .text _ => some (behind brackets)
  | _ => none

/-- Takes one token. -/
def step : Skipping → Token → Option Skipping
  | within brackets .value, token => enter brackets token
  | within (.array :: outer) .firstItem, .arrayClose => some (behind outer)
  | within brackets .firstItem, token => enter brackets token
  | within (.object :: outer) .firstMember, .objectClose => some (behind outer)
  | within brackets .firstMember, .text _ => some (within brackets .colon)
  | within brackets .member, .text _ => some (within brackets .colon)
  | within brackets .colon, .colon => some (within brackets .value)
  | within (.array :: outer) .more, .comma => some (within (.array :: outer) .value)
  | within (.object :: outer) .more, .comma => some (within (.object :: outer) .member)
  | within (.array :: outer) .more, .arrayClose => some (behind outer)
  | within (.object :: outer) .more, .objectClose => some (behind outer)
  | _, _ => none

end Skipping

/-- Skips the rest of a value. -/
def skipFrom : Skipping → List Token → Except DecodeError (List Token)
  | .complete, tokens => .ok tokens
  | _, [] => .error .malformed
  | state, token :: rest =>
    match state.step token with
    | some next => skipFrom next rest
    | none => .error .malformed

/-- Skips a value. -/
def skip (tokens : List Token) : Except DecodeError (List Token) :=
  skipFrom (.within [] .value) tokens

/-! ## Records -/

/-- Takes the colon behind a member's name. -/
def takeColon : List Token → Except DecodeError (List Token)
  | .colon :: rest => .ok rest
  | _ => .error .malformed

/-- Reads the fields of a record from an array, in order. -/
def readPositions : (first : Bool) → List FieldReader → Reader (List (String × Json))
  | _, [], .arrayClose :: rest => .ok ([], rest)
  | _, [], _ => .error .malformed
  | _, field :: fields, .arrayClose :: rest =>
    match (field :: fields).mapM fun f => f.ifShort.map (f.name, ·) with
    | some members => .ok (members, rest)
    | none => .error .mismatch
  | first, field :: fields, tokens => do
    let tokens ← separated first tokens
    let (value, tokens) ← field.read tokens
    let (members, tokens) ← readPositions false fields tokens
    return ((field.name, value) :: members, tokens)

/-- The value of a field among the members read, or the one for an object without it. -/
def fieldValue (seen : List (String × Json)) (field : FieldReader) :
    Option (String × Json) :=
  match seen.lookup field.name with
  | some value => some (field.name, value)
  | none => field.ifAbsent.map (field.name, ·)

/-- Reads the members of an object up to its end, at most `fuel` of them.  `seen` holds the known
members read before. -/
def readMembers (fields : List FieldReader) :
    (fuel : Nat) → (first : Bool) → (seen : List (String × Json)) →
      Reader (List (String × Json))
  | 0, _, _, _ => .error .malformed
  | _ + 1, _, seen, .objectClose :: rest =>
    match fields.mapM (fieldValue seen) with
    | some members => .ok (members, rest)
    | none => .error .mismatch
  | fuel + 1, first, seen, tokens => do
    match ← separated first tokens with
    | .text (some name) :: rest =>
      match fields.find? (·.name == name) with
      | none =>
        let rest ← takeColon rest
        let rest ← skip rest
        readMembers fields fuel false seen rest
      | some field =>
        if (seen.lookup name).isSome then
          .error .mismatch
        else
          let rest ← takeColon rest
          let (value, rest) ← field.read rest
          readMembers fields fuel false (seen ++ [(name, value)]) rest
    | _ => .error .malformed

/-- Reads a record. -/
def readRecord (fields : List FieldReader) : Reader Json
  | .arrayOpen :: rest => do
    let (members, rest) ← readPositions true fields rest
    return (.object members, rest)
  | .objectOpen :: rest => do
    let (members, rest) ← readMembers fields (rest.length + 1) true [] rest
    return (.object members, rest)
  | tokens => .error (otherShape tokens)

/-! ## Schemas -/

/-- Whether null is a value of the shape. -/
def isOptional : Schema → Bool
  | optional _ => true
  | _ => false

mutual

/-- Reads a value of the shape. -/
def read : Schema → Reader Json
  | natural bound => readNatural bound
  | flag => readFlag
  | text => readText
  | optional inner => readOptional inner.read
  | list item => readList item.read
  | record fields => readRecord (readers fields)

/-- How the fields of a record are read. -/
def readers : List (String × Schema × Option Json) → List FieldReader
  | [] => []
  | (name, schema, default?) :: rest =>
    { name := name
      read := schema.read
      ifShort := default?
      ifAbsent := default?.or (if schema.isOptional then some .null else none) } ::
    readers rest

end

/-- Reads a whole text, which must hold one value and nothing else. -/
def readDocument (schema : Schema) (document : String) : Except DecodeError Json :=
  match schema.read (Token.scan document.toList) with
  | .error problem => .error problem
  | .ok (value, []) => .ok value
  | .ok _ => .error .malformed

end Schema
end ChainCoverage
