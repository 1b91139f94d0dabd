/-!
# Media types

The type of a request's body: a type, a subtype, which may end with a suffix behind a
plus sign, and parameters.  Letters count in either case.

Main definitions:

- `MediaType.parse?`: the type, subtype and suffix of a media type.
- `MediaType.isJson`: whether a body of that type is JSON.
-/

namespace ChainCoverage

/-- A media type without its parameters, in lower case. -/
structure MediaType where
  type : String
  subtype : String
  suffix : Option String
deriving DecidableEq

namespace MediaType

/-- The characters of a type, a subtype or the name of a parameter. -/
def isTokenChar (c : Char) : Bool :=
  c.isAlphanum || "!#$%&'*+-.^_|~".toList.contains c || c.toNat == 0x60

/-- Whether a text is a nonempty sequence of token characters. -/
def isToken (text : List Char) : Bool :=
  !text.isEmpty && text.all isTokenChar

/-- The characters that may stand in a quoted value. -/
def isQuotedChar (c : Char) : Bool :=
  0x20 ≤ c.toNat && c.toNat < 0x7F

/-- Skips a quoted value behind its opening quote, and the blanks behind it.  It holds at least
one character, so a quote at its start does not end it. -/
def skipQuoted : List Char → Option (List Char)
  | [] => none
  | c :: rest =>
    match isQuotedChar c, rest.dropWhile fun c => isQuotedChar c && c ≠ '"' with
    | true, '"' :: after => some (after.dropWhile (· == ' '))
    | _, _ => none

/-- Skips the value of a parameter.  Only at the end of the text it may be empty. -/
def skipValue : List Char → Option (List Char)
  | [] => some []
  | '"' :: rest => skipQuoted rest
  | c :: rest => if isTokenChar c then some (rest.dropWhile isTokenChar) else none

/-- Skips the name of a parameter and the equals sign behind it. -/
def skipName (text : List Char) : Option (List Char) :=
  match isToken (text.takeWhile isTokenChar), text.dropWhile isTokenChar with
  | true, '=' :: rest => some rest
  | _, _ => none

/-- Whether a text is a list of parameters, at most `fuel` of them, each behind a semicolon and
blanks.  The last semicolon may stand alone. -/
def areParameters : (fuel : Nat) → List Char → Bool
  | _, [] => true
  | fuel + 1, ';' :: text =>
    match text.dropWhile (· == ' ') with
    | [] => true
    | text =>
      match (skipName text).bind skipValue with
      | some rest => areParameters fuel rest
      | none => false
  | _, _ => false

/-- The lower case of a text. -/
def lower (text : List Char) : String :=
  String.ofList (text.map Char.toLower)

/-- Cuts a subtype at its last plus sign, unless that stands in front. -/
def ofSubtype (type subtype : List Char) : MediaType :=
  match subtype.reverse.dropWhile (· ≠ '+') with
  | _ :: c :: main =>
    ⟨lower type, lower (c :: main).reverse,
      some (lower (subtype.reverse.takeWhile (· ≠ '+')).reverse)⟩
  | _ => ⟨lower type, lower subtype, none⟩

/-- The media type that a text stands for. -/
def parse? (text : String) : Option MediaType :=
  let cs := text.toList
  let type := cs.takeWhile isTokenChar
  match cs.dropWhile isTokenChar with
  | '/' :: rest =>
    let subtype := rest.takeWhile isTokenChar
    let parameters := rest.dropWhile isTokenChar
    if !type.isEmpty && !subtype.isEmpty && areParameters parameters.length parameters then
      some (ofSubtype type subtype)
    else
      none
  | _ => none

/-- Whether a body of the type is JSON. -/
def isJson (m : MediaType) : Bool :=
  m.type == "application" && (m.subtype == "json" || m.suffix == some "json")

end MediaType
end ChainCoverage
