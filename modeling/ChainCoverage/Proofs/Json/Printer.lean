import ChainCoverage.CommandLine.Command
import ChainCoverage.Proofs.Json.Scalar

/-!
# Printed values

A printed value, in either form, is cut into its tokens: the brackets, commas and colons
of its arrays and objects around the tokens of its texts, numbers and words.  The blanks
of the form over several lines do not count.

Main definitions:

- `Json.tokens`: the tokens of a value.
- `Json.documents`: the texts that a value is written as.

Main results:

- `Token.scan_compactChars` and `Token.scan_prettyChars`: what a printed value is cut into.
- `Token.scan_of_mem_documents`: every text of a value holds its tokens and no others.
-/

namespace ChainCoverage

namespace Json

/-! ## The tokens of a value -/

/-- The comma in front of an item or member, unless it is the first. -/
def separator (first : Bool) : List Token :=
  if first then [] else [.comma]

mutual

/-- The tokens of a value. -/
def tokens : Json → List Token
  | null => [.null]
  | bool value => [.bool value]
  | number value => [.number value]
  | text value => [.text (some value)]
  | array items => .arrayOpen :: itemTokens true items
  | object members => .objectOpen :: memberTokens true members

/-- The tokens of items up to the end of their array. -/
def itemTokens : (first : Bool) → List Json → List Token
  | _, [] => [.arrayClose]
  | first, item :: rest => separator first ++ item.tokens ++ itemTokens false rest

/-- The tokens of members up to the end of their object. -/
def memberTokens : (first : Bool) → List (String × Json) → List Token
  | _, [] => [.objectClose]
  | first, (name, value) :: rest =>
    separator first ++ .text (some name) :: .colon :: value.tokens ++ memberTokens false rest

end

/-- The texts that a value is written as: without blanks, over several lines, and as a command
prints it. -/
def documents (json : Json) : List String :=
  [json.compact, json.pretty, Command.printed json]

end Json

namespace Token

/-! ## Symbols and words -/

@[simp]
theorem scan_arrayOpen (cs : List Char) : scan ('[' :: cs) = arrayOpen :: scan cs :=
  scan_of_next? rfl rfl

@[simp]
theorem scan_arrayClose (cs : List Char) : scan (']' :: cs) = arrayClose :: scan cs :=
  scan_of_next? rfl rfl

@[simp]
theorem scan_objectOpen (cs : List Char) : scan ('\x7b' :: cs) = objectOpen :: scan cs :=
  scan_of_next? rfl rfl

@[simp]
theorem scan_objectClose (cs : List Char) : scan ('\x7d' :: cs) = objectClose :: scan cs :=
  scan_of_next? rfl rfl

@[simp]
theorem scan_comma (cs : List Char) : scan (',' :: cs) = comma :: scan cs :=
  scan_of_next? rfl rfl

@[simp]
theorem scan_colon (cs : List Char) : scan (':' :: cs) = colon :: scan cs :=
  scan_of_next? rfl rfl

@[simp]
theorem scan_space (cs : List Char) : scan (' ' :: cs) = scan cs :=
  scan_of_isSpace rfl

theorem scan_printNull (cs : List Char) : scan (Json.printNull ++ cs) = null :: scan cs :=
  scan_of_next? rfl rfl

theorem scan_printBool (value : Bool) (cs : List Char) :
    scan (Json.printBool value ++ cs) = bool value :: scan cs := by
  cases value <;> exact scan_of_next? rfl rfl

/-- A number ends in front of a character that is no part of a number. -/
theorem endsNumber_cons {c : Char} (cs : List Char)
    (h : c.isDigit = false ∧ c ≠ '.' ∧ c ≠ 'e' ∧ c ≠ 'E') : EndsNumber (c :: cs) := by
  rintro _ ⟨⟩
  exact h

/-! ## Compact form -/

theorem endsNumber_compactItems (items : List Json) (rest : List Char) :
    EndsNumber (Json.compactItems items ++ rest) := by
  cases items <;> exact endsNumber_cons _ (by decide)

theorem endsNumber_compactMembers (members : List (String × Json)) (rest : List Char) :
    EndsNumber (Json.compactMembers members ++ rest) := by
  cases members <;> exact endsNumber_cons _ (by decide)

mutual

/-- A value without blanks is cut into its tokens. -/
theorem scan_compactChars (json : Json) {rest : List Char} (h : EndsNumber rest) :
    scan (json.compactChars ++ rest) = json.tokens ++ scan rest := by
  match json with
  | .null => exact scan_printNull rest
  | .bool value => exact scan_printBool value rest
  | .number value => exact scan_printNumeral value h
  | .text value => exact scan_printText value rest
  | .array [] => simp [Json.compactChars, Json.tokens, Json.itemTokens]
  | .array (item :: items) =>
    have hitem := scan_compactChars item (endsNumber_compactItems items rest)
    have hitems := scan_compactItems items rest
    simp [Json.compactChars, Json.tokens, Json.itemTokens, Json.separator, hitem, hitems]
  | .object [] => simp [Json.compactChars, Json.tokens, Json.memberTokens]
  | .object ((name, value) :: members) =>
    have hvalue := scan_compactChars value (endsNumber_compactMembers members rest)
    have hmembers := scan_compactMembers members rest
    simp [Json.compactChars, Json.tokens, Json.memberTokens, Json.separator, scan_printText, hvalue,
      hmembers]

theorem scan_compactItems (items : List Json) (rest : List Char) :
    scan (Json.compactItems items ++ rest) = Json.itemTokens false items ++ scan rest := by
  match items with
  | [] => exact scan_arrayClose rest
  | item :: items =>
    have hitem := scan_compactChars item (endsNumber_compactItems items rest)
    have hitems := scan_compactItems items rest
    simp [Json.compactItems, Json.itemTokens, Json.separator, hitem, hitems]

theorem scan_compactMembers (members : List (String × Json)) (rest : List Char) :
    scan (Json.compactMembers members ++ rest) = Json.memberTokens false members ++ scan rest := by
  match members with
  | [] => exact scan_objectClose rest
  | (name, value) :: members =>
    have hvalue := scan_compactChars value (endsNumber_compactMembers members rest)
    have hmembers := scan_compactMembers members rest
    simp [Json.compactMembers, Json.memberTokens, Json.separator, scan_printText, hvalue, hmembers]

end

/-! ## Form over several lines -/

/-- The end of a line and the blanks behind it do not count. -/
@[simp]
theorem scan_newLine (level : Nat) (cs : List Char) :
    scan (Json.newLine level ++ cs) = scan cs := by
  refine scan_of_forall_isSpace cs fun c hc => ?_
  rcases List.mem_cons.1 hc with rfl | hc
  · rfl
  · rw [List.eq_of_mem_replicate hc]
    rfl

theorem endsNumber_prettyItems (level : Nat) (items : List Json) (rest : List Char) :
    EndsNumber (Json.prettyItems level items ++ rest) := by
  cases items <;> exact endsNumber_cons _ (by decide)

theorem endsNumber_prettyMembers (level : Nat) (members : List (String × Json)) (rest : List Char) :
    EndsNumber (Json.prettyMembers level members ++ rest) := by
  cases members <;> exact endsNumber_cons _ (by decide)

mutual

/-- A value over several lines is cut into its tokens. -/
theorem scan_prettyChars (level : Nat) (json : Json) {rest : List Char} (h : EndsNumber rest) :
    scan (json.prettyChars level ++ rest) = json.tokens ++ scan rest := by
  match json with
  | .null => exact scan_printNull rest
  | .bool value => exact scan_printBool value rest
  | .number value => exact scan_printNumeral value h
  | .text value => exact scan_printText value rest
  | .array [] => simp [Json.prettyChars, Json.tokens, Json.itemTokens]
  | .array (item :: items) =>
    have hitem := scan_prettyChars (level + 1) item (endsNumber_prettyItems level items rest)
    have hitems := scan_prettyItems level items rest
    simp [Json.prettyChars, Json.tokens, Json.itemTokens, Json.separator, hitem, hitems]
  | .object [] => simp [Json.prettyChars, Json.tokens, Json.memberTokens]
  | .object ((name, value) :: members) =>
    have hvalue := scan_prettyChars (level + 1) value (endsNumber_prettyMembers level members rest)
    have hmembers := scan_prettyMembers level members rest
    simp [Json.prettyChars, Json.tokens, Json.memberTokens, Json.separator, scan_printText, hvalue,
      hmembers]

theorem scan_prettyItems (level : Nat) (items : List Json) (rest : List Char) :
    scan (Json.prettyItems level items ++ rest) = Json.itemTokens false items ++ scan rest := by
  match items with
  | [] => simp [Json.prettyItems, Json.itemTokens]
  | item :: items =>
    have hitem := scan_prettyChars (level + 1) item (endsNumber_prettyItems level items rest)
    have hitems := scan_prettyItems level items rest
    simp [Json.prettyItems, Json.itemTokens, Json.separator, hitem, hitems]

theorem scan_prettyMembers (level : Nat) (members : List (String × Json)) (rest : List Char) :
    scan (Json.prettyMembers level members ++ rest) =
      Json.memberTokens false members ++ scan rest := by
  match members with
  | [] => simp [Json.prettyMembers, Json.memberTokens]
  | (name, value) :: members =>
    have hvalue := scan_prettyChars (level + 1) value (endsNumber_prettyMembers level members rest)
    have hmembers := scan_prettyMembers level members rest
    simp [Json.prettyMembers, Json.memberTokens, Json.separator, scan_printText, hvalue, hmembers]

end

/-! ## Whole texts -/

theorem endsNumber_nil : EndsNumber [] := by
  rintro _ ⟨⟩

/-- Every text of a value holds its tokens and no others. -/
theorem scan_of_mem_documents {json : Json} {document : String} (h : document ∈ json.documents) :
    scan document.toList = json.tokens := by
  have hcompact := scan_compactChars json endsNumber_nil
  have hpretty := scan_prettyChars 0 json endsNumber_nil
  have hprinted := scan_prettyChars 0 json (endsNumber_cons (c := '\n') [] (by decide))
  have hend : scan ['\n'] = [] := scan_of_isSpace rfl
  rw [Json.documents, List.mem_cons, List.mem_cons, List.mem_singleton] at h
  rcases h with rfl | rfl | rfl
  · simpa [Json.compact] using hcompact
  · simpa [Json.pretty] using hpretty
  · simpa [Command.printed, Json.pretty, hend] using hprinted

end Token
end ChainCoverage
