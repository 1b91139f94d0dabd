import ChainCoverage.Proofs.Json.Schema

/-!
# The domain's values are read back

Every value that is written as JSON is read back from its text, in either form, and from
the text of any object that presents it: with the members of its objects in any order, and
with members of other names among them.

Main definitions:

- `LawfulShaped`: the value that a value is written as presents it, and leads back to it.
- `ReadBack`: every value of a type is read back from its texts.

Main results:

- `decode_of_presents`: a text with the tokens of a presentation is read as the value.
- `readBack_all`: the values of the domain are read back.
-/

namespace ChainCoverage

/-! ## Parts of values -/

namespace Json

@[simp]
theorem toWord?_ofWord (n : UInt64) : (ofWord n).toWord? = some n := by
  simp [toWord?, toNat?, ofWord, ofNat]

@[simp]
theorem toBool?_bool (b : Bool) : (bool b).toBool? = some b :=
  rfl

@[simp]
theorem toText?_text (s : String) : (text s).toText? = some s :=
  rfl

end Json

/-- A list is read back when its items are. -/
@[simp]
theorem listOfJson?_map {α : Type} {toJson : α → Json} {ofJson? : Json → Option α}
    (h : ∀ value, ofJson? (toJson value) = some value) (values : List α) :
    listOfJson? ofJson? (.array (values.map toJson)) = some values := by
  have hread : ofJson? ∘ toJson = some := funext h
  rw [listOfJson?, List.mapM_map, hread]
  exact List.mapM_pure.trans (congrArg some (List.map_id values))

/-! ## Lawful shapes -/

/-- A type with a written form that fits its schema and leads back to the value. -/
class LawfulShaped (α : Type) [Shaped α] : Prop where
  distinctNames : (Shaped.schema α).DistinctNames
  /-- What a value is written as presents it. -/
  presents_toJson (value : α) :
    (Shaped.schema α).Presents (Shaped.toJson value) (Shaped.toJson value)
  ofJson?_toJson (value : α) : Shaped.ofJson? (Shaped.toJson value) = some value

namespace Schema

@[simp]
theorem presents_ofWord (n : UInt64) : word.Presents (.ofWord n) (.ofWord n) :=
  ⟨n.toNat, n.toNat_lt_size, rfl, rfl⟩

@[simp]
theorem presents_bool (b : Bool) : flag.Presents (.bool b) (.bool b) :=
  ⟨b, rfl, rfl⟩

@[simp]
theorem presents_text (s : String) : text.Presents (.text s) (.text s) :=
  ⟨s, rfl, rfl⟩

/-- A list presents itself when its items do. -/
@[simp]
theorem presents_array {α : Type} {item : Schema} {toJson : α → Json}
    (h : ∀ value, item.Presents (toJson value) (toJson value)) (values : List α) :
    (list item).Presents (.array (values.map toJson)) (.array (values.map toJson)) :=
  ⟨_, _, rfl, rfl, List.forall₂_same.2 (List.forall_mem_map.2 fun value _ => h value)⟩

end Schema

/-! ## The types of the domain -/

instance : LawfulShaped TaskName where
  distinctNames := trivial
  presents_toJson name := Schema.presents_text name
  ofJson?_toJson _ := rfl

instance : LawfulShaped TaskOptions where
  distinctNames := by simp [Shaped.schema, Schema.DistinctNames, Schema.FieldsDistinct]
  presents_toJson _ := by
    refine ⟨_, _, rfl, rfl, ?_⟩
    simp [Schema.FieldsPresent]
  ofJson?_toJson _ := by simp [Shaped.toJson, Shaped.ofJson?]

instance : LawfulShaped WorkerTask where
  distinctNames := by
    simp [Shaped.schema, Schema.DistinctNames, Schema.FieldsDistinct, Schema.word]
  presents_toJson _ := by
    refine ⟨_, _, rfl, rfl, ?_⟩
    simp [Schema.FieldsPresent]
  ofJson?_toJson _ := by simp [Shaped.toJson, Shaped.ofJson?]

instance : LawfulShaped RangeCoverage where
  distinctNames := by
    simp [Shaped.schema, Schema.DistinctNames, Schema.FieldsDistinct, Schema.word]
  presents_toJson _ := by
    refine ⟨_, _, rfl, rfl, ?_⟩
    simp [Schema.FieldsPresent]
  ofJson?_toJson _ := by simp [Shaped.toJson, Shaped.ofJson?]

instance : LawfulShaped Coverage where
  distinctNames := by
    simp [Shaped.schema, Schema.DistinctNames, Schema.FieldsDistinct, Schema.word]
  presents_toJson _ := by
    refine ⟨_, _, rfl, rfl, ?_⟩
    simp [Schema.FieldsPresent, LawfulShaped.presents_toJson]
  ofJson?_toJson _ := by simp [Shaped.toJson, Shaped.ofJson?]

instance : LawfulShaped Started where
  distinctNames := by
    simp [Shaped.schema, Schema.DistinctNames, Schema.FieldsDistinct, Schema.word]
  presents_toJson s := by
    have hid : (Shaped.schema TaskName).Presents (.text s.id) (.text s.id) :=
      LawfulShaped.presents_toJson s.id
    refine ⟨_, _, rfl, rfl, ?_⟩
    simp [Schema.FieldsPresent, hid, LawfulShaped.presents_toJson]
  ofJson?_toJson _ := by simp [Shaped.toJson, Shaped.ofJson?]

instance : LawfulShaped NotStarted where
  distinctNames := by
    simp [Shaped.schema, Schema.DistinctNames, Schema.FieldsDistinct, Schema.word]
  presents_toJson _ := by
    refine ⟨_, _, rfl, rfl, ?_⟩
    simp [Schema.FieldsPresent, LawfulShaped.presents_toJson]
  ofJson?_toJson _ := by simp [Shaped.toJson, Shaped.ofJson?]

instance : LawfulShaped AssignmentReport where
  distinctNames := by
    simp [Shaped.schema, Schema.DistinctNames, Schema.FieldsDistinct, Schema.word]
  presents_toJson _ := by
    refine ⟨_, _, rfl, rfl, ?_⟩
    simp [Schema.FieldsPresent, LawfulShaped.presents_toJson]
  ofJson?_toJson _ := by simp [Shaped.toJson, Shaped.ofJson?]

/-! ## Values are read back -/

/-- A text with the tokens of a presentation of a value is read as the value, whatever blanks and
escapes it has. -/
theorem decode_of_presents {α : Type} [Shaped α] [LawfulShaped α] {value : α} {written : Json}
    (h : (Shaped.schema α).Presents (Shaped.toJson value) written) {document : String}
    (hdocument : Token.scan document.toList = written.tokens) : decode document = .ok value := by
  have htakes := Schema.takes_of_presents _ LawfulShaped.distinctNames h []
  rw [List.append_nil] at htakes
  rw [decode, Schema.readDocument, hdocument, htakes]
  dsimp only
  rw [LawfulShaped.ofJson?_toJson]

/-- Every value of a type is read back from its texts, and from the texts of every presentation
of it. -/
structure ReadBack (α : Type) [Shaped α] : Prop where
  /-- From the text of the value itself. -/
  printed (value : α) : ∀ document ∈ (Shaped.toJson value).documents, decode document = .ok value
  /-- From the text of its object with the members in any order and other members among them. -/
  reordered (value : α) (members unknown given : List (String × Json))
    (hvalue : Shaped.toJson value = .object members)
    (hunknown : ∀ m ∈ unknown, m.1 ∉ members.map Prod.fst)
    (hgiven : given.Perm (members ++ unknown)) :
    ∀ document ∈ (Json.object given).documents, decode document = .ok value
  /-- From the same at any depth: the objects inside may be arranged in such a way as well. -/
  rearranged (value : α) (written : Json)
    (hpresents : (Shaped.schema α).Presents (Shaped.toJson value) written) :
    ∀ document ∈ written.documents, decode document = .ok value

/-- The values of a lawful type are read back. -/
theorem readBack_of_lawful (α : Type) [Shaped α] [LawfulShaped α] : ReadBack α where
  printed value _ hdocument :=
    decode_of_presents (LawfulShaped.presents_toJson value) (Token.scan_of_mem_documents hdocument)
  reordered value _ _ _ hvalue hunknown hgiven _ hdocument := by
    have hpresents := LawfulShaped.presents_toJson value
    rw [hvalue] at hpresents
    have hgiven' := Schema.presents_of_perm _ hpresents hunknown hgiven
    rw [← hvalue] at hgiven'
    exact decode_of_presents hgiven' (Token.scan_of_mem_documents hdocument)
  rearranged _ _ hpresents _ hdocument :=
    decode_of_presents hpresents (Token.scan_of_mem_documents hdocument)

/-- Tasks, options, ranges, coverages, reports and names of tasks are read back. -/
theorem readBack_all :
    ReadBack WorkerTask ∧ ReadBack TaskOptions ∧ ReadBack RangeCoverage ∧ ReadBack Coverage ∧
      ReadBack AssignmentReport ∧ ReadBack TaskName :=
  ⟨readBack_of_lawful _, readBack_of_lawful _, readBack_of_lawful _, readBack_of_lawful _,
    readBack_of_lawful _, readBack_of_lawful _⟩

/-- A task is read from an object that has its members in another order, and members of other names
in front and between them, one of which holds a member with a name of the task. -/
theorem readBack_all_rearranged :
    decode (Json.object [
        ("note", .array [.null, .object [("from", .bool true)]]),
        ("log_level", .text "\"\\\n𝄞"),
        ("to", .ofWord 18446744073709551615),
        ("note", .number ⟨true, 0, [5], some (-3)⟩),
        ("force_mode", .bool true),
        ("from", .ofWord 7)]).compact =
      .ok (⟨⟨7, 18446744073709551615⟩, ⟨true, "\"\\\n𝄞"⟩⟩ : WorkerTask) := by
  refine readBack_all.1.rearranged _ _ ⟨_, _, rfl, rfl, ?_⟩ _ List.mem_cons_self
  simp [Schema.FieldsPresent]

end ChainCoverage
