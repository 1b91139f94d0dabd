import ChainCoverage.Proofs.Json.Printer
import Mathlib.Data.List.Nodup

/-!
# Reading a value back from its tokens

A reader takes a written value as the value that it presents: the members of an object
may come in any order, at any depth, and other members may stand between them, whatever
their values are.

Main definitions:

- `Schema.Presents`: whether a written value is a value of the shape, up to the order of
  members and members that nobody asks for.
- `Schema.DistinctNames`: whether no record has two fields of one name.
- `FieldReader.Awaits`: where the reading of an object stands with one field.

Main results:

- `Schema.skipFrom_tokens`: a value that nobody asks for is skipped, and nothing else.
- `Schema.readMembers_memberTokens`: the fields of a record are found wherever they stand.
- `Schema.presents_of_perm`: an object presents its value with its members in any order, and with
  members of other names among them.
- `Schema.takes_of_presents`: a written value is read as the value that it presents.
-/

namespace ChainCoverage

namespace Json

/-- The tokens of a value do not start with an end, and with null only when it is null. -/
theorem exists_tokens_eq_cons (json : Json) :
    ∃ token others, json.tokens = token :: others ∧ token ≠ .arrayClose ∧
      (token = .null → json = .null) := by
  cases json <;> exact ⟨_, _, rfl, by simp, by simp⟩

end Json

namespace Schema

open Json (tokens itemTokens memberTokens separator)

/-! ## Values that nobody asks for -/

/-- The first item of an array starts like any value. -/
theorem skipFrom_firstItem (json : Json) (brackets : List Bracket) (rest : List Token) :
    skipFrom (.within brackets .firstItem) (json.tokens ++ rest) =
      skipFrom (.within brackets .value) (json.tokens ++ rest) := by
  cases json <;> cases brackets with
  | nil => rfl
  | cons bracket _ => cases bracket <;> rfl

mutual

/-- A value that nobody asks for is skipped, and nothing else. -/
theorem skipFrom_tokens (json : Json) (brackets : List Bracket) (rest : List Token) :
    skipFrom (.within brackets .value) (json.tokens ++ rest) =
      skipFrom (.behind brackets) rest := by
  match json with
  | .null => rfl
  | .bool _ => rfl
  | .number _ => rfl
  | .text _ => rfl
  | .array items => exact skipFrom_itemTokens true items brackets rest
  | .object members => exact skipFrom_memberTokens true members brackets rest

theorem skipFrom_itemTokens (first : Bool) (items : List Json) (brackets : List Bracket)
    (rest : List Token) :
    skipFrom (.within (.array :: brackets) (if first then .firstItem else .more))
        (itemTokens first items ++ rest) = skipFrom (.behind brackets) rest := by
  match items with
  | [] => cases first <;> rfl
  | item :: items =>
    have hitem := skipFrom_tokens item (.array :: brackets) (itemTokens false items ++ rest)
    have hitems := skipFrom_itemTokens false items brackets rest
    rw [itemTokens, List.append_assoc, List.append_assoc]
    cases first with
    | true => exact (skipFrom_firstItem item _ _).trans (hitem.trans hitems)
    | false => exact hitem.trans hitems

theorem skipFrom_memberTokens (first : Bool) (members : List (String × Json))
    (brackets : List Bracket) (rest : List Token) :
    skipFrom (.within (.object :: brackets) (if first then .firstMember else .more))
        (memberTokens first members ++ rest) = skipFrom (.behind brackets) rest := by
  match members with
  | [] => cases first <;> rfl
  | (name, value) :: members =>
    have hvalue := skipFrom_tokens value (.object :: brackets) (memberTokens false members ++ rest)
    have hmembers := skipFrom_memberTokens false members brackets rest
    rw [memberTokens, List.append_assoc, List.append_assoc]
    cases first <;> exact hvalue.trans hmembers

end

/-- A value is skipped in front of whatever stands behind it. -/
theorem skip_tokens (json : Json) (rest : List Token) : skip (json.tokens ++ rest) = .ok rest := by
  rw [skip, skipFrom_tokens, Skipping.behind, skipFrom]

end Schema

/-! ## Lists -/

/-- Whether a reader takes a written value as a value, whatever stands behind it. -/
def Reader.Takes (read : Reader Json) (value written : Json) : Prop :=
  ∀ rest, read (written.tokens ++ rest) = .ok (value, rest)

namespace Schema

open Json (separator)

/-- The comma that is due is there. -/
theorem separated_separator (first : Bool) (tokens : List Token) :
    separated first (separator first ++ tokens) = .ok tokens := by
  cases first <;> rfl

/-- One more item is read, and then those behind it. -/
theorem readItems_of_takes {item : Reader Json} {value written : Json}
    (h : item.Takes value written) (fuel : Nat) (first : Bool) (rest : List Token) :
    readItems item (fuel + 1) first (separator first ++ written.tokens ++ rest) =
      (readItems item fuel false rest).map fun (values, rest) => (value :: values, rest) := by
  have hitem := h rest
  have hopen : ∀ others, separator first ++ written.tokens ++ rest ≠ .arrayClose :: others := by
    obtain ⟨token, others, htokens, hclose, _⟩ := written.exists_tokens_eq_cons
    cases first <;> simp [separator, htokens, hclose]
  rw [readItems]
  · rw [List.append_assoc, separated_separator]
    change (item _).bind _ = _
    rw [hitem]
    change (readItems item fuel false rest).bind _ = _
    cases readItems item fuel false rest <;> rfl
  · exact hopen

/-- Items are read one after another. -/
theorem readItems_itemTokens {item : Reader Json} {values written : List Json}
    (h : List.Forall₂ item.Takes values written) {fuel : Nat} (hfuel : written.length < fuel)
    (first : Bool) (rest : List Token) :
    readItems item fuel first (Json.itemTokens first written ++ rest) = .ok (values, rest) := by
  induction h generalizing fuel first with
  | nil =>
    obtain _ | fuel := fuel
    · cases hfuel
    cases first <;> rfl
  | @cons value w values written hvalue _ ih =>
    obtain _ | fuel := fuel
    · cases hfuel
    have hrest := ih (Nat.lt_of_succ_lt_succ hfuel) false
    rw [Json.itemTokens, List.append_assoc, readItems_of_takes hvalue, hrest]
    rfl

/-- There are at least as many tokens as items. -/
theorem length_le_itemTokens (first : Bool) (items : List Json) :
    items.length ≤ (Json.itemTokens first items).length := by
  induction items generalizing first with
  | nil => exact Nat.zero_le _
  | cons item items ih =>
    obtain ⟨token, others, htokens, _⟩ := item.exists_tokens_eq_cons
    have hrest := ih false
    simp only [Json.itemTokens, htokens, List.length_append, List.length_cons]
    omega

/-- A list is read when its items are. -/
theorem readList_takes {item : Reader Json} {values written : List Json}
    (h : List.Forall₂ item.Takes values written) :
    (readList item).Takes (.array values) (.array written) := by
  intro rest
  have hfuel : written.length < (Json.itemTokens true written ++ rest).length + 1 := by
    have hle := length_le_itemTokens true written
    rw [List.length_append]
    omega
  have hitems := readItems_itemTokens h hfuel true rest
  rw [Json.tokens, List.cons_append, readList, hitems]
  rfl

/-! ## Records -/

/-- A member is skipped, or it is the value of a field that was not read before. -/
theorem readMembers_of_member (fields : List FieldReader) (fuel : Nat) (first : Bool)
    (seen : List (String × Json)) (name : String) (tokens : List Token) :
    readMembers fields (fuel + 1) first seen
        (separator first ++ .text (some name) :: .colon :: tokens) =
      match fields.find? (·.name == name) with
      | none => (skip tokens).bind (readMembers fields fuel false seen)
      | some field =>
        if (seen.lookup name).isSome then .error .mismatch
        else (field.read tokens).bind fun (value, rest) =>
          readMembers fields fuel false (seen ++ [(name, value)]) rest := by
  rw [readMembers, separated_separator]
  · rfl
  · cases first <;> rintro _ ⟨⟩

/-- A member that nobody asks for is skipped. -/
theorem readMembers_of_find?_eq_none {fields : List FieldReader} {name : String}
    (h : fields.find? (·.name == name) = none) (written : Json) (fuel : Nat) (first : Bool)
    (seen : List (String × Json)) (rest : List Token) :
    readMembers fields (fuel + 1) first seen
        (separator first ++ .text (some name) :: .colon :: (written.tokens ++ rest)) =
      readMembers fields fuel false seen rest := by
  rw [readMembers_of_member, h]
  dsimp only
  rw [skip_tokens]
  rfl

/-- A member that is asked for is read, when it was not read before. -/
theorem readMembers_of_find?_eq_some {fields : List FieldReader} {name : String}
    {field : FieldReader} (h : fields.find? (·.name == name) = some field) {value written : Json}
    (htakes : field.read.Takes value written) (fuel : Nat) (first : Bool)
    {seen : List (String × Json)} (hseen : seen.lookup name = none) (rest : List Token) :
    readMembers fields (fuel + 1) first seen
        (separator first ++ .text (some name) :: .colon :: (written.tokens ++ rest)) =
      readMembers fields fuel false (seen ++ [(name, value)]) rest := by
  rw [readMembers_of_member, h]
  dsimp only
  rw [hseen, htakes]
  rfl

end Schema

/-- A field is found when one member of an object has its name, wherever that member stands. -/
def FieldReader.Finds (field : FieldReader) (value : Json) (written : List (String × Json)) :
    Prop :=
  ∃ w, written.filter (·.1 == field.name) = [(field.name, w)] ∧ field.read.Takes value w

/-- Where the reading of an object stands with one field: it has been read, or it still comes. -/
inductive FieldReader.Awaits (field : FieldReader) (value : Json)
    (seen written : List (String × Json)) : Prop where
  | read (hseen : seen.lookup field.name = some value)
      (hwritten : written.filter (·.1 == field.name) = [])
  | ahead (hseen : seen.lookup field.name = none) (hfinds : field.Finds value written)

namespace FieldReader.Awaits

variable {field : FieldReader} {value : Json} {seen written : List (String × Json)}
  {name : String} {w : Json}

/-- A member of another name makes no difference to a field. -/
theorem of_cons (h : field.Awaits value seen ((name, w) :: written)) (hname : name ≠ field.name) :
    field.Awaits value seen written := by
  have hskip : ((name, w) :: written).filter (·.1 == field.name) =
      written.filter (·.1 == field.name) := List.filter_cons_of_neg (by simpa using hname)
  cases h with
  | read hseen hwritten => exact .read hseen (hskip ▸ hwritten)
  | ahead hseen hfinds =>
    obtain ⟨v, hfilter, htakes⟩ := hfinds
    exact .ahead hseen ⟨v, hskip ▸ hfilter, htakes⟩

/-- A value read for another field makes no difference to a field. -/
theorem append (h : field.Awaits value seen written) (hname : name ≠ field.name) (v : Json) :
    field.Awaits value (seen ++ [(name, v)]) written := by
  have hlookup : (seen ++ [(name, v)]).lookup field.name = seen.lookup field.name := by
    have hne : (field.name == name) = false := by simpa using hname.symm
    simp [List.lookup_append, List.lookup_cons, hne]
  cases h with
  | read hseen hwritten => exact .read (hlookup.trans hseen) hwritten
  | ahead hseen hfinds => exact .ahead (hlookup.trans hseen) hfinds

/-- A member with the name of a field is the one that the field waits for. -/
theorem take (h : field.Awaits value seen ((field.name, w) :: written)) :
    seen.lookup field.name = none ∧ field.read.Takes value w ∧
      field.Awaits value (seen ++ [(field.name, value)]) written := by
  have htaken : ((field.name, w) :: written).filter (·.1 == field.name) =
      (field.name, w) :: written.filter (·.1 == field.name) := List.filter_cons_of_pos (by simp)
  cases h with
  | read hseen hwritten =>
    rw [htaken] at hwritten
    cases hwritten
  | ahead hseen hfinds =>
    obtain ⟨v, hfilter, htakes⟩ := hfinds
    rw [htaken, List.cons.injEq, Prod.mk.injEq] at hfilter
    obtain ⟨⟨_, rfl⟩, hrest⟩ := hfilter
    refine ⟨hseen, htakes, .read ?_ hrest⟩
    simp [List.lookup_append, hseen]

end FieldReader.Awaits

namespace Schema

open Json (separator)

/-- When every field has been read, the members are the fields in their order. -/
theorem mapM_fieldValue {asked : List (FieldReader × Json)} {seen : List (String × Json)}
    (h : ∀ p ∈ asked, seen.lookup p.1.name = some p.2) :
    (asked.map (·.1)).mapM (fieldValue seen) = some (asked.map fun p => (p.1.name, p.2)) := by
  induction asked with
  | nil => rfl
  | cons p asked ih =>
    have hfirst : fieldValue seen p.1 = some (p.1.name, p.2) := by
      rw [fieldValue, h p List.mem_cons_self]
    rw [List.map_cons, List.mapM_cons, hfirst, ih fun q hq => h q (List.mem_cons_of_mem _ hq)]
    rfl

/-- The fields of a record are found wherever they stand among the members.  Of two fields with one
name the second would never be asked for, so the names must be distinct. -/
theorem readMembers_memberTokens {asked : List (FieldReader × Json)}
    (hnames : (asked.map (·.1.name)).Nodup) {seen written : List (String × Json)}
    (h : ∀ p ∈ asked, p.1.Awaits p.2 seen written) {fuel : Nat} (hfuel : written.length < fuel)
    (first : Bool) (rest : List Token) :
    readMembers (asked.map (·.1)) fuel first seen (Json.memberTokens first written ++ rest) =
      .ok (asked.map fun p => (p.1.name, p.2), rest) := by
  induction written generalizing seen fuel first with
  | nil =>
    obtain _ | fuel := fuel
    · cases hfuel
    have hseen : ∀ p ∈ asked, seen.lookup p.1.name = some p.2 := by
      intro p hp
      obtain ⟨hseen, _⟩ | ⟨_, _, hfilter, _⟩ := h p hp
      · exact hseen
      · cases hfilter
    rw [Json.memberTokens, List.singleton_append, readMembers, mapM_fieldValue hseen]
  | cons member written ih =>
    obtain ⟨name, w⟩ := member
    obtain _ | fuel := fuel
    · cases hfuel
    have hfuel' : written.length < fuel := Nat.lt_of_succ_lt_succ hfuel
    have htokens : Json.memberTokens first ((name, w) :: written) ++ rest =
        separator first ++ .text (some name) :: .colon ::
          (w.tokens ++ (Json.memberTokens false written ++ rest)) := by
      simp [Json.memberTokens]
    rw [htokens]
    cases hfind : (asked.map (·.1)).find? (·.name == name) with
    | none =>
      have hother : ∀ p ∈ asked, name ≠ p.1.name := by
        intro p hp hname
        exact List.find?_eq_none.1 hfind p.1 (List.mem_map_of_mem hp) (beq_iff_eq.2 hname.symm)
      rw [readMembers_of_find?_eq_none hfind]
      exact ih (fun p hp => (h p hp).of_cons (hother p hp)) hfuel' false
    | some field =>
      obtain ⟨p, hp, rfl, rfl⟩ : ∃ p ∈ asked, p.1 = field ∧ p.1.name = name := by
        obtain ⟨p, hp, hfield⟩ := List.mem_map.1 (List.mem_of_find?_eq_some hfind)
        have hname : field.name = name := by simpa using List.find?_some hfind
        exact ⟨p, hp, hfield, hfield ▸ hname⟩
      obtain ⟨hseen, htakes, hread⟩ := (h p hp).take
      rw [readMembers_of_find?_eq_some hfind htakes fuel first hseen]
      -- The member settles the field of its name, and no other.
      refine ih (fun q hq => ?_) hfuel' false
      rcases eq_or_ne p.1.name q.1.name with hname | hname
      · obtain rfl := List.inj_on_of_nodup_map hnames hp hq hname
        exact hread
      · exact ((h q hq).of_cons hname).append hname p.2

/-- There are at least as many tokens as members. -/
theorem length_le_memberTokens (first : Bool) (members : List (String × Json)) :
    members.length ≤ (Json.memberTokens first members).length := by
  induction members generalizing first with
  | nil => exact Nat.zero_le _
  | cons member members ih =>
    have hrest := ih false
    simp only [Json.memberTokens, List.length_append, List.length_cons]
    omega

/-- A record is read from an object in which each field is found. -/
theorem readRecord_takes {asked : List (FieldReader × Json)}
    (hnames : (asked.map (·.1.name)).Nodup) {written : List (String × Json)}
    (h : ∀ p ∈ asked, p.1.Finds p.2 written) :
    (readRecord (asked.map (·.1))).Takes (.object (asked.map fun p => (p.1.name, p.2)))
      (.object written) := by
  intro rest
  have hawaits : ∀ p ∈ asked, p.1.Awaits p.2 [] written := fun p hp => .ahead rfl (h p hp)
  have hfuel : written.length < (Json.memberTokens true written ++ rest).length + 1 := by
    have hle := length_le_memberTokens true written
    rw [List.length_append]
    omega
  have hmembers := readMembers_memberTokens hnames hawaits hfuel true rest
  rw [Json.tokens, List.cons_append, readRecord, hmembers]
  rfl

/-! ## Presentations -/

mutual

/-- Whether no record of a schema has two fields of one name. -/
def DistinctNames : Schema → Prop
  | natural _ | flag | text => True
  | optional inner => inner.DistinctNames
  | list item => item.DistinctNames
  | record fields => (fields.map (·.1)).Nodup ∧ FieldsDistinct fields

/-- Whether the shapes of some fields have distinct names as well. -/
def FieldsDistinct : List (String × Schema × Option Json) → Prop
  | [] => True
  | (_, schema, _) :: rest => schema.DistinctNames ∧ FieldsDistinct rest

end

mutual

/-- Whether a written value presents a value of the shape: each field of a record is one member of
its object, at any place, and any other members may stand there as well. -/
def Presents : Schema → (value written : Json) → Prop
  | natural bound, value, written => ∃ n < bound, value = .ofNat n ∧ written = .ofNat n
  | flag, value, written => ∃ b, value = .bool b ∧ written = .bool b
  | text, value, written => ∃ s, value = .text s ∧ written = .text s
  | optional inner, value, written =>
    value = .null ∧ written = .null ∨ written ≠ .null ∧ inner.Presents value written
  | list item, value, written =>
    ∃ values items, value = .array values ∧ written = .array items ∧
      List.Forall₂ item.Presents values items
  | record fields, value, written =>
    ∃ members given, value = .object members ∧ written = .object given ∧
      FieldsPresent fields members given

/-- Whether the fields of a record, with the values of some members, are among the given members
of an object. -/
def FieldsPresent : List (String × Schema × Option Json) → (members given : List (String × Json)) →
    Prop
  | [], members, _ => members = []
  | (name, schema, _) :: fields, members, given =>
    ∃ value others, members = (name, value) :: others ∧
      (∃ w, given.filter (·.1 == name) = [(name, w)] ∧ schema.Presents value w) ∧
      FieldsPresent fields others given

end

/-! ## Members in any order -/

/-- The values of fields are named like the fields. -/
theorem map_fst_of_fieldsPresent {fields : List (String × Schema × Option Json)}
    {members given : List (String × Json)} (h : FieldsPresent fields members given) :
    members.map (·.1) = fields.map (·.1) := by
  induction fields generalizing members with
  | nil =>
    obtain rfl : members = [] := h
    rfl
  | cons field fields ih =>
    obtain ⟨value, others, rfl, _, hothers⟩ := h
    rw [List.map_cons, List.map_cons, ih hothers]

/-- Fields stay present when the members are put in another order, and when members with names of
no field come among them. -/
theorem fieldsPresent_of_perm {fields : List (String × Schema × Option Json)}
    {members written given unknown : List (String × Json)}
    (h : FieldsPresent fields members written)
    (hunknown : ∀ m ∈ unknown, m.1 ∉ fields.map (·.1)) (hgiven : given.Perm (written ++ unknown)) :
    FieldsPresent fields members given := by
  induction fields generalizing members with
  | nil => exact h
  | cons field fields ih =>
    obtain ⟨name, schema, default?⟩ := field
    obtain ⟨value, others, rfl, ⟨w, hfilter, hvalue⟩, hothers⟩ := h
    have hnone : unknown.filter (·.1 == name) = [] := by
      refine List.filter_eq_nil_iff.2 fun m hm hname => hunknown m hm ?_
      rw [beq_iff_eq.1 hname]
      exact List.mem_cons_self
    have hperm := hgiven.filter (·.1 == name)
    rw [List.filter_append, hfilter, hnone, List.append_nil] at hperm
    refine ⟨value, others, rfl, ⟨w, List.perm_singleton.1 hperm, hvalue⟩, ih hothers ?_⟩
    exact fun m hm hmem => hunknown m hm (List.mem_cons_of_mem _ hmem)

/-- An object still presents its value when its members are put in another order, and when members
with other names come among them. -/
theorem presents_of_perm (schema : Schema) {members given unknown : List (String × Json)}
    (h : schema.Presents (.object members) (.object members))
    (hunknown : ∀ m ∈ unknown, m.1 ∉ members.map (·.1)) (hgiven : given.Perm (members ++ unknown)) :
    schema.Presents (.object members) (.object given) := by
  match schema with
  | natural _ => obtain ⟨_, _, hvalue, _⟩ := h; cases hvalue
  | flag => obtain ⟨_, hvalue, _⟩ := h; cases hvalue
  | text => obtain ⟨_, hvalue, _⟩ := h; cases hvalue
  | list _ => obtain ⟨_, _, hvalue, _⟩ := h; cases hvalue
  | optional inner =>
    obtain ⟨hvalue, _⟩ | ⟨_, hinner⟩ := h
    · cases hvalue
    · exact .inr ⟨nofun, presents_of_perm inner hinner hunknown hgiven⟩
  | record fields =>
    obtain ⟨_, _, ⟨⟩, ⟨⟩, hfields⟩ := h
    rw [map_fst_of_fieldsPresent hfields] at hunknown
    exact ⟨members, given, rfl, rfl, fieldsPresent_of_perm hfields hunknown hgiven⟩

/-! ## What is presented is read -/

/-- The readers of fields have the names of the fields. -/
theorem map_name_readers (fields : List (String × Schema × Option Json)) :
    (readers fields).map (·.name) = fields.map (·.1) := by
  induction fields with
  | nil => rfl
  | cons field fields ih =>
    rw [readers, List.map_cons, List.map_cons, ih]

mutual

/-- A written value is read as the value that it presents. -/
theorem takes_of_presents (schema : Schema) (hnames : schema.DistinctNames) {value written : Json}
    (h : schema.Presents value written) : schema.read.Takes value written := by
  match schema with
  | natural bound =>
    obtain ⟨n, hn, rfl, rfl⟩ := h
    intro rest
    change readNatural bound (.number (.ofNat n) :: rest) = _
    rw [readNatural, Numeral.toNat?_ofNat]
    dsimp only
    rw [if_pos hn]
  | flag =>
    obtain ⟨b, rfl, rfl⟩ := h
    exact fun _ => rfl
  | text =>
    obtain ⟨s, rfl, rfl⟩ := h
    exact fun _ => rfl
  | optional inner =>
    intro rest
    obtain ⟨rfl, rfl⟩ | ⟨hnull, hinner⟩ := h
    · rfl
    · obtain ⟨token, others, htokens, _, htoken⟩ := written.exists_tokens_eq_cons
      have hread := takes_of_presents inner hnames hinner rest
      rw [htokens, List.cons_append] at hread ⊢
      rw [read, readOptional]
      · exact hread
      · rintro _ ⟨⟩
        exact hnull (htoken rfl)
  | list item =>
    obtain ⟨values, items, rfl, rfl, hitems⟩ := h
    exact readList_takes (hitems.imp fun _ _ hitem => takes_of_presents item hnames hitem)
  | record fields =>
    obtain ⟨members, given, rfl, rfl, hfields⟩ := h
    obtain ⟨asked, hreaders, rfl, hfinds⟩ := exists_asked fields hnames.2 hfields
    have hasked : (asked.map (·.1.name)).Nodup := by
      have hmap : asked.map (·.1.name) = fields.map (·.1) := by
        rw [← map_name_readers, ← hreaders, List.map_map]
        rfl
      rw [hmap]
      exact hnames.1
    rw [read, ← hreaders]
    exact readRecord_takes hasked hfinds

theorem exists_asked (fields : List (String × Schema × Option Json))
    (hnames : FieldsDistinct fields) {members given : List (String × Json)} (h : FieldsPresent fields members given) :
    ∃ asked : List (FieldReader × Json), asked.map (·.1) = readers fields ∧
      asked.map (fun p => (p.1.name, p.2)) = members ∧ ∀ p ∈ asked, p.1.Finds p.2 given := by
  match fields with
  | [] => exact ⟨[], rfl, h.symm, by simp⟩
  | (name, schema, default?) :: fields =>
    obtain ⟨value, others, rfl, ⟨w, hfilter, hvalue⟩, hothers⟩ := h
    obtain ⟨asked, hreaders, hmembers, hfinds⟩ := exists_asked fields hnames.2 hothers
    obtain ⟨field, hcons, rfl, hread⟩ : ∃ field, readers ((name, schema, default?) :: fields) =
        field :: readers fields ∧ field.name = name ∧ field.read = schema.read :=
      ⟨_, rfl, rfl, rfl⟩
    have hfield : field.Finds value given :=
      ⟨w, hfilter, hread ▸ takes_of_presents schema hnames.1 hvalue⟩
    refine ⟨(field, value) :: asked, ?_, ?_, ?_⟩
    · rw [List.map_cons, hreaders, hcons]
    · rw [List.map_cons, hmembers]
    · exact List.forall_mem_cons.2 ⟨hfield, hfinds⟩

end

end Schema
end ChainCoverage
