import ChainCoverage.Proofs.CommandLine.Spelling

/-!
# The pending argument

The values of an argument are checked only when the next argument is recognised or the
words end.  It makes no difference to the arguments that are found if they are checked at
once: that moves a failure forward and changes which failure it is.

Main definitions:

- `ArgumentReading.Finds`: what is found in words from a state on.
- `ArgumentReading.SettlesFirst`: what is read only behind the pending argument.

Main results:

- `ArgumentReading.accept_eq_ok_iff`: when an argument is accepted, and what is found then.
- `ArgumentReading.finds_iff_of_settle`: the pending argument can be checked at once.
-/

namespace ChainCoverage

/-! ## Accepted arguments -/

theorem Matches.has_eq_true_iff {m : Matches} {name : String} :
    m.has name = true ↔ name ∈ m.map Prod.fst := by
  rw [has, List.lookup_isSome_iff]
  constructor
  · rintro ⟨entry, hentry, heq⟩
    exact List.mem_map.2 ⟨entry, hentry, (beq_iff_eq.1 heq).symm⟩
  · intro hmem
    obtain ⟨entry, hentry, rfl⟩ := List.mem_map.1 hmem
    exact ⟨entry, hentry, beq_self_eq_true _⟩

/-- One more argument is a new one when it was not found before. -/
theorem Matches.nodup_concat {m : Matches} {name : String} {values : List ArgumentValue} :
    ((m ++ [(name, values)]).map Prod.fst).Nodup ↔
      (m.map Prod.fst).Nodup ∧ name ∉ m.map Prod.fst := by
  rw [List.map_append, List.map_singleton, List.nodup_append]
  constructor
  · rintro ⟨hnodup, _, hne⟩
    exact ⟨hnodup, fun hmem => hne _ hmem _ (List.mem_singleton_self _) rfl⟩
  · rintro ⟨hnodup, hfresh⟩
    refine ⟨hnodup, List.pairwise_singleton _ name, fun key hkey other hother heq => hfresh ?_⟩
    have hname : key = name := heq.trans (List.mem_singleton.1 hother)
    exact hname ▸ hkey

theorem Matches.nodup_of_append {m others : Matches} (h : ((m ++ others).map Prod.fst).Nodup) :
    (m.map Prod.fst).Nodup := by
  rw [List.map_append] at h
  exact (List.nodup_append.1 h).1

namespace OptionUse

variable {options : List NamedOption} {o : NamedOption}

theorem of_find?_map_eq {p : NamedOption → Bool}
    (h : (options.find? p).map named = some (.named o)) : o ∈ options ∧ p o = true := by
  obtain ⟨found, hfound, heq⟩ := Option.map_eq_some_iff.1 h
  cases heq
  exact ⟨List.mem_of_find?_eq_some hfound, List.find?_some hfound⟩

theorem mem_of_ofLong? {name : String} (h : ofLong? options name = some (.named o)) :
    o ∈ options ∧ o.long = name := by
  unfold ofLong? at h
  split at h
  · cases h
  · split at h
    · cases h
    · simpa using of_find?_map_eq h

theorem mem_of_ofShort? {letter : Char} (h : ofShort? options letter = some (.named o)) :
    o ∈ options ∧ o.short = some letter := by
  unfold ofShort? at h
  split at h
  · cases h
  · split at h
    · cases h
    · simpa using of_find?_map_eq h

end OptionUse

namespace ArgumentReading

variable {options : List NamedOption} {r s : ArgumentReading} {words : List String} {m : Matches}

theorem accept_eq_ok_iff {argument : PendingArgument} :
    r.accept argument = .ok s ↔ ∃ values, argument.values ≠ [] ∧
      argument.name ∉ r.found.map Prod.fst ∧
      argument.values.mapM argument.shape.read? = some values ∧
      s = { r with found := r.found ++ [(argument.name, values)] } := by
  rw [accept, ← Matches.has_eq_true_iff, ← List.isEmpty_eq_false_iff]
  cases argument.values.isEmpty with
  | true => simp
  | false =>
    cases r.found.has argument.name with
    | true => simp
    | false =>
      cases argument.values.mapM argument.shape.read? with
      | none => simp
      | some values => simp [eq_comm]

/-- What is found when words are read from a state on and the last argument is taken. -/
def Finds (options : List NamedOption) (r : ArgumentReading) (words : List String) (m : Matches) :
    Prop :=
  ∃ reading settled, words.foldlM (step options) r = .ok reading ∧ reading.settle = .ok settled ∧
    settled.found = m

theorem finds_nil :
    r.Finds options [] m ↔ ∃ settled, r.settle = .ok settled ∧ settled.found = m := by
  constructor
  · rintro ⟨_, settled, hread, hsettle, hfound⟩
    cases hread
    exact ⟨settled, hsettle, hfound⟩
  · rintro ⟨settled, hsettle, hfound⟩
    exact ⟨r, settled, rfl, hsettle, hfound⟩

theorem finds_cons {word : String} :
    r.Finds options (word :: words) m ↔
      ∃ next, step options r word = .ok next ∧ next.Finds options words m := by
  constructor
  · rintro ⟨reading, settled, hread, hsettle, hfound⟩
    obtain ⟨next, hstep, hread⟩ := bind_eq_ok_iff.1 (List.foldlM_cons.symm.trans hread)
    exact ⟨next, hstep, reading, settled, hread, hsettle, hfound⟩
  · rintro ⟨next, hstep, reading, settled, hread, hsettle, hfound⟩
    refine ⟨reading, settled, ?_, hsettle, hfound⟩
    rw [List.foldlM_cons]
    exact bind_eq_ok_iff.2 ⟨next, hstep, hread⟩

/-! ## The pending argument -/

/-- Taking the pending argument leaves none pending, and what is still to come. -/
theorem of_settle_eq_ok (h : r.settle = .ok s) :
    s.pending = none ∧ s.onlyPlain = r.onlyPlain ∧ s.rest = r.rest ∧
      (r.awaitsValue = false → s.awaitsValue = false) := by
  rw [settle] at h
  split at h
  · rename_i hpending
    cases h
    exact ⟨hpending, rfl, rfl, id⟩
  · obtain ⟨values, _, _, _, rfl⟩ := accept_eq_ok_iff.1 h
    exact ⟨rfl, rfl, rfl, fun _ => rfl⟩

theorem settle_of_pending_eq_none (h : r.pending = none) : r.settle = .ok r := by
  rw [settle, h]

/-- Without a pending argument the state is one that taking it leads to. -/
theorem settle_settle (h : r.settle = .ok s) : s.settle = .ok s :=
  settle_of_pending_eq_none (of_settle_eq_ok h).1

/-- Whether the pending argument is taken before anything else happens. -/
def SettlesFirst (take : ArgumentReading → Except Usage ArgumentReading) : Prop :=
  ∀ r next, take r = .ok next ↔ ∃ s, r.settle = .ok s ∧ take s = .ok next

theorem settlesFirst_error (usage : Usage) : SettlesFirst fun _ => .error usage :=
  fun _ _ => iff_of_false nofun fun ⟨_, _, h⟩ => nomatch h

theorem settlesFirst_bind (f : ArgumentReading → Except Usage ArgumentReading) :
    SettlesFirst fun r => r.settle >>= f := by
  intro r next
  rw [bind_eq_ok_iff]
  refine exists_congr fun s => and_congr_right fun hsettle => ?_
  dsimp only
  rw [settle_settle hsettle]
  rfl

theorem settlesFirst_takeOption (name : String) (shape : ValueShape) (attached : Option String) :
    SettlesFirst (takeOption · name shape attached) := by
  cases attached with
  | none => exact settlesFirst_bind _
  | some text => exact settlesFirst_bind _

theorem settlesFirst_takeLong (options : List NamedOption) (name : String)
    (attached : Option String) : SettlesFirst (takeLong options · name attached) := by
  unfold takeLong
  split
  · exact settlesFirst_error _
  · exact settlesFirst_takeOption _ _ _
  · exact settlesFirst_error _
  · exact settlesFirst_bind _
  · exact settlesFirst_bind _
  · exact settlesFirst_bind _

theorem settlesFirst_takeShort (options : List NamedOption) (letter : Char)
    (attached : Option String) : SettlesFirst (takeShort options · letter attached) := by
  unfold takeShort
  split
  · exact settlesFirst_error _
  · exact settlesFirst_bind _
  · exact settlesFirst_bind _
  · exact settlesFirst_takeOption _ _ _
  · exact settlesFirst_bind _

/-- Without a pending argument a plain word starts one. -/
theorem takePlain_of_pending_eq_none {p : Positional} {rest : List Positional} {word : String}
    (hpending : r.pending = none) (hrest : r.rest = p :: rest) :
    r.takePlain word = .ok { r with
      pending := some ⟨p.name, p.shape, [word]⟩
      rest := if p.repeats then p :: rest else rest } := by
  rw [takePlain, hrest]
  dsimp only
  rw [hpending]
  cases p.repeats with
  | true => rw [if_pos rfl, ← hrest]
  | false =>
    rw [settle_of_pending_eq_none hpending]
    rfl

/-- A plain word is read behind the pending argument, unless it belongs to it. -/
theorem takePlain_eq_ok_iff {word : String} {next : ArgumentReading}
    (hnew : ∀ argument, r.pending = some argument → ∀ p ∈ r.rest, p.repeats = true →
      p.name ≠ argument.name) :
    r.takePlain word = .ok next ↔ ∃ s, r.settle = .ok s ∧ s.takePlain word = .ok next := by
  cases hrest : r.rest with
  | nil =>
    rw [takePlain, hrest]
    refine iff_of_false nofun fun ⟨s, hsettle, hnext⟩ => ?_
    rw [takePlain, (of_settle_eq_ok hsettle).2.2.1, hrest] at hnext
    contradiction
  | cons p rest =>
    have hbind : r.takePlain word = r.settle >>= (takePlain · word) := by
      cases hpending : r.pending with
      | none =>
        rw [settle_of_pending_eq_none hpending]
        rfl
      | some argument =>
        have hname : p.repeats = true → argument.name ≠ p.name := fun hrepeats =>
          (hnew argument hpending p (hrest ▸ List.mem_cons_self) hrepeats).symm
        rw [takePlain, hrest]
        dsimp only
        rw [hpending]
        cases hsettle : r.settle with
        | error usage =>
          cases hrepeats : p.repeats with
          | true => exact if_neg (hname hrepeats)
          | false => rfl
        | ok s =>
          obtain ⟨hspending, _, hsrest, _⟩ := of_settle_eq_ok hsettle
          refine Eq.trans ?_ (takePlain_of_pending_eq_none hspending (hsrest.trans hrest)).symm
          cases hrepeats : p.repeats with
          | true =>
            rw [if_pos rfl, ← hrest, ← hsrest]
            exact if_neg (hname hrepeats)
          | false => rfl
    rw [hbind, bind_eq_ok_iff]

/-! ## One word -/

/-- A plain word that no option waits for is an argument of its own. -/
theorem step_eq_takePlain {word : String} (hawaits : r.onlyPlain = true ∨ r.awaitsValue = false)
    (hplain : r.onlyPlain = true ∨ ArgumentWord.IsPlain word) :
    step options r word = r.takePlain word := by
  rw [step]
  split
  · rfl
  · rename_i honly
    rw [ArgumentWord.ofString_eq_of_looks (.plain (hplain.resolve_left honly))]
    dsimp only
    rw [takeWord, hawaits.resolve_left honly]

theorem step_of_long {word name : String} {attached : Option String}
    (hlooks : ArgumentWord.Looks word (.long name attached)) (honly : r.onlyPlain = false) :
    step options r word = r.takeLong options name attached := by
  rw [step, honly, ArgumentWord.ofString_eq_of_looks hlooks]
  rfl

theorem step_of_short {word : String} {letter : Char} {attached : Option String}
    (hlooks : ArgumentWord.Looks word (.short letter attached)) (honly : r.onlyPlain = false) :
    step options r word = r.takeShort options letter attached := by
  rw [step, honly, ArgumentWord.ofString_eq_of_looks hlooks]
  rfl

theorem step_doubleHyphen (honly : r.onlyPlain = false) :
    step options r "--" = .ok { r with onlyPlain := true } := by
  rw [step, honly, ArgumentWord.ofString_eq_of_looks .doubleHyphen]
  rfl

/-- Words that are neither plain nor a double hyphen are read behind the pending argument. -/
theorem step_eq_ok_iff {word : String} {next : ArgumentReading} (honly : r.onlyPlain = false)
    (hplain : ¬ ArgumentWord.IsPlain word) (hhyphens : word ≠ "--") :
    step options r word = .ok next ↔ ∃ s, r.settle = .ok s ∧ step options s word = .ok next := by
  obtain ⟨look, hlooks⟩ := ArgumentWord.exists_looks word
  have htake : ∃ take, SettlesFirst take ∧
      ∀ {t : ArgumentReading}, t.onlyPlain = false → step options t word = take t := by
    cases look with
    | doubleHyphen => cases hlooks; contradiction
    | plain => cases hlooks; contradiction
    | long => exact ⟨_, settlesFirst_takeLong options _ _, step_of_long hlooks⟩
    | short => exact ⟨_, settlesFirst_takeShort options _ _, step_of_short hlooks⟩
  obtain ⟨take, hfirst, htake⟩ := htake
  rw [htake honly, hfirst]
  refine exists_congr fun s => and_congr_right fun hsettle => ?_
  rw [htake ((of_settle_eq_ok hsettle).2.1.trans honly)]

/-- It makes no difference for the pending argument whether all words are plain from now on. -/
theorem settle_onlyPlain :
    ({ r with onlyPlain := true } : ArgumentReading).settle = .ok s ↔
      ∃ t, r.settle = .ok t ∧ s = { t with onlyPlain := true } := by
  cases hpending : r.pending with
  | none => simp [settle, hpending, eq_comm]
  | some argument =>
    simp only [settle, hpending, accept_eq_ok_iff]
    constructor
    · rintro ⟨values, hne, hnew, hvalues, rfl⟩
      exact ⟨_, ⟨values, hne, hnew, hvalues, rfl⟩, rfl⟩
    · rintro ⟨_, ⟨values, hne, hnew, hvalues, rfl⟩, rfl⟩
      exact ⟨values, hne, hnew, hvalues, rfl⟩

/-- The pending argument can be taken before the next words are read. -/
theorem finds_iff_of_settle (hawaits : r.onlyPlain = true ∨ r.awaitsValue = false)
    (hnew : ∀ argument, r.pending = some argument → ∀ p ∈ r.rest, p.repeats = true →
      p.name ≠ argument.name) :
    r.Finds options words m ↔ ∃ s, r.settle = .ok s ∧ s.Finds options words m := by
  induction words generalizing r with
  | nil =>
    simp only [finds_nil]
    constructor
    · rintro ⟨s, hsettle, hfound⟩
      exact ⟨s, hsettle, s, settle_settle hsettle, hfound⟩
    · rintro ⟨s, hsettle, _, hagain, hfound⟩
      cases (settle_settle hsettle).symm.trans hagain
      exact ⟨s, hsettle, hfound⟩
  | cons word words ih =>
    simp only [finds_cons]
    by_cases hhyphens : r.onlyPlain = false ∧ word = "--"
    · obtain ⟨honly, rfl⟩ := hhyphens
      have hread := ih (r := { r with onlyPlain := true }) (.inl rfl) hnew
      constructor
      · rintro ⟨next, hnext, hfinds⟩
        obtain rfl := Except.ok.inj (hnext.symm.trans (step_doubleHyphen honly))
        obtain ⟨_, htaken, hfinds⟩ := hread.1 hfinds
        obtain ⟨s, hsettle, rfl⟩ := settle_onlyPlain.1 htaken
        exact ⟨s, hsettle, _, step_doubleHyphen ((of_settle_eq_ok hsettle).2.1.trans honly), hfinds⟩
      · rintro ⟨s, hsettle, next, hnext, hfinds⟩
        have hsonly := (of_settle_eq_ok hsettle).2.1.trans honly
        obtain rfl := Except.ok.inj (hnext.symm.trans (step_doubleHyphen hsonly))
        exact ⟨_, step_doubleHyphen honly,
          hread.2 ⟨_, settle_onlyPlain.2 ⟨s, hsettle, rfl⟩, hfinds⟩⟩
    · have hfirst : ∀ next, step options r word = .ok next ↔
          ∃ s, r.settle = .ok s ∧ step options s word = .ok next := by
        intro next
        by_cases hplain : r.onlyPlain = true ∨ ArgumentWord.IsPlain word
        · rw [step_eq_takePlain hawaits hplain, takePlain_eq_ok_iff hnew]
          refine exists_congr fun s => and_congr_right fun hsettle => ?_
          obtain ⟨_, honly, _, hsawaits⟩ := of_settle_eq_ok hsettle
          rw [step_eq_takePlain (hawaits.imp honly.trans hsawaits) (hplain.imp_left honly.trans)]
        · rw [not_or, Bool.not_eq_true] at hplain
          exact step_eq_ok_iff hplain.1 hplain.2 fun hword => hhyphens ⟨hplain.1, hword⟩
      constructor
      · rintro ⟨next, hnext, hfinds⟩
        obtain ⟨s, hsettle, hstep⟩ := (hfirst next).1 hnext
        exact ⟨s, hsettle, next, hstep, hfinds⟩
      · rintro ⟨s, hsettle, next, hstep, hfinds⟩
        exact ⟨next, (hfirst next).2 ⟨s, hsettle, hstep⟩, hfinds⟩

end ArgumentReading
end ChainCoverage
