import ChainCoverage.Main
import Mathlib.Data.List.Perm.Basic

/-!
# The settings of two programs

What a program loads depends on the variables for its own settings only, whatever their
order and the case of their names.  Four settings stand in both programs, each time with
a default of its own.  These defaults agree, so when the service loads its settings, the
command line loads the same values, opens the same ledger and measures with the same
defaults.

Main definitions:

- `Environment.Gives` and `Environment.Refuses`: the value of a setting, and why it has none.
- `Environment.AgreesOn`: environments with the same variables for some settings.
- `CommandSettings.GivenBy` and `ServiceSettings.GivenBy`: the settings that an environment gives.
- `ServiceSettings.OwnFault`: what can be wrong with the settings of the service alone.

Main results:

- `Environment.setting_eq_ok_iff` and `Environment.refuses_of_setting_eq_error`: reading one
  setting.
- `CommandSettings.load_eq_ok_iff` and `ServiceSettings.load_eq_ok_iff`: what is loaded.
- `ServiceSettings.GivenBy.command`: what the service is given, the command line is given as well.
- `ServiceSettings.load_agrees`: both programs on one environment.
-/

namespace ChainCoverage

/-! ## One setting -/

namespace Environment

/-- The value that an environment gives a setting: that of its one variable, or the default when
there is no variable. -/
inductive Gives {α : Type} (env : Environment) (name : String) (parse : String → Option α)
    (default : α) : α → Prop where
  | default (hvalues : env.valuesOf name = []) : Gives env name parse default default
  | value {text : String} {value : α} (hvalues : env.valuesOf name = [text])
      (hparse : parse text = some value) : Gives env name parse default value

/-- Why an environment gives a setting no value. -/
inductive Refuses {α : Type} (env : Environment) (name : String) (parse : String → Option α) :
    SettingsError → Prop where
  | unreadable {text : String} (hvalues : env.valuesOf name = [text])
      (hparse : parse text = none) : Refuses env name parse (.unreadable name)
  | repeated (htwo : 2 ≤ (env.valuesOf name).length) : Refuses env name parse (.repeated name)

section Setting

variable {α : Type} (env : Environment) (name : String) (parse : String → Option α) (default : α)

/-- A setting is given a value or refused. -/
theorem setting_cases :
    (∃ value, env.setting name parse default = .ok value ∧ env.Gives name parse default value) ∨
      ∃ reason, env.setting name parse default = .error reason ∧ env.Refuses name parse reason := by
  unfold setting
  cases hvalues : env.valuesOf name with
  | nil => exact .inl ⟨default, rfl, .default hvalues⟩
  | cons text rest =>
    cases rest with
    | nil =>
      dsimp only
      cases hparse : parse text with
      | none => exact .inr ⟨_, rfl, .unreadable hvalues hparse⟩
      | some value => exact .inl ⟨value, rfl, .value hvalues hparse⟩
    | cons other rest =>
      refine .inr ⟨_, rfl, .repeated ?_⟩
      simp [hvalues]

variable {env name parse default}

/-- A setting that is given a value is not refused. -/
theorem Gives.not_refuses {value : α} (h : env.Gives name parse default value)
    (reason : SettingsError) : ¬ env.Refuses name parse reason := by
  intro hrefuses
  cases h with
  | default hvalues =>
    cases hrefuses with
    | unreadable hother => simp [hvalues] at hother
    | repeated htwo => simp [hvalues] at htwo
  | value hvalues hparse =>
    cases hrefuses with
    | unreadable hother hnone =>
      obtain rfl := List.singleton_inj.1 (hvalues.symm.trans hother)
      simp [hparse] at hnone
    | repeated htwo => simp [hvalues] at htwo

/-- A setting is given one value. -/
theorem Gives.unique {value other : α} (h : env.Gives name parse default value)
    (hother : env.Gives name parse default other) : value = other := by
  cases h with
  | default hvalues =>
    cases hother with
    | default => rfl
    | value hvalues' => simp [hvalues] at hvalues'
  | value hvalues hparse =>
    cases hother with
    | default hvalues' => simp [hvalues] at hvalues'
    | value hvalues' hparse' =>
      obtain rfl := List.singleton_inj.1 (hvalues.symm.trans hvalues')
      exact Option.some.inj (hparse.symm.trans hparse')

theorem setting_eq_ok_iff {value : α} :
    env.setting name parse default = .ok value ↔ env.Gives name parse default value := by
  rcases env.setting_cases name parse default with ⟨given, heq, hgives⟩ | ⟨reason, heq, hrefuses⟩
  · rw [heq]
    refine ⟨fun h => Except.ok.inj h ▸ hgives, fun h => congrArg Except.ok (hgives.unique h)⟩
  · rw [heq]
    exact iff_of_false nofun fun hgives => hgives.not_refuses reason hrefuses

/-- What is refused is refused for the reason told. -/
theorem refuses_of_setting_eq_error {reason : SettingsError}
    (h : env.setting name parse default = .error reason) : env.Refuses name parse reason := by
  rcases env.setting_cases name parse default with ⟨given, heq, -⟩ | ⟨told, heq, hrefuses⟩
  · rw [heq] at h
    contradiction
  · rw [heq] at h
    exact Except.error.inj h ▸ hrefuses

/-- The values of a setting count, not their order. -/
theorem setting_congr {other : Environment} (h : (env.valuesOf name).Perm (other.valuesOf name)) :
    env.setting name parse default = other.setting name parse default := by
  unfold setting
  cases hvalues : env.valuesOf name with
  | nil =>
    rw [hvalues, List.nil_perm] at h
    rw [h]
  | cons text rest =>
    cases rest with
    | nil =>
      rw [hvalues, List.singleton_perm] at h
      rw [← h]
    | cons second rest =>
      -- Both lists have two values at least, and nothing more is asked of them.
      have hlength := h.length_eq
      rw [hvalues] at hlength
      match hother : other.valuesOf name with
      | [] => simp [hother] at hlength
      | [_] => simp [hother] at hlength
      | _ :: _ :: _ => rfl

end Setting

/-! ## Environments that agree -/

/-- The variables for some settings, with their names as they are compared. -/
def variablesFor (env : Environment) (names : List String) : List (String × String) :=
  (env.entries.map fun entry => (foldName entry.1, entry.2)).filter (·.1 ∈ names)

/-- Whether two environments have the same home directory and, in whatever order, the same variables
for some settings. -/
def AgreesOn (env other : Environment) (names : List String) : Prop :=
  env.home = other.home ∧ (env.variablesFor names).Perm (other.variablesFor names)

/-- The values of a setting are among the variables for it and others. -/
theorem valuesOf_eq_variablesFor (env : Environment) {names : List String} {name : String}
    (hname : name ∈ names) :
    env.valuesOf name = ((env.variablesFor names).filter (·.1 == name)).map (·.2) := by
  unfold valuesOf variablesFor
  rw [List.filter_filter, List.filter_map, List.map_map]
  congr 1
  apply List.filter_congr
  intro entry _
  by_cases hentry : foldName entry.1 = name
  · simp [hentry, hname]
  · simp [hentry]

namespace AgreesOn

variable {env other : Environment} {names : List String} (h : env.AgreesOn other names)
include h

theorem valuesOf_perm {name : String} (hname : name ∈ names) :
    (env.valuesOf name).Perm (other.valuesOf name) := by
  rw [env.valuesOf_eq_variablesFor hname, other.valuesOf_eq_variablesFor hname]
  exact (h.2.filter _).map _

theorem setting_eq {α : Type} {name : String} (hname : name ∈ names) (parse : String → Option α)
    (default : α) : env.setting name parse default = other.setting name parse default :=
  setting_congr (h.valuesOf_perm hname)

end AgreesOn
end Environment

/-! ## The settings of the command line -/

namespace CommandSettings

/-- The settings that an environment gives the command line. -/
structure GivenBy (c : CommandSettings) (env : Environment) : Prop where
  verbosity : env.Gives "rust_log" Verbosity.parse? (.upTo .info) c.verbosity
  root : env.Gives "coverage_db_root" some (joinPath env.home ".block-coverage") c.root
  bucketCount : env.Gives "default_bucket_count" Unsigned.halfWord? 120 c.bucketCount
  pageSize : env.Gives "page_size" Environment.readSize? 1000 c.pageSize

/-- The settings of the command line are loaded when each is given a value. -/
theorem load_eq_ok_iff {env : Environment} {c : CommandSettings} :
    load env = .ok c ↔ c.GivenBy env := by
  unfold load
  simp only [bind_eq_ok_iff, Environment.setting_eq_ok_iff]
  constructor
  · rintro ⟨verbosity, hverbosity, root, hroot, bucketCount, hbucketCount, pageSize, hpageSize,
      hload⟩
    obtain rfl := Except.ok.inj hload
    exact ⟨hverbosity, hroot, hbucketCount, hpageSize⟩
  · rintro ⟨hverbosity, hroot, hbucketCount, hpageSize⟩
    exact ⟨_, hverbosity, _, hroot, _, hbucketCount, _, hpageSize, rfl⟩

/-- The settings of the command line come from the variables that it looks up. -/
theorem load_congr {env other : Environment} (h : env.AgreesOn other Program.variableNames) :
    load env = load other := by
  unfold load defaultRoot
  rw [h.1, h.setting_eq (by decide), h.setting_eq (by decide), h.setting_eq (by decide),
    h.setting_eq (by decide)]

end CommandSettings

/-! ## The settings of the service -/

namespace ServiceSettings

/-- The variables for the settings of the service. -/
def variableNames : List String :=
  ["rust_log", "coverage_db_root", "bind_address", "default_bucket_count", "page_size",
    "max_workers", "max_buckets"]

/-- The variables for settings that only the service has. -/
def ownNames : List String :=
  ["bind_address", "max_workers", "max_buckets"]

/-- The settings that an environment gives the service. -/
structure GivenBy (s : ServiceSettings) (env : Environment) : Prop where
  verbosity : env.Gives "rust_log" Verbosity.parse? (.upTo .info) s.verbosity
  root : env.Gives "coverage_db_root" some (joinPath env.home ".block-coverage") s.root
  bindAddress : env.Gives "bind_address" some "0.0.0.0:8080" s.bindAddress
  bucketCount : env.Gives "default_bucket_count" Unsigned.halfWord? 120 s.bucketCount
  pageSize : env.Gives "page_size" Environment.readSize? 1000 s.pageSize
  maxWorkers : env.Gives "max_workers" Unsigned.halfWord? 64 s.maxWorkers
  maxBuckets : env.Gives "max_buckets" Unsigned.halfWord? 1000 s.maxBuckets

/-- The settings of the service are loaded when each is given a value. -/
theorem load_eq_ok_iff {env : Environment} {s : ServiceSettings} :
    load env = .ok s ↔ s.GivenBy env := by
  unfold load
  simp only [bind_eq_ok_iff, Environment.setting_eq_ok_iff]
  constructor
  · rintro ⟨verbosity, hverbosity, root, hroot, bindAddress, hbindAddress, bucketCount,
      hbucketCount, pageSize, hpageSize, maxWorkers, hmaxWorkers, maxBuckets, hmaxBuckets, hload⟩
    obtain rfl := Except.ok.inj hload
    exact ⟨hverbosity, hroot, hbindAddress, hbucketCount, hpageSize, hmaxWorkers, hmaxBuckets⟩
  · rintro ⟨hverbosity, hroot, hbindAddress, hbucketCount, hpageSize, hmaxWorkers, hmaxBuckets⟩
    exact ⟨_, hverbosity, _, hroot, _, hbindAddress, _, hbucketCount, _, hpageSize, _, hmaxWorkers,
      _, hmaxBuckets, rfl⟩

/-- The settings of the service come from its variables. -/
theorem load_congr {env other : Environment} (h : env.AgreesOn other variableNames) :
    load env = load other := by
  unfold load defaultRoot
  rw [h.1, h.setting_eq (by decide), h.setting_eq (by decide), h.setting_eq (by decide),
    h.setting_eq (by decide), h.setting_eq (by decide), h.setting_eq (by decide),
    h.setting_eq (by decide)]

/-- What the service is given, the command line is given as well: the defaults of the two are the
same. -/
theorem GivenBy.command {env : Environment} {s : ServiceSettings} (h : s.GivenBy env) :
    CommandSettings.GivenBy ⟨s.verbosity, s.root, s.bucketCount, s.pageSize⟩ env :=
  ⟨h.verbosity, h.root, h.bucketCount, h.pageSize⟩

/-- What can be wrong with the settings that only the service has: a limit that does not parse, or
two variables for one setting. -/
inductive OwnFault (env : Environment) : SettingsError → Prop where
  | unreadable {name text : String} (hname : name ∈ ["max_workers", "max_buckets"])
      (hvalues : env.valuesOf name = [text]) (hparse : Unsigned.halfWord? text = none) :
      OwnFault env (.unreadable name)
  | repeated {name : String} (hname : name ∈ ownNames) (htwo : 2 ≤ (env.valuesOf name).length) :
      OwnFault env (.repeated name)

/-- A limit that is refused is at fault. -/
theorem OwnFault.of_refuses_limit {env : Environment} {name : String} {reason : SettingsError}
    (hname : name ∈ ["max_workers", "max_buckets"])
    (h : env.Refuses name Unsigned.halfWord? reason) : OwnFault env reason := by
  cases h with
  | unreadable hvalues hparse => exact .unreadable hname hvalues hparse
  | repeated htwo => exact .repeated (List.mem_cons_of_mem _ hname) htwo

/-- An address that is refused is at fault. -/
theorem OwnFault.of_refuses_address {env : Environment} {reason : SettingsError}
    (h : env.Refuses "bind_address" some reason) : OwnFault env reason := by
  cases h with
  | unreadable hvalues hparse => contradiction
  | repeated htwo => exact .repeated List.mem_cons_self htwo

/-- When the command line loads, only a fault of its own keeps the service from loading. -/
theorem ownFault_of_load_eq_error {env : Environment} {c : CommandSettings}
    {reason : SettingsError} (hcommand : CommandSettings.load env = .ok c)
    (h : load env = .error reason) : OwnFault env reason := by
  obtain ⟨hverbosity, hroot, hbucketCount, hpageSize⟩ := CommandSettings.load_eq_ok_iff.1 hcommand
  unfold load at h
  simp only [bind_eq_error_iff] at h
  -- The settings of the two programs take turns.
  rcases h with
    h | ⟨_, -, h | ⟨_, -, h | ⟨_, -, h | ⟨_, -, h | ⟨_, -, h | ⟨_, -, h | ⟨_, -, h⟩⟩⟩⟩⟩⟩⟩
  · exact absurd (Environment.refuses_of_setting_eq_error h) (hverbosity.not_refuses _)
  · exact absurd (Environment.refuses_of_setting_eq_error h) (hroot.not_refuses _)
  · exact .of_refuses_address (Environment.refuses_of_setting_eq_error h)
  · exact absurd (Environment.refuses_of_setting_eq_error h) (hbucketCount.not_refuses _)
  · exact absurd (Environment.refuses_of_setting_eq_error h) (hpageSize.not_refuses _)
  · exact .of_refuses_limit (by decide) (Environment.refuses_of_setting_eq_error h)
  · exact .of_refuses_limit (by decide) (Environment.refuses_of_setting_eq_error h)
  · contradiction

/-- A fault of its own keeps the service from loading. -/
theorem load_ne_ok_of_ownFault {env : Environment} {reason : SettingsError}
    (hfault : OwnFault env reason) (s : ServiceSettings) : load env ≠ .ok s := by
  intro hload
  obtain ⟨-, -, hbindAddress, -, -, hmaxWorkers, hmaxBuckets⟩ := load_eq_ok_iff.1 hload
  cases hfault with
  | unreadable hname hvalues hparse =>
    simp only [List.mem_cons, List.not_mem_nil, or_false] at hname
    rcases hname with rfl | rfl
    · exact hmaxWorkers.not_refuses _ (.unreadable hvalues hparse)
    · exact hmaxBuckets.not_refuses _ (.unreadable hvalues hparse)
  | repeated hname htwo =>
    simp only [ownNames, List.mem_cons, List.not_mem_nil, or_false] at hname
    rcases hname with rfl | rfl | rfl
    · exact hbindAddress.not_refuses _ (.repeated htwo)
    · exact hmaxWorkers.not_refuses _ (.repeated htwo)
    · exact hmaxBuckets.not_refuses _ (.repeated htwo)

/-! ## Both programs -/

/-- Each program loads the settings that it is given, and they come from the variables for them
alone, in whatever order and case.  When the service loads, so does the command line, with the same
values for the settings that both have: it opens the same ledger and measures with the same
defaults.  When the command line loads, the service loads unless a limit of its own does not parse
or a setting of its own has two variables. -/
theorem load_agrees (env : Environment) :
    (∀ c, CommandSettings.load env = .ok c ↔ c.GivenBy env) ∧
    (∀ s, load env = .ok s ↔ s.GivenBy env) ∧
    (∀ other, env.AgreesOn other Program.variableNames →
      CommandSettings.load env = CommandSettings.load other) ∧
    (∀ other, env.AgreesOn other variableNames → load env = load other) ∧
    (∀ s, load env = .ok s → ∃ c, CommandSettings.load env = .ok c ∧
      c.verbosity = s.verbosity ∧ c.root = s.root ∧ c.bucketCount = s.bucketCount ∧
      c.pageSize = s.pageSize ∧ c.ledgerPath = s.ledgerPath ∧ s.ledgerPath = joinPath s.root "db" ∧
      ∀ estimate, Command.Context.ofSettings c estimate = ⟨s.bucketCount, s.pageSize, estimate⟩) ∧
    ∀ c, CommandSettings.load env = .ok c →
      (∀ reason, load env = .error reason → OwnFault env reason) ∧
      ∀ reason, OwnFault env reason → ∀ s, load env ≠ .ok s := by
  refine ⟨fun c => CommandSettings.load_eq_ok_iff, fun s => load_eq_ok_iff,
    fun other => CommandSettings.load_congr, fun other => load_congr, fun s hload => ?_,
    fun c hcommand => ?_⟩
  · have hcommand := CommandSettings.load_eq_ok_iff.2 (load_eq_ok_iff.1 hload).command
    exact ⟨_, hcommand, rfl, rfl, rfl, rfl, rfl, rfl, fun _ => rfl⟩
  · exact ⟨fun reason => ownFault_of_load_eq_error hcommand,
      fun reason => load_ne_ok_of_ownFault⟩

/-- Two environments that differ in order, case and other variables load the same; with a signed
limit on top, the command line still loads and the service does not. -/
theorem load_agrees_signed_limit :
    let env : Environment :=
      ⟨[("Page_Size", "7"), ("MAX_BUCKETS", "+9"), ("coverage_db_root", "/data/")], "/home/me"⟩
    let other : Environment :=
      ⟨[("PATH", "/bin"), ("COVERAGE_DB_ROOT", "/data/"), ("page_size", "7"),
        ("max_buckets", "+9")], "/home/me"⟩
    let signed : Environment := ⟨("Max_Workers", "-1") :: env.entries, env.home⟩
    env.AgreesOn other Program.variableNames ∧ env.AgreesOn other variableNames ∧
      load env = .ok ⟨.upTo .info, "/data/", "0.0.0.0:8080", 120, 7, 64, 9⟩ ∧
      load signed = .error (.unreadable "max_workers") ∧
      CommandSettings.load signed = .ok ⟨.upTo .info, "/data/", 120, 7⟩ ∧
      CommandSettings.load env = CommandSettings.load other ∧ load env = load other ∧
      (∃ c, CommandSettings.load env = .ok c ∧ c.bucketCount = 120 ∧ c.pageSize = 7 ∧
        c.ledgerPath = "/data/db") ∧
      OwnFault signed (.unreadable "max_workers") ∧ ∀ s, load signed ≠ .ok s := by
  intro env other signed
  have hcommand : env.AgreesOn other Program.variableNames := ⟨rfl, by decide⟩
  have hservice : env.AgreesOn other variableNames := ⟨rfl, by decide⟩
  have hload : load env = .ok ⟨.upTo .info, "/data/", "0.0.0.0:8080", 120, 7, 64, 9⟩ := by decide
  have hsigned : load signed = .error (.unreadable "max_workers") := by decide
  have hok : CommandSettings.load signed = .ok ⟨.upTo .info, "/data/", 120, 7⟩ := by decide
  obtain ⟨-, -, hsame, hsame', hcommon, -⟩ := load_agrees env
  obtain ⟨-, -, -, -, -, hown⟩ := load_agrees signed
  obtain ⟨hfault, hfails⟩ := hown _ hok
  obtain ⟨c, hc, -, -, hbuckets, hpage, hpath, hdb, -⟩ := hcommon _ hload
  have hpath' : c.ledgerPath = "/data/db" := (hpath.trans hdb).trans (by decide)
  exact ⟨hcommand, hservice, hload, hsigned, hok, hsame _ hcommand, hsame' _ hservice,
    ⟨c, hc, hbuckets, hpage, hpath'⟩, hfault _ hsigned, hfails _ (hfault _ hsigned)⟩

end ServiceSettings
end ChainCoverage
