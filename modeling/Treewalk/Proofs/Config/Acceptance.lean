import Mathlib.Data.List.Basic
import Treewalk.Config

/-! # Which configurations are accepted

A configuration is made of entries exactly if their keys are known and each setting stands for
something; it then holds what is given, and defaults elsewhere. Entries that are not accepted are
reported by an error that says what is wrong with them, as long as their keys are texts. Unknown
keys are put in order and joined for the report, and that fails for keys of any other kind.
-/

namespace Treewalk

theorem Log.Severity.name_injective : Function.Injective Log.Severity.name := by
  intro level other h
  cases level <;> cases other <;> simp_all [name]

/-- Levels are called by names in upper case. -/
theorem Log.Severity.upper_name (level : Log.Severity) : Log.upper level.name = level.name := by
  cases level <;> decide +kernel

theorem OutputFormat.name_injective : Function.Injective OutputFormat.name := by
  intro format other h
  cases format <;> cases other <;> simp_all [name]

namespace Given

def upper : Given → Given
  | text s => text (Log.upper s)
  | given => given

def IsLevel (given : Given) : Prop :=
  ∃ s, given = .text s ∧ Log.upper s ∈ ["DEBUG", "INFO", "WARNING", "ERROR", "CRITICAL"]

def IsFormat (given : Given) : Prop := ∃ name ∈ ["text", "json", "yaml"], given = .text name

def IsTruthValue (given : Given) : Prop := ∃ b, given = .bool b

end Given

namespace Config

/-- The entries that set everything as a configuration has it. -/
def entries (config : Config) : List (Given × Given) :=
  [(.text "log_level", .text config.logLevel.name),
    (.text "output_format", .text config.outputFormat.name),
    (.text "echo_prints", .bool config.echoPrints)]

/-- Entries with known keys only, each of them set to something that it can be set to. -/
structure Acceptable (entries : List (Given × Given)) : Prop where
  keys : ∀ entry ∈ entries, ∃ key ∈ ["log_level", "output_format", "echo_prints"],
    entry.1 = .text key
  level : ∀ given, given? entries "log_level" = some given → given.IsLevel
  format : ∀ given, given? entries "output_format" = some given → given.IsFormat
  echo : ∀ given, given? entries "echo_prints" = some given → given.IsTruthValue

/-- A configuration that holds what is given, the level in upper case, and defaults elsewhere. -/
structure Reflects (config : Config) (entries : List (Given × Given)) : Prop where
  level : .text config.logLevel.name = ((given? entries "log_level").getD (.text "WARNING")).upper
  format : .text config.outputFormat.name = (given? entries "output_format").getD (.text "text")
  echo : .bool config.echoPrints = (given? entries "echo_prints").getD (.bool true)

end Config

/-- An error that says why entries are not acceptable: it lists all their unknown keys, or shows
what a setting cannot be set to. -/
def ConfigError.Explains (source : String) (entries : List (Given × Given)) : ConfigError → Prop
  | unknownKeys origin names => origin = source ∧ names ≠ [] ∧
      ∀ name, name ∈ names ↔ (∃ entry ∈ entries, entry.1 = .text name) ∧
        name ∉ ["log_level", "output_format", "echo_prints"]
  | invalidLevel origin given =>
      origin = source ∧ Config.given? entries "log_level" = some given ∧ ¬ given.IsLevel
  | invalidFormat origin given =>
      origin = source ∧ Config.given? entries "output_format" = some given ∧ ¬ given.IsFormat
  | invalidEcho origin => origin = source ∧
      ∃ given, Config.given? entries "echo_prints" = some given ∧ ¬ given.IsTruthValue
  | _ => False

namespace Config

variable {entries : List (Given × Given)} {source : String}

/-- Keys other than texts are never known. -/
theorem Acceptable.texts (h : Acceptable entries) :
    ∀ entry ∈ entries, ∃ s, entry.1 = .text s := by
  intro entry hentry
  obtain ⟨key, _, hkey⟩ := h.keys entry hentry
  exact ⟨key, hkey⟩

/-- What has an explanation is not acceptable. -/
theorem Acceptable.not_explains (h : Acceptable entries) (e : ConfigError) :
    ¬ e.Explains source entries := by
  intro he
  cases e with
  | unknownKeys origin names =>
      obtain ⟨_, hne, hnames⟩ := he
      obtain ⟨name, hname⟩ := List.exists_mem_of_ne_nil names hne
      obtain ⟨⟨entry, hentry, heq⟩, hunknown⟩ := (hnames name).mp hname
      obtain ⟨key, hkey, heq'⟩ := h.keys entry hentry
      rw [Given.text.inj (heq.symm.trans heq')] at hunknown
      exact hunknown hkey
  | invalidLevel origin given => exact he.2.2 (h.level given he.2.1)
  | invalidFormat origin given => exact he.2.2 (h.format given he.2.1)
  | invalidEcho origin =>
      obtain ⟨_, given, hgiven, hnot⟩ := he
      exact hnot (h.echo given hgiven)
  | invalidYaml path => exact he
  | notAMapping path => exact he

/-! ## Single settings -/

/-- Things that are told apart by their names are found by their names. -/
theorem find?_name_eq_some {α : Type} {name : α → String} (hinj : Function.Injective name)
    {all : List α} (hall : ∀ a, a ∈ all) {s : String} {a : α} :
    all.find? (name · == s) = some a ↔ name a = s := by
  constructor
  · intro h
    simpa using List.find?_some h
  · rintro rfl
    cases h : all.find? (name · == name a) with
    | none => exact absurd (List.find?_eq_none.mp h a (hall a)) (by simp)
    | some b =>
        have hname : name b = name a := by simpa using List.find?_some h
        rw [hinj hname]

/-- A level is set by its name, in whatever case. -/
theorem levelOf?_eq_some {given : Given} {level : Log.Severity} :
    levelOf? given = some level ↔ .text level.name = given.upper := by
  cases given with
  | text s =>
      have hall : ∀ level : Log.Severity, level ∈ levels := by
        intro level
        cases level <;> simp [levels]
      rw [levelOf?, find?_name_eq_some Log.Severity.name_injective hall]
      simp [Given.upper]
  | bool b => simp [levelOf?, Given.upper]
  | other literal => simp [levelOf?, Given.upper]

/-- A format is set by its name, in just this case. -/
theorem formatOf?_eq_some {given : Given} {format : OutputFormat} :
    formatOf? given = some format ↔ .text format.name = given := by
  cases given with
  | text s =>
      have hall : ∀ format : OutputFormat, format ∈ OutputFormat.all := by
        intro format
        cases format <;> simp [OutputFormat.all]
      rw [formatOf?, OutputFormat.ofName?, find?_name_eq_some OutputFormat.name_injective hall]
      simp
  | bool b => simp [formatOf?]
  | other literal => simp [formatOf?]

theorem echoOf?_eq_some {given : Given} {b : Bool} :
    echoOf? given = some b ↔ .bool b = given := by
  cases given <;> simp [echoOf?, eq_comm]

/-- Only what names no level is refused as a level. -/
theorem levelOf?_eq_none {given : Given} (h : levelOf? given = none) : ¬ given.IsLevel := by
  rintro ⟨s, rfl, hs⟩
  have hnone : ∀ level : Log.Severity, level.name ≠ Log.upper s := by
    intro level hlevel
    rw [levelOf?_eq_some.mpr (congrArg Given.text hlevel)] at h
    cases h
  simp only [List.mem_cons, List.not_mem_nil, or_false] at hs
  rcases hs with hs | hs | hs | hs | hs
  · exact hnone .debug hs.symm
  · exact hnone .info hs.symm
  · exact hnone .warning hs.symm
  · exact hnone .error hs.symm
  · exact hnone .critical hs.symm

/-- Only what names no format is refused as a format. -/
theorem formatOf?_eq_none {given : Given} (h : formatOf? given = none) : ¬ given.IsFormat := by
  rintro ⟨name, hname, rfl⟩
  simp only [List.mem_cons, List.not_mem_nil, or_false] at hname
  rcases hname with rfl | rfl | rfl <;> cases h

theorem echoOf?_eq_none {given : Given} (h : echoOf? given = none) : ¬ given.IsTruthValue := by
  rintro ⟨b, rfl⟩
  cases h

/-- A setting is read from what is given, or from what is usual; what cannot be read is given. -/
theorem setting_cases {α : Type} {default : α} {read? : Given → Option α} {usual : Given}
    (husual : read? usual = some default) (entries : List (Given × Given)) (key : String)
    (error : Given → ConfigError) :
    (∃ value, setting entries key default read? error = .ok value ∧
      read? ((given? entries key).getD usual) = some value) ∨
    ∃ given, setting entries key default read? error = .error (.invalid (error given)) ∧
      given? entries key = some given ∧ read? given = none := by
  unfold setting
  cases given? entries key with
  | none => exact .inl ⟨default, rfl, husual⟩
  | some given =>
      cases hread : read? given with
      | some value => exact .inl ⟨value, by simp only [hread], hread⟩
      | none => exact .inr ⟨given, by simp only [hread], rfl, hread⟩

/-! ## Keys -/

/-- Keys are texts, or one of them is none. -/
theorem allTexts_cases (given : List Given) :
    (∃ names, Given.allTexts given = some names ∧ given = names.map .text) ∨
      Given.allTexts given = none ∧ ∃ g ∈ given, ∀ s, g ≠ .text s := by
  induction given with
  | nil => exact .inl ⟨[], rfl, rfl⟩
  | cons first rest ih =>
      cases first with
      | text s =>
          rcases ih with ⟨names, hnames, rfl⟩ | ⟨hnone, g, hg, hother⟩
          · exact .inl ⟨s :: names, by simp [Given.allTexts, hnames], rfl⟩
          · exact .inr ⟨by simp [Given.allTexts, hnone], g, List.mem_cons_of_mem _ hg, hother⟩
      | bool b => exact .inr ⟨rfl, _, List.mem_cons_self, nofun⟩
      | other literal => exact .inr ⟨rfl, _, List.mem_cons_self, nofun⟩

/-- Keys are all known, or the unknown ones are reported, or there are keys that cannot be. -/
theorem checkKeys_cases (source : String) (entries : List (Given × Given)) :
    (checkKeys source (entries.map (·.1)) = .ok () ∧
      ∀ entry ∈ entries, ∃ key ∈ keys, entry.1 = .text key) ∨
    (∃ e, checkKeys source (entries.map (·.1)) = .error (.invalid e) ∧ e.Explains source entries ∧
      ∀ entry ∈ entries, ∃ s, entry.1 = .text s) ∨
    (checkKeys source (entries.map (·.1)) = .error .unkeyed ∧
      ∃ entry ∈ entries, ∀ s, entry.1 ≠ .text s) := by
  unfold checkKeys
  rcases allTexts_cases (entries.map (·.1)) with ⟨names, hnames, hall⟩ | ⟨hnone, g, hg, hother⟩
  · have hname : ∀ name, name ∈ names ↔ ∃ entry ∈ entries, entry.1 = .text name := by
      intro name
      rw [← List.mem_map_of_injective (f := Given.text) (fun _ _ => Given.text.inj), ← hall]
      exact List.mem_map
    have hentry : ∀ entry ∈ entries, ∃ name ∈ names, entry.1 = .text name := by
      intro entry hentry
      have hmem := List.mem_map_of_mem (f := (·.1)) hentry
      rw [hall] at hmem
      obtain ⟨name, hname, heq⟩ := List.mem_map.mp hmem
      exact ⟨name, hname, heq.symm⟩
    simp only [hnames]
    cases hunknown : (names.filter fun name => !keys.contains name).eraseDups with
    | nil =>
        refine .inl ⟨rfl, fun entry he => ?_⟩
        obtain ⟨name, hmem, heq⟩ := hentry entry he
        refine ⟨name, ?_, heq⟩
        by_contra hkey
        have hlisted : name ∈ (names.filter fun name => !keys.contains name).eraseDups := by
          simp [hmem, hkey]
        rw [hunknown] at hlisted
        cases hlisted
    | cons first rest =>
        refine .inr (.inl ⟨_, rfl, ⟨rfl, ?_, fun name => ?_⟩, fun entry he => ?_⟩)
        · rw [← List.length_pos_iff, List.length_mergeSort]
          exact Nat.succ_pos _
        · rw [List.mem_mergeSort, ← hunknown, List.mem_eraseDups, List.mem_filter, hname]
          simp [keys]
        · obtain ⟨name, _, heq⟩ := hentry entry he
          exact ⟨name, heq⟩
  · obtain ⟨entry, hentry, rfl⟩ := List.mem_map.mp hg
    exact .inr (.inr ⟨by rw [hnone], entry, hentry, hother⟩)

/-! ## Whole configurations -/

/-- A condition on what is given for a key is one on what is given or usual, if the usual meets
it. -/
theorem forall_given_iff {P : Given → Prop} {usual : Given} (husual : P usual)
    (entries : List (Given × Given)) (key : String) :
    (∀ given, given? entries key = some given → P given) ↔
      P ((given? entries key).getD usual) := by
  cases given? entries key <;> simp [husual]

theorem isLevel_of_name {level : Log.Severity} {given : Given}
    (h : .text level.name = given.upper) : given.IsLevel := by
  cases given with
  | text s =>
      refine ⟨s, rfl, ?_⟩
      rw [← Given.text.inj h]
      cases level <;> simp [Log.Severity.name]
  | bool b => cases h
  | other literal => cases h

theorem isFormat_of_name (format : OutputFormat) : (Given.text format.name).IsFormat :=
  ⟨format.name, by cases format <;> simp [OutputFormat.name], rfl⟩

/-- Entries that a configuration reflects are acceptable, if their keys are known. -/
theorem Reflects.acceptable {config : Config} (h : config.Reflects entries)
    (hkeys : ∀ entry ∈ entries, ∃ key ∈ keys, entry.1 = .text key) : Acceptable entries where
  keys := hkeys
  level := by
    have hwarning : (Given.text "WARNING").IsLevel :=
      isLevel_of_name (congrArg Given.text (Log.Severity.upper_name .warning).symm)
    exact (forall_given_iff hwarning _ _).mpr (isLevel_of_name h.level)
  format := by
    refine (forall_given_iff (isFormat_of_name .text) _ _).mpr ?_
    exact h.format ▸ isFormat_of_name config.outputFormat
  echo := (forall_given_iff ⟨true, rfl⟩ _ _).mpr ⟨_, h.echo.symm⟩

/-- Settings make a configuration that reflects them, or one of them is reported. -/
theorem ofSettings_cases (source : String) (entries : List (Given × Given)) :
    (∃ config : Config, ofSettings source entries = .ok config ∧ config.Reflects entries) ∨
      ∃ e, ofSettings source entries = .error (.invalid e) ∧ e.Explains source entries := by
  have hwarning : levelOf? (.text "WARNING") = some .warning :=
    levelOf?_eq_some.mpr (congrArg Given.text (Log.Severity.upper_name .warning).symm)
  have htext : formatOf? (.text "text") = some .text := formatOf?_eq_some.mpr rfl
  have htrue : echoOf? (.bool true) = some true := rfl
  unfold ofSettings
  rcases setting_cases hwarning entries "log_level" (.invalidLevel source) with
    ⟨level, hlevel, hread⟩ | ⟨given, herror, hgiven, hnone⟩
  · rcases setting_cases htext entries "output_format" (.invalidFormat source) with
      ⟨format, hformat, hread'⟩ | ⟨given, herror, hgiven, hnone⟩
    · rcases setting_cases htrue entries "echo_prints" (fun _ => .invalidEcho source) with
        ⟨b, hecho, hread''⟩ | ⟨given, herror, hgiven, hnone⟩
      · rw [hlevel, hformat, hecho]
        refine .inl ⟨⟨level, format, b⟩, rfl, ?_⟩
        exact ⟨levelOf?_eq_some.mp hread, formatOf?_eq_some.mp hread', echoOf?_eq_some.mp hread''⟩
      · rw [hlevel, hformat, herror]
        exact .inr ⟨_, rfl, rfl, given, hgiven, echoOf?_eq_none hnone⟩
    · rw [hlevel, herror]
      exact .inr ⟨_, rfl, rfl, hgiven, formatOf?_eq_none hnone⟩
  · rw [herror]
    exact .inr ⟨_, rfl, rfl, hgiven, levelOf?_eq_none hnone⟩

inductive Verdict (source : String) (entries : List (Given × Given)) :
    Except ConfigFailure Config → Prop where
  | accepted {config : Config} : Acceptable entries → config.Reflects entries →
      Verdict source entries (.ok config)
  | refused {e : ConfigError} : e.Explains source entries →
      (∀ entry ∈ entries, ∃ s, entry.1 = .text s) → Verdict source entries (.error (.invalid e))
  | unkeyed : (∃ entry ∈ entries, ∀ s, entry.1 ≠ .text s) →
      Verdict source entries (.error .unkeyed)

/-- Entries are judged by their keys first: a key that is no text ends it, then unknown keys are
listed, and only then settings are looked at. -/
theorem ofEntries_verdict (source : String) (entries : List (Given × Given)) :
    Verdict source entries (ofEntries source entries) := by
  unfold ofEntries
  rcases checkKeys_cases source entries with
    ⟨hcheck, hkeys⟩ | ⟨e, hcheck, he, htexts⟩ | ⟨hcheck, hother⟩
  · rw [hcheck]
    rcases ofSettings_cases source entries with ⟨config, hok, hreflects⟩ | ⟨e, herror, he⟩
    · rw [hok]
      exact .accepted (hreflects.acceptable hkeys) hreflects
    · rw [herror]
      refine .refused he fun entry hentry => ?_
      obtain ⟨key, _, hkey⟩ := hkeys entry hentry
      exact ⟨key, hkey⟩
  · rw [hcheck]
    exact .refused he htexts
  · rw [hcheck]
    exact .unkeyed hother

/-- A configuration reflects the entries that it is written as. -/
theorem reflects_entries (config : Config) : config.Reflects config.entries where
  level := congrArg Given.text config.logLevel.upper_name.symm
  format := rfl
  echo := rfl

/-- Only one configuration reflects some entries. -/
theorem Reflects.unique {config other : Config} (h : config.Reflects entries)
    (h' : other.Reflects entries) : config = other := by
  have hlevel := Log.Severity.name_injective (Given.text.inj (h.level.trans h'.level.symm))
  have hformat := OutputFormat.name_injective (Given.text.inj (h.format.trans h'.format.symm))
  have hecho := Given.bool.inj (h.echo.trans h'.echo.symm)
  cases config
  cases other
  simp_all

theorem not_unkeyed (htexts : ∀ entry ∈ entries, ∃ s, entry.1 = .text s) :
    ¬ ∃ entry ∈ entries, ∀ s, entry.1 ≠ .text s := by
  rintro ⟨entry, hentry, hother⟩
  obtain ⟨s, hs⟩ := htexts entry hentry
  exact hother s hs

/-- What a configuration holds leads back to it. -/
theorem ofEntries_entries (source : String) (config : Config) :
    ofEntries source config.entries = .ok config := by
  have hacceptable : Acceptable config.entries := by
    refine config.reflects_entries.acceptable fun entry hentry => ?_
    simp only [entries, List.mem_cons, List.not_mem_nil, or_false] at hentry
    rcases hentry with rfl | rfl | rfl
    · exact ⟨"log_level", by simp [keys], rfl⟩
    · exact ⟨"output_format", by simp [keys], rfl⟩
    · exact ⟨"echo_prints", by simp [keys], rfl⟩
  have hverdict := ofEntries_verdict source config.entries
  generalize ofEntries source config.entries = result at hverdict ⊢
  cases hverdict with
  | accepted _ hreflects => rw [hreflects.unique config.reflects_entries]
  | refused he _ => exact absurd he (hacceptable.not_explains _)
  | unkeyed hother => exact absurd hother (not_unkeyed hacceptable.texts)

/-- Entries are made a configuration exactly if they are acceptable, and it then holds what is
given, and defaults elsewhere; what it holds leads back to it. Entries that are not acceptable are
reported, by an error that explains why, exactly if all their keys are texts. If some key is none,
nothing is reported, whatever else is given. -/
theorem ofEntries_accepts_iff (source : String) (entries : List (Given × Given)) :
    ((∃ config, ofEntries source entries = .ok config) ↔ Acceptable entries) ∧
    (∀ config, ofEntries source entries = .ok config →
      config.Reflects entries ∧ ∀ other, ofEntries other config.entries = .ok config) ∧
    ((∃ e, ofEntries source entries = .error (.invalid e) ∧ e.Explains source entries) ↔
      ¬ Acceptable entries ∧ ∀ entry ∈ entries, ∃ s, entry.1 = .text s) ∧
    (ofEntries source entries = .error .unkeyed ↔ ∃ entry ∈ entries, ∀ s, entry.1 ≠ .text s) := by
  have hverdict := ofEntries_verdict source entries
  generalize ofEntries source entries = result at hverdict ⊢
  cases hverdict with
  | accepted hacceptable hreflects =>
      refine ⟨⟨fun _ => hacceptable, fun _ => ⟨_, rfl⟩⟩, ?_, ⟨nofun, ?_⟩, nofun, ?_⟩
      · rintro config ⟨⟩
        exact ⟨hreflects, fun other => ofEntries_entries other _⟩
      · exact fun h => absurd hacceptable h.1
      · exact fun h => absurd h (not_unkeyed hacceptable.texts)
  | refused he htexts =>
      have hnot : ¬ Acceptable entries := fun h => h.not_explains _ he
      refine ⟨⟨nofun, fun h => absurd h hnot⟩, nofun, ⟨fun _ => ⟨hnot, htexts⟩, ?_⟩, nofun, ?_⟩
      · exact fun _ => ⟨_, rfl, he⟩
      · exact fun h => absurd h (not_unkeyed htexts)
  | unkeyed hother =>
      refine ⟨⟨nofun, ?_⟩, nofun, ⟨nofun, ?_⟩, fun _ => hother, fun _ => rfl⟩
      · exact fun h => absurd hother (not_unkeyed h.texts)
      · exact fun h => absurd hother (not_unkeyed h.2)

/-- A number as a key is not acceptable, but no error of the configuration says so. -/
theorem numberKey_not_reported :
    ¬ Acceptable [(.other "1", .text "x")] ∧
      ofEntries "c.yaml" [(.other "1", .text "x")] = .error .unkeyed ∧
      ofYaml "c.yaml" "1: x\n" = .error .unkeyed := by
  refine ⟨fun h => ?_, rfl, ?_⟩
  · obtain ⟨s, hs⟩ := h.texts _ List.mem_cons_self
    cases hs
  · have hread : Yaml.read? "1: x\n" = some (.dict [(.int 1, .text "x")]) := rfl
    rw [ofYaml, hread]
    rfl

end Config

end Treewalk
