import Mathlib
import Vitals.Settings.Basic

/-!
# Which source a setting comes from

A setting may be given by four origins : the command line, the environment, a file, and what
holds unless it is said. The layer of an origin gives a setting exactly if some entry of the
origin sets it, and then as one of these entries has it (`Layer.Picked`), and it depends on no
other entries (`Layer.ofEntries_congr`). `Settings.load` reads the settings out of a layer that
has each of them from the highest origin that sets it (`Sources.highest_whole`), so nothing that
is said below counts, be it well formed or not.
-/

namespace Vitals

/-! ## What entries set -/

namespace Layer

/-- An entry sets the key to the value. -/
def Entered (entries : List (String × Given)) (key : Key) (value : Given) : Prop :=
  ∃ entry ∈ entries, target entry.1 entry.2 = some (key, value)

/-- What is found for a key is a value that is set for it, if there is one. -/
structure Picked (found : Option Given) (sets : Given → Prop) : Prop where
  sound {value : Given} (h : found = some value) : sets value
  silent (h : found = none) (value : Given) : ¬sets value

theorem picked_self (found : Option Given) : Picked found fun value => found = some value where
  sound h := h
  silent h value hset := by simp [h] at hset

/-! ### Entries one after another -/

variable {entries : List (String × Given)} {entry : String × Given} {key : Key}
  {value : Given}

theorem ofEntries_snoc (h : target entry.1 entry.2 = some (key, value)) :
    ofEntries (entries ++ [entry]) key = some value := by
  simp [ofEntries, h, put]

theorem ofEntries_snoc_of_ne (h : ∀ value, target entry.1 entry.2 ≠ some (key, value)) :
    ofEntries (entries ++ [entry]) key = ofEntries entries key := by
  cases htarget : target entry.1 entry.2 with
  | none => simp [ofEntries, htarget]
  | some set =>
    have hkey : key ≠ set.1 := by
      rintro rfl
      exact h set.2 htarget
    simp [ofEntries, htarget, put, hkey]

theorem entered_snoc : Entered (entries ++ [entry]) key value ↔
    Entered entries key value ∨ target entry.1 entry.2 = some (key, value) := by
  simp [Entered, or_and_right, exists_or]

/-- Entries give what they set. -/
theorem picked_ofEntries (entries : List (String × Given)) (key : Key) :
    Picked (ofEntries entries key) (Entered entries key) := by
  induction entries using List.reverseRecOn with
  | nil => exact ⟨nofun, fun _ _ => nofun⟩
  | append_singleton entries entry ih =>
    by_cases htarget : ∃ value, target entry.1 entry.2 = some (key, value)
    · obtain ⟨value, htarget⟩ := htarget
      rw [ofEntries_snoc htarget]
      refine ⟨fun hfound => entered_snoc.2 (Or.inr ?_), nofun⟩
      rw [htarget, Option.some.inj hfound]
    · rw [not_exists] at htarget
      rw [ofEntries_snoc_of_ne htarget]
      exact ⟨fun hfound => entered_snoc.2 (Or.inl (ih.sound hfound)), fun hfound value hset =>
        (entered_snoc.1 hset).elim (ih.silent hfound value) (htarget value)⟩

/-! ### One layer upon another -/

theorem upon_of_none {upper : Layer} {key : Key} (h : upper key = none) (lower : Layer) :
    upper.upon lower key = lower key := by
  simp [upon, h]

theorem upon_of_some {upper : Layer} {key : Key} {value : Given} (h : upper key = some value)
    (lower : Layer) : upper.upon lower key = some value := by
  simp [upon, h]

/-- Where the upper layer gives a value the lower one does not count. -/
theorem upon_congr {upper lower upper' lower' : Layer} {key : Key}
    (hupper : upper' key = upper key) (hlower : upper key = none → lower' key = lower key) :
    upper'.upon lower' key = upper.upon lower key := by
  cases hvalue : upper key with
  | none => rw [upon_of_none hvalue, upon_of_none (hupper.trans hvalue), hlower hvalue]
  | some value => rw [upon_of_some hvalue, upon_of_some (hupper.trans hvalue)]

/-! ### Names -/

theorem target_name (key : Key) (value : Given) : target key.name value = some (key, value) := by
  cases key <;> rfl

theorem entryName?_eq {name : String} {key : Key} (h : name.toLower = "statswatch_" ++ key.name) :
    entryName? name = some key.name := by
  have hstart : (variableStart ++ "_").toLower = "statswatch_" := by decide +kernel
  rw [entryName?, hstart, h, String.toList_append]
  simp

/-! ### Entries of one key -/

/-- The entry sets the key. -/
def concerns (key : Key) (entry : String × Given) : Bool :=
  (target entry.1 entry.2).any (·.1 == key)

theorem concerns_iff :
    concerns key entry ↔ ∃ value, target entry.1 entry.2 = some (key, value) := by
  cases htarget : target entry.1 entry.2 with
  | none => simp [concerns, htarget]
  | some set => simp [concerns, htarget, Prod.ext_iff]

/-- What is given for a key depends on the entries that set the key alone. -/
theorem ofEntries_filter (entries : List (String × Given)) (key : Key) :
    ofEntries (entries.filter (concerns key)) key = ofEntries entries key := by
  induction entries using List.reverseRecOn with
  | nil => rfl
  | append_singleton entries entry ih =>
    by_cases hconcerns : concerns key entry
    · obtain ⟨value, htarget⟩ := concerns_iff.1 hconcerns
      simp [List.filter_append, hconcerns, ofEntries_snoc htarget]
    · have htarget := not_exists.1 (mt concerns_iff.2 hconcerns)
      simp [List.filter_append, hconcerns, ofEntries_snoc_of_ne htarget, ih]

theorem ofEntries_congr {entries entries' : List (String × Given)} {key : Key}
    (h : entries.filter (concerns key) = entries'.filter (concerns key)) :
    ofEntries entries key = ofEntries entries' key := by
  rw [← ofEntries_filter entries, h, ofEntries_filter]

end Layer

/-! ## Where a setting comes from -/

/-- Where a setting may come from. -/
inductive Origin where
  | overrides | environment | file | builtIn

/-- The origins, the highest one first. -/
def Origin.ranking : List Origin := [overrides, environment, file, builtIn]

/-- What is found for a key is the value of the first origin that has one. -/
def Highest (has : Origin → Key → Given → Prop) (key : Key) : List Origin → Option Given → Prop
  | [], found => found = none
  | origin :: others, found => (∃ value, found = some value ∧ has origin key value) ∨
      (∀ value, ¬has origin key value) ∧ Highest has key others found

/-- What the settings are read out of. -/
structure Sources where
  /-- What was said on the command line. -/
  overrides : Overrides
  /-- The variables of the environment. -/
  environment : List (String × String)
  /-- The entries of the file. -/
  file : List (String × Toml)

namespace Sources

/-- The entries that the variables of an environment are. -/
def variableEntries (environment : List (String × String)) : List (String × Given) :=
  environment.filterMap fun (name, value) => (Layer.entryName? name).map (·, .text value)

/-- The entries of a file. -/
def fileEntries (entries : List (String × Toml)) : List (String × Given) :=
  entries.map fun (name, value) => (name, .ofToml value)

/-- The layer of an origin. -/
def layer (sources : Sources) : Origin → Layer
  | .overrides => sources.overrides.layer
  | .environment => .ofVariables sources.environment
  | .file => .ofToml sources.file
  | .builtIn => defaultLayer

/-- The origin sets the key to the value. -/
def Sets (sources : Sources) : Origin → Key → Given → Prop
  | .overrides, key, value => sources.overrides.layer key = some value
  | .environment, key, value => Layer.Entered (variableEntries sources.environment) key value
  | .file, key, value => Layer.Entered (fileEntries sources.file) key value
  | .builtIn, key, value => defaultLayer key = some value

/-- One layer out of all. -/
def whole (sources : Sources) : Layer :=
  (sources.layer .overrides).upon ((sources.layer .environment).upon
    ((sources.layer .file).upon (sources.layer .builtIn)))

variable (sources : Sources)

/-- The layer of an origin gives what the origin sets. -/
theorem picked_layer (origin : Origin) (key : Key) :
    Layer.Picked (sources.layer origin key) (sources.Sets origin key) := by
  cases origin with
  | overrides => exact Layer.picked_self _
  | environment => exact Layer.picked_ofEntries (variableEntries sources.environment) key
  | file => exact Layer.picked_ofEntries (fileEntries sources.file) key
  | builtIn => exact Layer.picked_self _

/-- An origin laid upon what is found below it. -/
theorem highest_upon (origin : Origin) {key : Key} {others : List Origin} {lower : Layer}
    (h : Highest sources.Sets key others (lower key)) :
    Highest sources.Sets key (origin :: others) ((sources.layer origin).upon lower key) := by
  have hpicked := sources.picked_layer origin key
  cases hlayer : sources.layer origin key with
  | none =>
    rw [Layer.upon_of_none hlayer]
    exact Or.inr ⟨hpicked.silent hlayer, h⟩
  | some value =>
    rw [Layer.upon_of_some hlayer]
    exact Or.inl ⟨value, rfl, hpicked.sound hlayer⟩

theorem highest_builtIn (key : Key) :
    Highest sources.Sets key [.builtIn] (sources.layer .builtIn key) := by
  have hpicked := sources.picked_layer .builtIn key
  cases hlayer : sources.layer .builtIn key with
  | none => exact Or.inr ⟨hpicked.silent hlayer, rfl⟩
  | some value => exact Or.inl ⟨value, rfl, hpicked.sound hlayer⟩

/-- Each setting is that of the highest origin that sets it. -/
theorem highest_whole (key : Key) :
    Highest sources.Sets key Origin.ranking (sources.whole key) :=
  sources.highest_upon .overrides
    (sources.highest_upon .environment (sources.highest_upon .file (sources.highest_builtIn key)))

/-! ### What is shadowed -/

/-- The sources say the same on the command line, and elsewhere about every key that no higher
origin sets. -/
structure SameUnshadowed (sources sources' : Sources) : Prop where
  overrides : sources'.overrides = sources.overrides
  environment {key : Key} (h : ∀ value, ¬sources.Sets .overrides key value) :
    (variableEntries sources'.environment).filter (Layer.concerns key) =
      (variableEntries sources.environment).filter (Layer.concerns key)
  file {key : Key} (h : ∀ value, ¬sources.Sets .overrides key value)
    (henvironment : ∀ value, ¬sources.Sets .environment key value) :
    (fileEntries sources'.file).filter (Layer.concerns key) =
      (fileEntries sources.file).filter (Layer.concerns key)

/-- What is shadowed does not count. -/
theorem SameUnshadowed.whole_eq {sources sources' : Sources}
    (h : sources.SameUnshadowed sources') : sources'.whole = sources.whole := by
  funext key
  have hoverrides : sources'.layer .overrides key = sources.layer .overrides key := by
    rw [layer, layer, h.overrides]
  refine Layer.upon_congr hoverrides fun hsaid => ?_
  have hsilent := (sources.picked_layer .overrides key).silent hsaid
  have henvironment : sources'.layer .environment key = sources.layer .environment key :=
    Layer.ofEntries_congr (h.environment hsilent)
  refine Layer.upon_congr henvironment fun hvariable => ?_
  have hsilent' := (sources.picked_layer .environment key).silent hvariable
  have hfile : sources'.layer .file key = sources.layer .file key :=
    Layer.ofEntries_congr (h.file hsilent hsilent')
  simp only [Layer.upon, hfile]
  rfl

end Sources

/-! ## Loading -/

/-- What is written in the file of settings, if it can be read; nothing without a file. -/
def SettingsFile.entries? : Option SettingsFile → Option (List (String × Toml))
  | none => some []
  | some content => (content.bind Utf8.decode?).bind Toml.parse

/-- The setting that names a registry. -/
def RegistrySource.key : RegistrySource → Key
  | file _ => .registryFile
  | http _ => .registryUrl

/-- The setting that names a registry of the other kind. -/
def RegistrySource.otherKey : RegistrySource → Key
  | file _ => .registryUrl
  | http _ => .registryFile

namespace Settings

theorem load_of_none {file : Option SettingsFile} (h : SettingsFile.entries? file = none)
    (environment : List (String × String)) (overrides : Overrides) :
    load file environment overrides = .error .unloadable := by
  cases file with
  | none => cases h
  | some content =>
    have hfile : fileLayer (some content) = .error .unloadable := by
      simp only [SettingsFile.entries?] at h
      simp [fileLayer, h]
    rw [load, hfile]
    rfl

theorem load_of_some {file : Option SettingsFile} {entries : List (String × Toml)}
    (h : SettingsFile.entries? file = some entries) (environment : List (String × String))
    (overrides : Overrides) : load file environment overrides =
      ofLayer (Sources.whole ⟨overrides, environment, entries⟩) := by
  have hfile : fileLayer file = .ok (.ofToml entries) := by
    cases file with
    | none =>
      cases h
      rfl
    | some content =>
      simp only [SettingsFile.entries?] at h
      simp [fileLayer, h]
  rw [load, hfile]
  rfl

/-! ### The registry -/

theorem exists_of_bind_eq_ok {ε α β : Type} {x : Except ε α} {f : α → Except ε β} {y : β}
    (h : x >>= f = .ok y) : ∃ a, x = .ok a ∧ f a = .ok y := by
  cases x with
  | error fault => cases h
  | ok a => exact ⟨a, rfl, h⟩

/-- Settings are read only if exactly one registry is named. -/
theorem registrySource_of_resolve {written : WrittenSettings} {settings : Settings}
    (h : written.resolve = .ok settings) :
    registrySource written.registryFile written.registryUrl = .ok settings.registry := by
  unfold WrittenSettings.resolve at h
  obtain ⟨scrapeInterval, -, h⟩ := exists_of_bind_eq_ok h
  obtain ⟨refreshInterval, -, h⟩ := exists_of_bind_eq_ok h
  obtain ⟨callTimeout, -, h⟩ := exists_of_bind_eq_ok h
  dsimp only at h
  split at h
  · cases h
  · split at h
    · cases h
    · obtain ⟨registry, hregistry, h⟩ := exists_of_bind_eq_ok h
      cases h
      exact hregistry

/-- A setting that may be left out is written exactly if it is given. -/
theorem isSome_of_optional? {α : Type} {convert : Given → Option α} {given : Option Given}
    {found : Option α} (h : optional? convert given = some found) :
    found.isSome = given.isSome := by
  cases given with
  | none =>
    cases h
    rfl
  | some value =>
    obtain ⟨x, -, rfl⟩ := Option.map_eq_some_iff.1 h
    rfl

/-- Settings name the one registry that the layer gives. -/
theorem isSome_of_ofLayer {layer : Layer} {settings : Settings} (h : ofLayer layer = .ok settings) :
    (layer settings.registry.key).isSome ∧ (layer settings.registry.otherKey).isSome = false := by
  unfold ofLayer at h
  split at h
  · cases h
  · next written hwritten =>
    have hsource := registrySource_of_resolve h
    simp only [WrittenSettings.ofLayer?, bind, Option.bind_eq_some_iff] at hwritten
    obtain ⟨_, -, _, -, _, -, _, -, _, -, _, -, file, hfile, url, hurl, hwritten⟩ := hwritten
    cases hwritten
    have hfile := isSome_of_optional? hfile
    have hurl := isSome_of_optional? hurl
    cases file <;> cases url <;> simp only [registrySource, reduceCtorEq] at hsource
    · rw [← Except.ok.inj hsource]
      exact ⟨hurl.symm, hfile.symm⟩
    · rw [← Except.ok.inj hsource]
      exact ⟨hfile.symm, hurl.symm⟩

end Settings

/-! ### The whole -/

namespace Sources

variable {has : Origin → Key → Given → Prop} {key : Key}

theorem not_has_of_highest {origins : List Origin} (h : Highest has key origins none)
    {origin : Origin} (horigin : origin ∈ origins) (value : Given) : ¬has origin key value := by
  induction origins with
  | nil => cases horigin
  | cons first others ih =>
    obtain ⟨_, hnone, -⟩ | ⟨hfirst, hothers⟩ := h
    · cases hnone
    · rcases List.mem_cons.1 horigin with rfl | horigin
      · exact hfirst value
      · exact ih hothers horigin

theorem exists_has_of_highest {origins : List Origin} {value : Given}
    (h : Highest has key origins (some value)) : ∃ origin, has origin key value := by
  induction origins with
  | nil => cases h
  | cons first others ih =>
    obtain ⟨_, hsome, hfirst⟩ | ⟨-, hothers⟩ := h
    · cases hsome
      exact ⟨first, hfirst⟩
    · exact ih hothers

/-- A layer that gives a key has the value from an origin that sets it. -/
theorem sets_of_isSome {sources : Sources} (h : (sources.whole key).isSome) :
    ∃ origin value, sources.Sets origin key value := by
  obtain ⟨value, hvalue⟩ := Option.isSome_iff_exists.1 h
  have hhighest := sources.highest_whole key
  rw [hvalue] at hhighest
  obtain ⟨origin, hset⟩ := exists_has_of_highest hhighest
  exact ⟨origin, value, hset⟩

/-- No origin sets a key that the layer does not give. -/
theorem not_sets_of_isNone {sources : Sources} (h : sources.whole key = none) (origin : Origin)
    (value : Given) : ¬sources.Sets origin key value := by
  have hhighest := sources.highest_whole key
  rw [h] at hhighest
  have horigin : origin ∈ Origin.ranking := by cases origin <;> simp [Origin.ranking]
  exact not_has_of_highest hhighest horigin value

/-- A variable sets the key of its name, in any case of its letters. -/
theorem sets_of_variable {sources : Sources} {name text : String}
    (h : (name, text) ∈ sources.environment) (hname : name.toLower = "statswatch_" ++ key.name) :
    sources.Sets .environment key (.text text) := by
  have hentry : (key.name, Given.text text) ∈ variableEntries sources.environment :=
    List.mem_filterMap.2 ⟨(name, text), h, by simp [Layer.entryName?_eq hname]⟩
  exact ⟨_, hentry, Layer.target_name key _⟩

/-- An entry of a file sets the key of its name. -/
theorem sets_of_entry {sources : Sources} {value : Toml} (h : (key.name, value) ∈ sources.file) :
    sources.Sets .file key (.ofToml value) :=
  ⟨(key.name, .ofToml value), List.mem_map_of_mem h, Layer.target_name key _⟩

end Sources

namespace Settings

/-- `load` fails where the file cannot be read. Otherwise it reads the settings out of a layer that
has each setting from the highest origin that sets it, which is the command line before the
environment before the file before what holds unless it is said ; variables and entries set the
keys of their names. So sources that differ in shadowed entries alone load alike, and settings
come about only if one registry is named, in whatever origins, and the other one in none. -/
theorem load_layers (file : Option SettingsFile) (environment : List (String × String))
    (overrides : Overrides) :
    (SettingsFile.entries? file = none → load file environment overrides = .error .unloadable) ∧
    ∀ entries, SettingsFile.entries? file = some entries →
      let sources : Sources := ⟨overrides, environment, entries⟩
      (∃ layer, load file environment overrides = ofLayer layer ∧
        ∀ key, Highest sources.Sets key Origin.ranking (layer key)) ∧
      (∀ (key : Key) (name text : String), (name, text) ∈ environment →
        name.toLower = "statswatch_" ++ key.name → sources.Sets .environment key (.text text)) ∧
      (∀ (key : Key) (value : Toml), (key.name, value) ∈ entries →
        sources.Sets .file key (.ofToml value)) ∧
      (∀ file' environment' entries', SettingsFile.entries? file' = some entries' →
        sources.SameUnshadowed ⟨overrides, environment', entries'⟩ →
        load file' environment' overrides = load file environment overrides) ∧
      ∀ settings, load file environment overrides = .ok settings →
        (∃ origin value, sources.Sets origin settings.registry.key value) ∧
          ∀ origin value, ¬sources.Sets origin settings.registry.otherKey value := by
  refine ⟨fun hfile => load_of_none hfile environment overrides, fun entries hfile => ?_⟩
  intro sources
  have hload := load_of_some hfile environment overrides
  refine ⟨⟨sources.whole, hload, sources.highest_whole⟩,
    fun _ _ _ hvariable hname => Sources.sets_of_variable hvariable hname,
    fun _ _ hentry => Sources.sets_of_entry hentry,
    fun file' environment' entries' hfile' hsame => ?_, fun settings hok => ?_⟩
  · rw [hload, load_of_some hfile', hsame.whole_eq]
  · obtain ⟨hone, hother⟩ := isSome_of_ofLayer (hload.symm.trans hok)
    refine ⟨Sources.sets_of_isSome hone, Sources.not_sets_of_isNone ?_⟩
    simpa using hother

/-- A variable in whatever case shadows what a file says about its key, be it a count that is out
of range or a table. -/
theorem load_layers_shadowed :
    let load (toml : String) : Except SettingsFault Settings :=
      load (some (some (Utf8.encode toml))) [("StatsWatch_Window", "5")]
        { registryFile := some "services.json" }
    load "window = -1" = load "[window]" := by
  have hentries : SettingsFile.entries? (some (some (Utf8.encode "[window]"))) =
      some [("window", .table [])] := by
    rw [SettingsFile.entries?, Option.bind_some, Utf8.decode?_encode]
    cbv
  have hentries' : SettingsFile.entries? (some (some (Utf8.encode "window = -1"))) =
      some [("window", .integer (-1))] := by
    rw [SettingsFile.entries?, Option.bind_some, Utf8.decode?_encode]
    cbv
  obtain ⟨-, hvariable, -, hshadowed, -⟩ := (load_layers (some (some (Utf8.encode "[window]")))
    [("StatsWatch_Window", "5")] { registryFile := some "services.json" }).2 _ hentries
  refine hshadowed _ _ _ hentries' ⟨rfl, fun _ => rfl, fun {key} _ hsilent => ?_⟩
  cases key with
  | window =>
    have hname : "StatsWatch_Window".toLower = "statswatch_" ++ Key.window.name := by
      decide +kernel
    exact absurd (hvariable .window _ "5" List.mem_cons_self hname) (hsilent _)
  | _ => rfl

end Settings

end Vitals
