import Deadwood.Proofs.Settings
import Deadwood.Proofs.TomlTables

/-!
# The highest layer decides

Settings are merged layer over layer before they are checked.  What is checked
can be said name by name: the value of the highest source that sets the name.
Whether settings load and what they are depends on these values alone, so that
a bad value is harmless where a higher source hides it.  A name that no setting
has is never hidden.
-/

namespace Deadwood

open Outcome

/-- Whether a value is one at all. -/
def Value.isSet : Value → Bool
  | .none => false
  | _ => true

theorem Setting.find?_key (setting : Setting) :
    (Setting.all.find? fun other => Text.ofString other.key = Text.ofString setting.key) = some setting := by
  cases setting <;> decide

theorem Setting.nodup_keys : (Setting.all.map fun setting => Text.ofString setting.key).Nodup := by
  decide

namespace Settings

/-! ## Sources of values -/

/-- The table that a file holds. -/
def Holds (tree : FileTree) (path : Path.Parsed) (table : Layer) : Prop :=
  ∃ bytes text, tree.content path = .ok bytes ∧ Encoding.decode .utf8 .strict bytes = .ok text ∧
    Toml.read text = .ok table

/-- The settings in a table: those of the table inside that is named for them, if there is one. -/
def sectionOf (table : Layer) : Layer :=
  match table.value? tableName with
  | some (.table inner) => inner
  | _ => table

/-- Where values of settings come from: the tables of the two files, variables and overrides. -/
structure Sources where
  project : Layer
  explicit : Layer
  environment : List (Text × Text)
  overrides : Layer

namespace Sources

/-- The text of a setting's variable. -/
def variableText? (sources : Sources) (setting : Setting) : Option Text :=
  (sources.environment.find? (·.1 = variableName setting)).map (·.2)

/-- The sources are those of a project: each table is held by its file, or empty where there is no file, each variable
has a value, and no override is given twice. -/
structure AreOf (sources : Sources) (tree : FileTree) (root : Path.Parsed) (file : Option Path.Parsed) : Prop where
  project : Holds tree (root.append (Path.Parsed.ofText fileName)) sources.project ∨
    (∃ fault, tree.stat (root.append (Path.Parsed.ofText fileName)) = .error fault ∧ fault ≠ .nameTooLong) ∧
      sources.project = []
  explicit : (∃ path, file = some path ∧ Holds tree path sources.explicit) ∨ file = none ∧ sources.explicit = []
  environment : ∀ setting text, sources.variableText? setting = some text →
    ∃ value, valueOfVariable setting.kind text = .ok value
  overrides : sources.overrides.names.Nodup

/-- Whether an override is given that counts as true. -/
def asks (sources : Sources) (name : Text) : Bool := ((sources.overrides.value? name).map Value.isTruthy).getD false

/-- The verbosity that overrides force. -/
def forced? (sources : Sources) : Option Value :=
  if sources.asks "quiet" then some (.text "quiet")
  else if sources.asks "verbose" then some (.text "verbose")
  else none

/-- The override of a name; those that only force the verbosity set nothing of their own. -/
def override? (sources : Sources) (name : Text) : Option Value :=
  if name = ("quiet" : Text) then none
  else if name = ("verbose" : Text) then none
  else (sources.overrides.value? name).filter Value.isSet

/-- The value of a setting's variable. -/
def variableValue? (sources : Sources) (setting : Setting) : Option Value :=
  (sources.variableText? setting).bind fun text => (valueOfVariable setting.kind text).toOption

/-- The value of the variable that belongs to a name. -/
def converted? (sources : Sources) (name : Text) : Option Value :=
  (Setting.all.find? fun setting => Text.ofString setting.key = name).bind sources.variableValue?

/-- The value of the highest source that sets a name. -/
def chosen (sources : Sources) (name : Text) : Option Value :=
  (if name = Text.ofString (Setting.key .verbosity) then sources.forced? else none).or <|
    (sources.override? name).or <| (sources.converted? name).or <|
      ((sectionOf sources.explicit).value? name).or ((sectionOf sources.project).value? name)

end Sources

variable {layer first second : Layer} {settings : Settings} {sources : Sources} {tree : FileTree}
  {root path : Path.Parsed} {file : Option Path.Parsed} {name : Text} {table : Layer}

/-! ## What checks depend on -/

theorem isNamed_iff : layer.IsNamed ↔
    ∀ name, layer.value? name ≠ none → ∃ setting : Setting, Text.ofString setting.key = name := by
  have named : ∀ name, layer.value? name ≠ none ↔ name ∈ layer.names :=
    fun name => not_iff_comm.mp Layer.value?_eq_none.symm
  simp only [Layer.IsNamed, named, Layer.names, List.mem_map, forall_exists_index, and_imp,
    forall_apply_eq_imp_iff₂]

/-- Settings are accepted by their values alone. -/
theorem ofLayer_congr (same : ∀ name, first.value? name = second.value? name)
    (accepted : ofLayer first = .ok settings) : ofLayer second = .ok settings := by
  have values : ∀ setting, first.valueOf setting = second.valueOf setting := by
    intro setting
    rw [Layer.valueOf, Layer.valueOf, same]
  obtain ⟨passed, named, accepted⟩ := bind_eq_ok.mp accepted
  have named : checkNames second = .ok () := by
    rw [checkNames_eq_ok, isNamed_iff] at named ⊢
    simpa only [same] using named
  refine bind_eq_ok.mpr ⟨(), named, ?_⟩
  have patterns : checkPatterns first = checkPatterns second := by simp only [checkPatterns, values]
  have given : checkGiven first = checkGiven second := by
    funext setting reason
    simp only [checkGiven, values]
  have number : checkNumber first = checkNumber second := by
    funext setting isLow relation reason
    simp only [checkNumber, values]
  have target : readAliasTarget first = readAliasTarget second := by simp only [readAliasTarget, values]
  have verbosity : readVerbosity first = readVerbosity second := by simp only [readVerbosity, values]
  have folder : readBackupFolder first = readBackupFolder second := by simp only [readBackupFolder, given, values]
  simpa only [patterns, given, number, target, verbosity, folder, values] using accepted

theorem value?_settings (valueOf : Setting → Value) (setting : Setting) :
    Layer.value? (Setting.all.map fun other => (Text.ofString other.key, valueOf other)) setting.key =
      some (valueOf setting) := by
  rw [Layer.value?, List.find?_map]
  simp only [Function.comp_def, Setting.find?_key, Option.map_some]

theorem readAliasTarget_eq_ok {target : Text} (read : readAliasTarget layer = .ok target) :
    layer.valueOf .aliasTarget = .text target := by
  rw [readAliasTarget] at read
  split at read
  case h_1 text is_text =>
    split at read
    · cases read
      exact is_text
    · cases read
  case h_2 => cases read

theorem readVerbosity_eq_ok {verbosity : Verbosity} (read : readVerbosity layer = .ok verbosity) :
    layer.valueOf .verbosity = .text verbosity.name := by
  rw [readVerbosity] at read
  split at read
  case h_1 verbosity found =>
    cases read
    obtain ⟨name, named, found⟩ := Option.bind_eq_some_iff.mp found
    rw [ofName?_eq_some] at found
    cases value : layer.valueOf .verbosity with
    | text text =>
      rw [value] at named
      cases named
      rw [found]
    | none | bool | int | float | moment | list | table => simp [value, Value.text?] at named
  case h_2 => cases read

theorem readBackupFolder_eq_ok {folder : Text} (read : readBackupFolder layer = .ok folder) :
    layer.valueOf .backupFolder = .text folder := by
  simp only [readBackupFolder, bind, bind_eq_ok] at read
  obtain ⟨-, -, read⟩ := read
  split at read
  case h_1 text is_text =>
    split at read
    · cases read
    · cases read
      exact is_text
  case h_2 => cases read

/-- The settings have the values of the layer that they are made from, and defaults where it has none. -/
theorem value?_toLayer (accepted : ofLayer layer = .ok settings) (setting : Setting) :
    settings.toLayer.value? setting.key = some (layer.valueOf setting) := by
  rw [toLayer, value?_settings]
  simp only [ofLayer, bind, bind_eq_ok, pure, Except.pure, Except.ok.injEq] at accepted
  obtain ⟨-, -, -, -, -, -, -, -, target, target_read, -, -, verbosity, verbosity_read, -, -, folder, folder_read,
    rfl⟩ := accepted
  cases setting with
  | aliasTarget => rw [readAliasTarget_eq_ok target_read]
  | verbosity => rw [readVerbosity_eq_ok verbosity_read]
  | backupFolder => rw [readBackupFolder_eq_ok folder_read]
  | scriptPatterns | stylePatterns | sizeLimit | aliasStart | ignoreFiles | ignoreExtensions | ignoreDependencies
  | reportFile | deleteUnused | workers => rfl

theorem ofMergedLayer_eq_ok : ofMergedLayer layer = .ok settings ↔ ofLayer layer = .ok settings := by
  rw [ofMergedLayer]
  cases ofLayer layer with
  | ok found => simp only [pure, Except.pure, Except.ok.injEq]
  | error trouble =>
    refine iff_of_false ?_ (by rintro ⟨⟩)
    cases trouble <;> rintro ⟨⟩

/-! ## The layers of the sources -/

/-- The values of variables, in the order of settings. -/
def variableLayer (sources : Sources) : Layer :=
  Setting.all.filterMap fun setting => (sources.variableValue? setting).map (Text.ofString setting.key, ·)

/-- The layers of the sources, each over the ones below it. -/
def mergedLayer (sources : Sources) : Layer :=
  (((sectionOf sources.project).hiddenBy (sectionOf sources.explicit)).hiddenBy (variableLayer sources)).hiddenBy
    (overrideLayer sources.overrides)

theorem environmentLayer_eq (given : sources.AreOf tree root file) :
    environmentLayer sources.environment = .ok (variableLayer sources) := by
  refine bind_eq_ok.mpr
    ⟨Setting.all.map fun setting => (sources.variableValue? setting).map (Text.ofString setting.key, ·), ?_, ?_⟩
  · refine (mapM_congr fun setting _ => ?_).trans List.mapM_pure
    split
    case h_1 unset => simp [Sources.variableValue?, Sources.variableText?, unset]
    case h_2 item text found =>
      have set : sources.variableText? setting = some text := by rw [Sources.variableText?, found, Option.map_some]
      obtain ⟨value, converted⟩ := given.environment setting text set
      simp [Sources.variableValue?, set, converted, Except.toOption]
  · rw [List.filterMap_map]
    rfl

/-- The names of values of settings are names of these settings, in their order. -/
theorem names_filterMap (value? : Setting → Option Value) (settings : List Setting) :
    List.Sublist
      (Layer.names (settings.filterMap fun setting => (value? setting).map (Text.ofString setting.key, ·)))
      (settings.map fun setting => Text.ofString setting.key) := by
  induction settings with
  | nil => exact .slnil
  | cons setting rest ih =>
    cases found : value? setting with
    | none =>
      simp only [List.filterMap_cons, found, Option.map_none]
      exact ih.cons _
    | some value =>
      simp only [List.filterMap_cons, found, Option.map_some]
      exact ih.cons_cons _

theorem value?_filterMap (value? : Setting → Option Value) {settings : List Setting}
    (distinct : (settings.map fun setting => Text.ofString setting.key).Nodup) :
    Layer.value? (settings.filterMap fun setting => (value? setting).map (Text.ofString setting.key, ·)) name =
      (settings.find? fun setting => Text.ofString setting.key = name).bind value? := by
  induction settings with
  | nil => rfl
  | cons setting rest ih =>
    obtain ⟨fresh, distinct⟩ := List.nodup_cons.mp distinct
    rw [List.find?_cons]
    by_cases same : Text.ofString setting.key = name
    · simp only [same, decide_true, Option.bind_some]
      cases found : value? setting with
      | none =>
        simp only [List.filterMap_cons, found, Option.map_none]
        rw [Layer.value?_eq_none, ← same]
        exact fun member => fresh ((names_filterMap value? rest).subset member)
      | some value =>
        simp only [List.filterMap_cons, found, Option.map_some]
        rw [Layer.value?_cons, if_pos same]
    · simp only [same, decide_false]
      rw [← ih distinct]
      cases found : value? setting with
      | none => simp only [List.filterMap_cons, found, Option.map_none]
      | some value =>
        simp only [List.filterMap_cons, found, Option.map_some]
        rw [Layer.value?_cons, if_neg same]

theorem nodup_variableLayer : (variableLayer sources).names.Nodup :=
  (names_filterMap _ _).nodup Setting.nodup_keys

theorem value?_variableLayer : (variableLayer sources).value? name = sources.converted? name :=
  value?_filterMap _ Setting.nodup_keys

/-- The overrides that set a value of their own. -/
def givenOverrides (overrides : Layer) : Layer :=
  overrides.filter fun item => item.2.isSet && item.1 ≠ ("verbose" : Text) && item.1 ≠ ("quiet" : Text)

theorem overrideLayer_eq : overrideLayer sources.overrides =
    sources.forced?.elim (givenOverrides sources.overrides) fun value =>
      (givenOverrides sources.overrides).set (Setting.key .verbosity) value := by
  unfold overrideLayer
  extract_lets given asks
  have same : given = givenOverrides sources.overrides := by
    refine List.filter_congr ?_
    rintro ⟨name, value⟩ -
    cases value <;> rfl
  rw [same, Sources.forced?]
  change (if sources.asks "quiet" then _ else if sources.asks "verbose" then _ else _) = _
  split
  · rfl
  · split <;> rfl

theorem value?_givenOverrides (distinct : sources.overrides.names.Nodup) :
    (givenOverrides sources.overrides).value? name = sources.override? name := by
  rw [givenOverrides, Layer.value?_filter distinct, Sources.override?]
  split
  case isTrue quiet => simp [quiet]
  case isFalse loud =>
    split
    case isTrue verbose => simp [verbose]
    case isFalse plain => simp [loud, plain]

theorem nodup_givenOverrides (distinct : sources.overrides.names.Nodup) :
    (givenOverrides sources.overrides).names.Nodup :=
  ((List.filter_sublist).map Prod.fst).nodup distinct

theorem nodup_overrideLayer (distinct : sources.overrides.names.Nodup) :
    (overrideLayer sources.overrides).names.Nodup := by
  rw [overrideLayer_eq]
  cases sources.forced? with
  | none => exact nodup_givenOverrides distinct
  | some value => exact Layer.nodup_names_set (nodup_givenOverrides distinct)

theorem value?_overrideLayer (distinct : sources.overrides.names.Nodup) :
    (overrideLayer sources.overrides).value? name =
      (if name = Text.ofString (Setting.key .verbosity) then sources.forced? else none).or
        (sources.override? name) := by
  rw [overrideLayer_eq, ← value?_givenOverrides distinct]
  cases sources.forced? with
  | none => simp
  | some value =>
    split
    case isTrue same =>
      rw [same]
      exact Layer.value?_set_self
    case isFalse differs => exact Layer.value?_set_of_ne (Ne.symm differs)

/-! ## Files -/

/-- A table is read through its section, unless something else stands there under the section's name. -/
theorem layerOr_of_holds (holds : Holds tree path table) (missing : Except Failure Layer) :
    layerOr missing tree path = .ok (sectionOf table) ∨
      (∃ failure, layerOr missing tree path = .error failure) ∧ (sectionOf table).value? tableName ≠ none := by
  obtain ⟨bytes, text, stored, decoded, parsed⟩ := holds
  obtain ⟨content, found, -⟩ := FileTree.content_eq_ok.mp stored
  simp only [layerOr, found, layerOfFile, stored, layerOfBytes, decoded, parsed, sectionOf]
  have same : Toml.lookup tableName table = table.value? tableName := rfl
  rw [same]
  cases within : table.value? tableName with
  | none => exact .inl rfl
  | some value =>
    cases value with
    | table inner => exact .inl rfl
    | none | bool | int | float | text | moment | list => exact .inr ⟨⟨_, rfl⟩, by simp [within]⟩

theorem nodup_sectionOf (holds : Holds tree path table) : (sectionOf table).names.Nodup := by
  obtain ⟨bytes, text, stored, decoded, parsed⟩ := holds
  have regular := Toml.isRegular_of_read parsed
  rw [sectionOf]
  split
  case h_1 inner found => exact (regular.lookup found).distinct
  case h_2 => exact regular.distinct

theorem projectLayer_cases (given : sources.AreOf tree root file) :
    projectLayer tree root = .ok (sectionOf sources.project) ∨
      (∃ failure, projectLayer tree root = .error failure) ∧
        (sectionOf sources.project).value? tableName ≠ none := by
  rcases given.project with holds | ⟨⟨fault, missing, short⟩, empty⟩
  · exact layerOr_of_holds holds _
  · left
    rw [projectLayer, layerOr, missing, empty]
    cases fault with
    | nameTooLong => exact absurd rfl short
    | notFound | alreadyExists | notFolder | isFolder | invalid | busy | denied => rfl

theorem explicitLayer_cases (given : sources.AreOf tree root file) :
    explicitLayer tree file = .ok (sectionOf sources.explicit) ∨
      (∃ failure, explicitLayer tree file = .error failure) ∧
        (sectionOf sources.explicit).value? tableName ≠ none := by
  rcases given.explicit with ⟨path, rfl, holds⟩ | ⟨rfl, empty⟩
  · exact layerOr_of_holds holds _
  · left
    rw [empty]
    rfl

theorem nodup_project (given : sources.AreOf tree root file) : (sectionOf sources.project).names.Nodup := by
  rcases given.project with holds | ⟨-, empty⟩
  · exact nodup_sectionOf holds
  · rw [empty]
    exact List.nodup_nil

theorem nodup_explicit (given : sources.AreOf tree root file) : (sectionOf sources.explicit).names.Nodup := by
  rcases given.explicit with ⟨path, -, holds⟩ | ⟨-, empty⟩
  · exact nodup_sectionOf holds
  · rw [empty]
    exact List.nodup_nil

/-! ## Merged layers -/

theorem nodup_mergedLayer (given : sources.AreOf tree root file) : (mergedLayer sources).names.Nodup :=
  Layer.nodup_names_hiddenBy (Layer.nodup_names_hiddenBy (Layer.nodup_names_hiddenBy (nodup_project given)))

theorem value?_mergedLayer (given : sources.AreOf tree root file) (name : Text) :
    (mergedLayer sources).value? name = sources.chosen name := by
  rw [mergedLayer, Layer.value?_hiddenBy (nodup_overrideLayer given.overrides),
    Layer.value?_hiddenBy nodup_variableLayer, Layer.value?_hiddenBy (nodup_explicit given),
    value?_overrideLayer given.overrides, value?_variableLayer, Option.or_assoc, Sources.chosen]

/-- No name that a layer sets is lost on the way. -/
theorem Sources.chosen_ne_none (set : sources.override? name ≠ none ∨
    (sectionOf sources.explicit).value? name ≠ none ∨ (sectionOf sources.project).value? name ≠ none) :
    sources.chosen name ≠ none := by
  intro unset
  simp only [chosen, Option.or_eq_none_iff] at unset
  obtain ⟨-, overridden, -, explicit, project⟩ := unset
  simp [overridden, explicit, project] at set

/-- A name that no setting has is refused. -/
theorem not_accepted (unknown : ∀ setting : Setting, Text.ofString setting.key ≠ name)
    (set : layer.value? name ≠ none) : ofLayer layer ≠ .ok settings := by
  intro accepted
  obtain ⟨passed, named, -⟩ := bind_eq_ok.mp accepted
  obtain ⟨setting, same⟩ := isNamed_iff.mp (checkNames_eq_ok.mp named) name set
  exact unknown setting same

theorem key_ne_tableName (setting : Setting) : Text.ofString setting.key ≠ tableName := by
  cases setting <;> decide

/-- Loading is checking the merged layer: a file whose section is no table fails either way. -/
theorem load_eq_ok_iff (given : sources.AreOf tree root file) :
    load tree root file sources.environment sources.overrides = .ok settings ↔
      ofLayer (mergedLayer sources) = .ok settings := by
  have refused : (sectionOf sources.explicit).value? tableName ≠ none ∨
      (sectionOf sources.project).value? tableName ≠ none → ofLayer (mergedLayer sources) ≠ .ok settings := by
    intro set
    refine not_accepted key_ne_tableName ?_
    rw [value?_mergedLayer given]
    exact Sources.chosen_ne_none (.inr set)
  rw [load]
  rcases projectLayer_cases given with project | ⟨⟨failure, project⟩, set⟩
  · rcases explicitLayer_cases given with explicit | ⟨⟨failure, explicit⟩, set⟩
    · rw [project, explicit, environmentLayer_eq given]
      exact ofMergedLayer_eq_ok
    · rw [project, explicit]
      exact iff_of_false (by rintro ⟨⟩) (refused (.inl set))
  · rw [project]
    exact iff_of_false (by rintro ⟨⟩) (refused (.inr set))

/-- Settings load exactly if the mapping from names to the values of the highest sources is accepted; they then have
these values, and defaults where no source sets one.  A name that no setting has is never hidden. -/
theorem load_follows_sources (given : sources.AreOf tree root file) :
    (∃ merged : Layer, merged.names.Nodup ∧ ∀ name, merged.value? name = sources.chosen name) ∧
    (∀ merged : Layer, (∀ name, merged.value? name = sources.chosen name) → ∀ settings,
      load tree root file sources.environment sources.overrides = .ok settings ↔ ofLayer merged = .ok settings) ∧
    (∀ settings, load tree root file sources.environment sources.overrides = .ok settings → ∀ setting : Setting,
      settings.toLayer.value? setting.key = some ((sources.chosen setting.key).getD setting.default)) ∧
    ∀ name, (∀ setting : Setting, Text.ofString setting.key ≠ name) → (sources.override? name ≠ none ∨
      (sectionOf sources.explicit).value? name ≠ none ∨ (sectionOf sources.project).value? name ≠ none) →
      ∀ settings, load tree root file sources.environment sources.overrides ≠ .ok settings := by
  refine ⟨⟨mergedLayer sources, nodup_mergedLayer given, value?_mergedLayer given⟩, ?_, ?_, ?_⟩
  · intro merged values settings
    have same : ∀ name, merged.value? name = (mergedLayer sources).value? name :=
      fun name => (values name).trans (value?_mergedLayer given name).symm
    rw [load_eq_ok_iff given]
    exact ⟨ofLayer_congr fun name => (same name).symm, ofLayer_congr same⟩
  · intro settings loaded setting
    rw [value?_toLayer ((load_eq_ok_iff given).mp loaded), Layer.valueOf, value?_mergedLayer given]
  · intro name unknown set settings loaded
    have kept : (mergedLayer sources).value? name ≠ none := by
      rw [value?_mergedLayer given]
      exact Sources.chosen_ne_none set
    exact not_accepted unknown kept ((load_eq_ok_iff given).mp loaded)

/-- A project in the folder `p` whose settings file asks for no workers, and another file whose section asks for four
and for much to be said. -/
def layeredTree : FileTree where
  here := []
  entries := [([("p" : Text)], .folder), ([("p" : Text), fileName], .file (Encoding.utf8 "workers=0".toList)),
    ([("e" : Text)], .file (Encoding.utf8 "[deadref]\nworkers=4\nverbosity='verbose'".toList))]

/-- The sources of these files, with a variable for the workers and overrides that ask for quiet. -/
def layeredSources : Sources where
  project := [("workers", .int 0)]
  explicit := [("deadref", .table [("workers", .int 4), ("verbosity", .text "verbose")])]
  environment := [("DEADREF_WORKERS", "3")]
  overrides := [("alias_prefix", .none), ("quiet", .bool true)]

set_option maxRecDepth 100000 in
theorem areOf_layeredSources :
    layeredSources.AreOf layeredTree (Path.Parsed.ofText "p") (some (Path.Parsed.ofText "e")) where
  project := .inl ⟨_, "workers=0", rfl, rfl, by with_unfolding_all rfl⟩
  explicit := .inl ⟨_, rfl, _, "[deadref]\nworkers=4\nverbosity='verbose'", rfl, rfl, by with_unfolding_all rfl⟩
  environment := by
    have only : ∀ setting,
        layeredSources.variableText? setting = if setting = .workers then some (Text.ofString "3") else none := by
      intro setting
      cases setting <;> with_unfolding_all rfl
    intro setting text set
    rw [only] at set
    split at set
    case isTrue is_workers =>
      cases set
      rw [is_workers]
      exact ⟨.int 3, rfl⟩
    case isFalse => cases set
  overrides := by decide

theorem layeredSources_chosen :
    layeredSources.chosen (Setting.key .workers) = some (.int 3) ∧
    layeredSources.chosen (Setting.key .verbosity) = some (.text "quiet") ∧
    layeredSources.chosen (Setting.key .aliasStart) = none := by
  refine ⟨?_, ?_, ?_⟩ <;> with_unfolding_all rfl

set_option maxRecDepth 100000 in
/-- The bad number of workers in the project's file is hidden, the variable hides that of the other file, and an
override the verbosity there. -/
theorem load_follows_sources_hidden : ∃ settings,
    load layeredTree (Path.Parsed.ofText "p") (some (Path.Parsed.ofText "e")) layeredSources.environment
      layeredSources.overrides = .ok settings ∧
    settings.toLayer.value? (Setting.key .workers) = some (.int 3) ∧
    settings.toLayer.value? (Setting.key .verbosity) = some (.text "quiet") ∧
    settings.toLayer.value? (Setting.key .aliasStart) = some (Setting.default .aliasStart) := by
  have accepted : ∃ settings, ofLayer (mergedLayer layeredSources) = .ok settings := ⟨_, by with_unfolding_all rfl⟩
  obtain ⟨settings, accepted⟩ := accepted
  obtain ⟨-, loads, values, -⟩ := load_follows_sources areOf_layeredSources
  have loaded := (loads _ (value?_mergedLayer areOf_layeredSources) settings).mpr accepted
  have each := values settings loaded
  obtain ⟨workers, verbosity, aliasStart⟩ := layeredSources_chosen
  refine ⟨settings, loaded, ?_, ?_, ?_⟩
  · rw [each, workers, Option.getD_some]
  · rw [each, verbosity, Option.getD_some]
  · rw [each, aliasStart, Option.getD_none]

end Settings

end Deadwood
