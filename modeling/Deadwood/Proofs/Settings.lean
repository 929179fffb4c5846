import Deadwood.Settings.Load
import Deadwood.Proofs.Path
import Deadwood.Proofs.FileTree
import Deadwood.Proofs.TomlLimits

/-!
# Errors of settings

Settings that cannot be loaded are reported as such: the failure names the file
or the setting that is to blame.  A fault comes through where a file is no text
or the TOML reader gives up on it, where an alias stands for something that is
no text, and where the number to blame is too long to be written.
-/

namespace Deadwood

open Outcome

/-- A failure that is reported as one of the settings. -/
def Failure.IsConfiguration : Failure → Prop
  | .configuration _ | .badSettingsFile _ _ | .badSetting _ _ _ | .badRoot _ _ => True
  | _ => False

/-- A mismatch is reported as a failure of the settings. -/
def SettingsError.IsConfiguration : SettingsError → Prop
  | .mismatch _ => True
  | SettingsError.failure cause => cause.IsConfiguration

/-! ## Values that can be written -/

namespace Value

variable {value : Value}

/-- A value stands in another, or is it, by the number of levels between the two. -/
inductive Holds : Value → Nat → Value → Prop where
  | self (value : Value) : Holds value 0 value
  | item {values : List Value} {value inner : Value} {level : Nat} (listed : value ∈ values)
    (inside : Holds value level inner) : Holds (.list values) (level + 1) inner
  | member {members : List (Text × Value)} {name : Text} {value inner : Value} {level : Nat}
    (listed : (name, value) ∈ members) (inside : Holds value level inner) : Holds (.table members) (level + 1) inner

/-- A value that cannot be written where it stands: it is too far down, or a number with too many digits. -/
def IsObstacle (levels level : Nat) (value : Value) : Prop :=
  levels ≤ level ∨ ∃ n : Int, value = .int n ∧ Nat.pow 10 Numeral.digitLimit ≤ n.natAbs

theorem exists_obstacle_list {values : List Value} {levels : Nat} :
    (∃ level inner, (list values).Holds level inner ∧ inner.IsObstacle (levels + 1) level) ↔
      ∃ value ∈ values, ∃ level inner, value.Holds level inner ∧ inner.IsObstacle levels level := by
  constructor
  · rintro ⟨level, inner, holds, obstacle⟩
    cases holds with
    | self => simp [IsObstacle] at obstacle
    | item listed inside => exact ⟨_, listed, _, inner, inside, obstacle.imp_left Nat.le_of_succ_le_succ⟩
  · rintro ⟨value, listed, level, inner, inside, obstacle⟩
    exact ⟨level + 1, inner, .item listed inside, obstacle.imp_left Nat.succ_le_succ⟩

theorem exists_obstacle_table {members : List (Text × Value)} {levels : Nat} :
    (∃ level inner, (table members).Holds level inner ∧ inner.IsObstacle (levels + 1) level) ↔
      ∃ member ∈ members, ∃ level inner, member.2.Holds level inner ∧ inner.IsObstacle levels level := by
  constructor
  · rintro ⟨level, inner, holds, obstacle⟩
    cases holds with
    | self => simp [IsObstacle] at obstacle
    | member listed inside => exact ⟨_, listed, _, inner, inside, obstacle.imp_left Nat.le_of_succ_le_succ⟩
  · rintro ⟨⟨name, value⟩, listed, level, inner, inside, obstacle⟩
    exact ⟨level + 1, inner, .member listed inside, obstacle.imp_left Nat.succ_le_succ⟩

/-- Only lists and tables hold other values. -/
theorem Holds.eq_self {level : Nat} {inner : Value} (holds : value.Holds level inner)
    (single : ∀ values, value ≠ .list values) (alone : ∀ members, value ≠ .table members) :
    level = 0 ∧ inner = value := by
  cases holds with
  | self => exact ⟨rfl, rfl⟩
  | item => exact absurd rfl (single _)
  | member => exact absurd rfl (alone _)

theorem exists_obstacle_single {levels : Nat} (single : ∀ values, value ≠ .list values)
    (alone : ∀ members, value ≠ .table members) :
    (∃ level inner, value.Holds level inner ∧ inner.IsObstacle (levels + 1) level) ↔
      ∃ n : Int, value = .int n ∧ Nat.pow 10 Numeral.digitLimit ≤ n.natAbs := by
  constructor
  · rintro ⟨level, inner, holds, obstacle⟩
    obtain ⟨rfl, rfl⟩ := holds.eq_self single alone
    simpa [IsObstacle] using obstacle
  · intro long
    exact ⟨0, value, .self value, .inr long⟩

mutual

/-- A value can be written exactly if nothing in it is in the way. -/
theorem obstacle?_ne_none : (levels : Nat) → (value : Value) → (value.obstacle? levels ≠ Option.none ↔
    ∃ level inner, value.Holds level inner ∧ inner.IsObstacle levels level)
  | 0, value => by
    refine iff_of_true ?_ ⟨0, value, .self value, .inl (Nat.zero_le 0)⟩
    cases value <;> simp [obstacle?]
  | levels + 1, .list values => by
    rw [exists_obstacle_list, obstacle?, firstObstacle?_ne_none levels values]
  | levels + 1, .table members => by
    rw [exists_obstacle_table, obstacle?, memberObstacle?_ne_none levels members]
  | levels + 1, .int n => by
    refine Iff.trans ?_ (Iff.symm (exists_obstacle_single nofun nofun))
    simp [obstacle?]
  | levels + 1, .none | levels + 1, .bool _ | levels + 1, .float _ | levels + 1, .text _
  | levels + 1, .moment _ => by
    refine Iff.trans ?_ (Iff.symm (exists_obstacle_single nofun nofun))
    simp [obstacle?]

theorem firstObstacle?_ne_none : (levels : Nat) → (values : List Value) → (firstObstacle? levels values ≠ Option.none ↔
    ∃ value ∈ values, ∃ level inner, value.Holds level inner ∧ inner.IsObstacle levels level)
  | _, [] => by simp [firstObstacle?]
  | levels, value :: rest => by
    rw [List.exists_mem_cons_iff, ← obstacle?_ne_none levels value, ← firstObstacle?_ne_none levels rest,
      firstObstacle?]
    cases value.obstacle? levels <;> simp

theorem memberObstacle?_ne_none : (levels : Nat) → (members : List (Text × Value)) →
    (memberObstacle? levels members ≠ Option.none ↔
      ∃ member ∈ members, ∃ level inner, member.2.Holds level inner ∧ inner.IsObstacle levels level)
  | _, [] => by simp [memberObstacle?]
  | levels, (name, value) :: rest => by
    rw [List.exists_mem_cons_iff, ← obstacle?_ne_none levels value, ← memberObstacle?_ne_none levels rest,
      memberObstacle?]
    cases value.obstacle? levels <;> simp

end

@[simp] theorem isWritable_text (t : Text) : (text t).isWritable = true := rfl

theorem isWritable_eq_false : value.isWritable = false ↔
    ∃ level inner, value.Holds level inner ∧ inner.IsObstacle depthLimit level := by
  rw [← obstacle?_ne_none, isWritable]
  cases value.obstacle? depthLimit <;> simp

/-- A whole number so far below zero that it cannot be written. -/
def IsFarBelowZero (value : Value) : Prop :=
  ∃ n : Int, value = .int n ∧ n ≤ -(Nat.pow 10 Numeral.digitLimit : Nat)

theorem isWritable_int_iff {n : Int} (low : n ≤ 0) :
    (int n).isWritable = true ↔ ¬ (int n).IsFarBelowZero := by
  have written : (int n).isWritable = decide (n.natAbs < Nat.pow 10 Numeral.digitLimit) := by
    rw [isWritable, depthLimit, obstacle?]
    split
    case isTrue few => exact (decide_eq_true few).symm
    case isFalse many => exact (decide_eq_false many).symm
  simp only [written, decide_eq_true_eq, IsFarBelowZero, int.injEq, exists_eq_left', not_le]
  omega

theorem IsFarBelowZero.not_isWritable (low : value.IsFarBelowZero) : value.isWritable = false := by
  obtain ⟨n, rfl, below⟩ := low
  exact Bool.eq_false_iff.mpr fun writable => (isWritable_int_iff (by omega)).mp writable ⟨n, rfl, below⟩

/-- What counts as not given can be written. -/
theorem isWritable_of_not_isTruthy (missing : value.isTruthy = false) : value.isWritable = true := by
  cases value with
  | int n =>
    have zero : n = 0 := by simpa [isTruthy] using missing
    subst zero
    have positive : ∀ digits, 0 < Nat.pow 10 digits := fun digits => Nat.pow_pos (by decide)
    refine (isWritable_int_iff (Int.le_refl 0)).mpr ?_
    rintro ⟨_, ⟨⟩, low⟩
    have bound := positive Numeral.digitLimit
    omega
  | list values =>
    have empty : values = [] := by simpa [isTruthy] using missing
    rw [empty]
    rfl
  | table members =>
    have empty : members = [] := by simpa [isTruthy] using missing
    rw [empty]
    rfl
  | none => rfl
  | bool b => rfl
  | float x => rfl
  | text t => rfl
  | moment m => rfl

end Value

/-! ## Layers -/

namespace Layer

variable {layer : Layer}

/-- All names are those of settings. -/
def IsNamed (layer : Layer) : Prop := ∀ item ∈ layer, ∃ setting : Setting, Text.ofString setting.key = item.1

/-- The value of a setting passes its check. -/
def Accepts (layer : Layer) : Setting → Prop
  | .scriptPatterns =>
    (layer.valueOf .scriptPatterns).isTruthy = true ∨ (layer.valueOf .stylePatterns).isTruthy = true
  | .sizeLimit => Settings.notPositive? (layer.valueOf .sizeLimit) = some false
  | .aliasStart => (layer.valueOf .aliasStart).isTruthy = true
  | .aliasTarget => ∃ target, layer.valueOf .aliasTarget = .text target ∧ Text.endsWith target "/" = true
  | .workers => Settings.belowOne? (layer.valueOf .workers) = some false
  | .verbosity => ∃ verbosity : Verbosity, layer.valueOf .verbosity = .text verbosity.name
  | .reportFile => (layer.valueOf .reportFile).isTruthy = true
  | .backupFolder => ∃ folder, layer.valueOf .backupFolder = .text folder ∧ folder ≠ [] ∧
      Text.startsWith folder "/" = false
  | _ => True

/-- The value of a setting cannot be checked, or not be named in a refusal. -/
def Trips (layer : Layer) : Setting → Prop
  | .sizeLimit => (layer.valueOf .sizeLimit).IsFarBelowZero
  | .aliasTarget => ∀ target, layer.valueOf .aliasTarget ≠ .text target
  | .workers => (layer.valueOf .workers).IsFarBelowZero
  | .verbosity => ∃ level inner, (layer.valueOf .verbosity).Holds level inner ∧
      inner.IsObstacle Value.depthLimit level
  | _ => False

/-- One of several settings trips, and those before it pass their checks. -/
def TripsFirst (layer : Layer) (settings : List Setting) : Prop :=
  ∃ before setting after, settings = before ++ setting :: after ∧
    (∀ earlier ∈ before, layer.Accepts earlier) ∧ layer.Trips setting

@[simp] theorem not_tripsFirst_nil : ¬ layer.TripsFirst [] := by
  simp [TripsFirst]

theorem tripsFirst_cons {setting : Setting} {settings : List Setting} :
    layer.TripsFirst (setting :: settings) ↔
      layer.Trips setting ∨ layer.Accepts setting ∧ layer.TripsFirst settings := by
  constructor
  · rintro ⟨before, tripping, after, split, passed, trips⟩
    cases before with
    | nil =>
      cases split
      exact .inl trips
    | cons first before =>
      cases split
      have passes := List.forall_mem_cons.mp passed
      exact .inr ⟨passes.1, before, tripping, after, rfl, passes.2, trips⟩
  · rintro (trips | ⟨passes, before, tripping, after, rfl, passed, trips⟩)
    · exact ⟨[], setting, settings, rfl, nofun, trips⟩
    · exact ⟨setting :: before, tripping, after, rfl, List.forall_mem_cons.mpr ⟨passes, passed⟩, trips⟩

end Layer

namespace Settings

variable {layer : Layer} {setting : Setting} {reason relation : String} {α β : Type}

/-! ## Checks of one setting -/

/-- The check of a setting: it lets the values through that it should, and errs as it should unless the
value trips it. -/
structure Checks (layer : Layer) (setting : Setting) (outcome : Except SettingsError α) : Prop where
  passes : (∃ value, outcome = .ok value) ↔ layer.Accepts setting
  contains : Within SettingsError.IsConfiguration outcome ↔ ¬ layer.Trips setting

/-- A check and then others: the first setting that trips decides. -/
theorem Checks.bind {outcome : Except SettingsError α} {next : α → Except SettingsError β}
    {settings : List Setting} (checks : Checks layer setting outcome)
    (later : ∀ value, Within SettingsError.IsConfiguration (next value) ↔ ¬ layer.TripsFirst settings) :
    Within SettingsError.IsConfiguration (outcome.bind next) ↔
      ¬ layer.TripsFirst (setting :: settings) := by
  simp only [within_bind, checks.contains, later, Layer.tripsFirst_cons, ← checks.passes]
  constructor
  · rintro ⟨safe, goesOn⟩ (trips | ⟨⟨value, passed⟩, trips⟩)
    · exact safe trips
    · exact goesOn value passed trips
  · intro safe
    exact ⟨fun trips => safe (.inl trips), fun value passed trips => safe (.inr ⟨⟨value, passed⟩, trips⟩)⟩

theorem Checks.ok {value : α} (accepts : layer.Accepts setting) (safe : ¬ layer.Trips setting) :
    Checks layer setting (.ok value) :=
  ⟨iff_of_true ⟨value, rfl⟩ accepts, iff_of_true (within_ok value) safe⟩

theorem Checks.mismatch {message : Text} (rejects : ¬ layer.Accepts setting) (safe : ¬ layer.Trips setting) :
    Checks layer setting (.error (.mismatch message) : Except SettingsError α) :=
  ⟨iff_of_false nofun rejects, iff_of_true (within_error.mpr trivial) safe⟩

/-- A refusal trips over a value that cannot be written. -/
theorem Checks.refuse {value : Value} (rejects : ¬ layer.Accepts setting)
    (trips : layer.Trips setting ↔ value.isWritable = false) :
    Checks layer setting (Settings.refuse setting value reason : Except SettingsError α) := by
  refine ⟨iff_of_false nofun rejects, ?_⟩
  simp only [Settings.refuse, throw, throwThe, MonadExceptOf.throw, within_error,
    SettingsError.IsConfiguration, trips, Value.isWritable]
  cases value.obstacle? Value.depthLimit <;> simp [Failure.IsConfiguration]

theorem checks_patterns : Checks layer .scriptPatterns (checkPatterns layer) := by
  simp only [checkPatterns]
  split
  case isTrue given => exact .ok (Bool.or_eq_true_iff.mp given) not_false
  case isFalse missing =>
    rw [Bool.or_eq_true_iff] at missing
    have writable := Value.isWritable_of_not_isTruthy
      (Bool.eq_false_iff.mpr fun given => missing (.inl given))
    exact .refuse missing (by simp [Layer.Trips, writable])

/-- Checking that a value is given trips over none. -/
theorem checks_given (given : layer.Accepts setting ↔ (layer.valueOf setting).isTruthy = true)
    (safe : ¬ layer.Trips setting) : Checks layer setting (checkGiven layer setting reason) := by
  simp only [checkGiven]
  split
  case isTrue found => exact .ok (given.mpr found) safe
  case isFalse missing =>
    have writable := Value.isWritable_of_not_isTruthy (Bool.eq_false_iff.mpr missing)
    exact .refuse (missing ∘ given.mp) (by simp [safe, writable])

/-- A test for low numbers: whole numbers far below zero are low, and the other low values can be
written. -/
structure FindsLow (isLow? : Value → Option Bool) : Prop where
  farBelow : ∀ value, value.IsFarBelowZero → isLow? value = some true
  writes : ∀ value, isLow? value = some true → ¬ value.IsFarBelowZero → value.isWritable = true

theorem findsLow_notPositive : FindsLow notPositive? := by
  constructor
  · rintro value ⟨n, rfl, low⟩
    simp only [notPositive?, Option.some.injEq, decide_eq_true_eq]
    omega
  · intro value low shallow
    cases value with
    | int n => exact (Value.isWritable_int_iff (by simpa [notPositive?] using low)).mpr shallow
    | bool b => rfl
    | float x => rfl
    | none | text | moment | list | table => simp [notPositive?] at low

theorem findsLow_belowOne : FindsLow belowOne? := by
  constructor
  · rintro value ⟨n, rfl, low⟩
    simp only [belowOne?, Option.some.injEq, decide_eq_true_eq]
    omega
  · intro value low shallow
    cases value with
    | int n =>
      have less : n < 1 := by simpa [belowOne?] using low
      exact (Value.isWritable_int_iff (by omega)).mpr shallow
    | bool b => rfl
    | float x => rfl
    | none | text | moment | list | table => simp [belowOne?] at low

theorem checks_number {isLow? : Value → Option Bool} (finds : FindsLow isLow?)
    (accepts : layer.Accepts setting ↔ isLow? (layer.valueOf setting) = some false)
    (trips : layer.Trips setting ↔ (layer.valueOf setting).IsFarBelowZero) :
    Checks layer setting (checkNumber layer setting isLow? relation reason) := by
  have low : layer.Trips setting → isLow? (layer.valueOf setting) = some true :=
    fun tripped => finds.farBelow _ (trips.mp tripped)
  simp only [checkNumber]
  split
  case h_1 unfit => exact .mismatch (by simp [accepts, unfit]) (by simpa [unfit] using low)
  case h_2 found =>
    refine .refuse (by simp [accepts, found]) (trips.trans ⟨Value.IsFarBelowZero.not_isWritable, ?_⟩)
    intro unwritable
    by_contra shallow
    simp [finds.writes _ found shallow] at unwritable
  case h_3 high => exact .ok (accepts.mpr high) (by simpa [high] using low)

theorem checks_aliasTarget : Checks layer .aliasTarget (readAliasTarget layer) := by
  simp only [readAliasTarget]
  split
  case h_1 target is_text =>
    have safe : ¬ layer.Trips .aliasTarget := fun tripped => tripped target is_text
    split
    case isTrue ends => exact .ok ⟨target, is_text, ends⟩ safe
    case isFalse open_ =>
      refine .refuse ?_ (by simp [safe])
      rintro ⟨other, same, ends⟩
      cases is_text.symm.trans same
      exact open_ ends
  case h_2 no_text =>
    refine ⟨iff_of_false nofun ?_, iff_of_false ?_ (not_not_intro fun target => no_text target)⟩
    · rintro ⟨target, is_text, -⟩
      exact no_text target is_text
    · simp [throw, throwThe, MonadExceptOf.throw, SettingsError.IsConfiguration, Failure.IsConfiguration]

theorem ofName?_eq_some {name : Text} {verbosity : Verbosity} :
    Verbosity.ofName? name = some verbosity ↔ name = verbosity.name := by
  constructor
  · intro found
    simpa [eq_comm] using List.find?_some found
  · rintro rfl
    cases verbosity <;> decide

theorem checks_verbosity : Checks layer .verbosity (readVerbosity layer) := by
  simp only [readVerbosity]
  split
  case h_1 verbosity found =>
    obtain ⟨name, named, found⟩ := Option.bind_eq_some_iff.mp found
    cases value : layer.valueOf .verbosity with
    | text t =>
      rw [value] at named
      cases named
      rw [ofName?_eq_some] at found
      refine .ok ⟨verbosity, by rw [value, found]⟩ ?_
      simp only [Layer.Trips, value, ← Value.isWritable_eq_false, Value.isWritable_text, Bool.true_eq_false,
        not_false_eq_true]
    | none | bool | int | float | moment | list | table => simp [value, Value.text?] at named
  case h_2 unknown =>
    refine .refuse ?_ Value.isWritable_eq_false.symm
    rintro ⟨verbosity, named⟩
    rw [named, Value.text?, Option.bind_some, ofName?_eq_some.mpr rfl] at unknown
    cases unknown

theorem checks_backupFolder : Checks layer .backupFolder (readBackupFolder layer) := by
  simp only [readBackupFolder, checkGiven]
  split
  case isTrue given =>
    simp only [bind, Except.bind, pure, Except.pure]
    split
    case h_1 folder is_text =>
      split
      case isTrue rooted =>
        refine .refuse ?_ (by simp [Layer.Trips])
        rintro ⟨other, same, -, relative⟩
        cases is_text.symm.trans same
        simp [relative] at rooted
      case isFalse relative =>
        refine .ok ⟨folder, is_text, ?_, Bool.eq_false_iff.mpr relative⟩ not_false
        simpa [is_text, Value.isTruthy] using given
    case h_2 no_text =>
      refine .mismatch ?_ not_false
      rintro ⟨folder, is_text, -⟩
      exact no_text folder is_text
  case isFalse missing =>
    have writable := Value.isWritable_of_not_isTruthy (Bool.eq_false_iff.mpr missing)
    refine .refuse ?_ (by simp [Layer.Trips, writable])
    rintro ⟨folder, is_text, nonempty, -⟩
    simp [is_text, Value.isTruthy, nonempty] at missing

/-- The backup folder that is accepted has no root. -/
theorem readBackupFolder_relative {folder : Text} (read : readBackupFolder layer = .ok folder) :
    Text.startsWith folder "/" = false := by
  simp only [readBackupFolder, bind, bind_eq_ok] at read
  obtain ⟨-, -, read⟩ := read
  split at read
  case h_1 =>
    split at read
    case isTrue => cases read
    case isFalse relative =>
      cases read
      exact Bool.eq_false_iff.mpr relative
  case h_2 => cases read

/-- The backup folder that is accepted is not empty. -/
theorem readBackupFolder_ne_nil {folder : Text} (read : readBackupFolder layer = .ok folder) : folder ≠ [] := by
  simp only [readBackupFolder, checkGiven, bind, bind_eq_ok] at read
  obtain ⟨passed, given, read⟩ := read
  split at given
  case isFalse => cases given
  case isTrue truthy =>
    split at read
    case h_1 text is_text =>
      split at read
      case isTrue => cases read
      case isFalse =>
        cases read
        simpa [is_text, Value.isTruthy] using truthy
    case h_2 => cases read

/-! ## All checks -/

theorem checkNames_eq_ok : checkNames layer = .ok () ↔ layer.IsNamed := by
  have complete : ∀ setting, setting ∈ Setting.all := by
    intro setting
    cases setting <;> decide
  simp only [checkNames]
  split
  case h_1 item found =>
    refine iff_of_false nofun fun named => ?_
    obtain ⟨setting, same⟩ := named _ (List.mem_of_find?_eq_some found)
    have unknown := List.find?_some found
    simp only [Bool.not_eq_true', List.any_eq_false, decide_eq_true_eq] at unknown
    exact unknown setting (complete setting) same
  case h_2 missing =>
    refine iff_of_true rfl fun item member => ?_
    have known := List.find?_eq_none.mp missing item member
    simp only [Bool.not_eq_true', Bool.not_eq_false, List.any_eq_true, decide_eq_true_eq] at known
    obtain ⟨setting, -, same⟩ := known
    exact ⟨setting, same⟩

theorem checkNames_bind {next : Unit → Except SettingsError β} {settings : List Setting}
    (later : ∀ value, Within SettingsError.IsConfiguration (next value) ↔ ¬ layer.TripsFirst settings) :
    Within SettingsError.IsConfiguration ((checkNames layer).bind next) ↔
      ¬ (layer.IsNamed ∧ layer.TripsFirst settings) := by
  have contained : Within SettingsError.IsConfiguration (checkNames layer) := by
    simp only [checkNames]
    split
    case h_1 => exact within_error.mpr trivial
    case h_2 => exact within_ok ()
  simp only [within_bind, contained, later, true_and, not_and]
  exact ⟨fun goesOn named => goesOn () (checkNames_eq_ok.mpr named),
    fun safe _ passed => safe (checkNames_eq_ok.mp passed)⟩

/-- The settings whose values are checked, in the order of the checks. -/
def checked : List Setting :=
  [.scriptPatterns, .sizeLimit, .aliasStart, .aliasTarget, .workers, .verbosity, .reportFile, .backupFolder]

/-- A layer errs as it should unless a setting trips and all that are checked before it pass. -/
theorem within_ofLayer : Within SettingsError.IsConfiguration (ofLayer layer) ↔
    ¬ (layer.IsNamed ∧ layer.TripsFirst checked) := by
  refine checkNames_bind fun _ => ?_
  refine checks_patterns.bind fun _ => ?_
  refine (checks_number findsLow_notPositive Iff.rfl Iff.rfl).bind fun _ => ?_
  refine (checks_given Iff.rfl id).bind fun _ => ?_
  refine checks_aliasTarget.bind fun target => ?_
  refine (checks_number findsLow_belowOne Iff.rfl Iff.rfl).bind fun _ => ?_
  refine checks_verbosity.bind fun verbosity => ?_
  refine (checks_given Iff.rfl id).bind fun _ => ?_
  refine checks_backupFolder.bind fun folder => ?_
  exact iff_of_true (within_ok _) Layer.not_tripsFirst_nil

theorem backupFolder_relative {settings : Settings} (accepted : ofLayer layer = .ok settings) :
    (Path.Parsed.ofText settings.backupFolder).slashes = 0 := by
  simp only [ofLayer, bind, bind_eq_ok, pure, Except.pure, Except.ok.injEq] at accepted
  obtain ⟨-, -, -, -, -, -, -, -, target, -, -, -, verbosity, -, -, -, folder, read, rfl⟩ := accepted
  have relative := readBackupFolder_relative read
  exact Path.rootSlashes_eq_zero_iff.mpr fun rooted =>
    Bool.eq_false_iff.mp relative (Text.startsWith_singleton.mpr rooted)

theorem backupFolder_ne_nil {settings : Settings} (accepted : ofLayer layer = .ok settings) :
    settings.backupFolder ≠ [] := by
  simp only [ofLayer, bind, bind_eq_ok, pure, Except.pure, Except.ok.injEq] at accepted
  obtain ⟨-, -, -, -, -, -, -, -, target, -, -, -, verbosity, -, -, -, folder, read, rfl⟩ := accepted
  exact readBackupFolder_ne_nil read

theorem within_ofMergedLayer : Within Failure.IsConfiguration (ofMergedLayer layer) ↔
    ¬ (layer.IsNamed ∧ layer.TripsFirst checked) := by
  rw [← within_ofLayer, ofMergedLayer]
  cases ofLayer layer with
  | ok settings => exact iff_of_true (within_ok _) (within_ok _)
  | error trouble =>
    cases trouble with
    | mismatch message => exact iff_of_true (within_error.mpr trivial) (within_error.mpr trivial)
    | failure cause =>
      simp [throw, throwThe, MonadExceptOf.throw, SettingsError.IsConfiguration]

/-! ## Files and variables -/

variable {tree : FileTree} {path : Path.Parsed} {bytes : Bytes}

/-- The bytes are a text, and reading it as TOML is not given up. -/
def Manageable (bytes : Bytes) : Prop :=
  ∃ text, Encoding.decode .utf8 .strict bytes = .ok text ∧
    Toml.read text ≠ .error .tooDeep ∧ Toml.read text ≠ .error .numberTooLong

theorem within_layerOfBytes {shown : Text} :
    Within Failure.IsConfiguration (layerOfBytes shown bytes) ↔ Manageable bytes := by
  simp only [layerOfBytes, Manageable]
  cases decoded : Encoding.decode .utf8 .strict bytes with
  | error trouble => exact iff_of_false (fun contained => contained _ rfl) (by simp)
  | ok text =>
    simp only [Except.ok.injEq, exists_eq_left']
    cases parsed : Toml.read text with
    | error trouble =>
      cases trouble with
      | malformed message position => exact iff_of_true (within_error.mpr trivial) ⟨nofun, nofun⟩
      | numberTooLong => exact iff_of_false (fun contained => contained _ rfl) (by simp)
      | tooDeep => exact iff_of_false (fun contained => contained _ rfl) (by simp)
    | ok members =>
      refine iff_of_true ?_ ⟨nofun, nofun⟩
      dsimp only
      split
      case h_1 => exact within_ok _
      case h_2 => exact within_ok _
      case h_3 => exact within_error.mpr trivial

/-- The name of a settings file is too long, or the file cannot be managed. -/
def Stalls (tree : FileTree) (path : Path.Parsed) : Prop :=
  tree.stat path = .error .nameTooLong ∨ ∃ bytes, tree.content path = .ok bytes ∧ ¬ Manageable bytes

theorem within_layerOfFile : Within Failure.IsConfiguration (layerOfFile tree path) ↔
    ∀ bytes, tree.content path = .ok bytes → Manageable bytes := by
  simp only [layerOfFile]
  cases tree.content path with
  | error fault => exact iff_of_true (within_error.mpr trivial) nofun
  | ok bytes => simp [within_layerOfBytes]

/-- A file is read if there is one. -/
theorem within_layerOr {missing : Except Failure Layer} (contained : Within Failure.IsConfiguration missing) :
    Within Failure.IsConfiguration (layerOr missing tree path) ↔ ¬ Stalls tree path := by
  simp only [layerOr, Stalls]
  cases status : tree.stat path with
  | ok entry => simp [within_layerOfFile]
  | error fault =>
    have unread : ∀ bytes, tree.content path ≠ .ok bytes := by
      simp [FileTree.content_eq_ok, status]
    cases fault with
    | nameTooLong => exact iff_of_false (fun contained => contained _ rfl) (by simp)
    | notFound | alreadyExists | notFolder | isFolder | invalid | busy | denied => simpa [unread] using contained

theorem within_environmentLayer {environment : List (Text × Text)} :
    Within Failure.IsConfiguration (environmentLayer environment) := by
  refine within_bind.mpr ⟨within_mapM fun setting _ => ?_, fun _ _ => within_ok _⟩
  split
  case h_1 => exact within_ok _
  case h_2 =>
    split
    case h_1 => exact within_ok _
    case h_2 => exact within_error.mpr trivial

/-! ## Loading -/

/-- Files that are there and are texts with few brackets and without long numbers do not stall. -/
theorem not_stalls (short : tree.stat path ≠ .error .nameTooLong)
    (plain : ∀ bytes, tree.content path = .ok bytes → ∃ text, Encoding.decode .utf8 .strict bytes = .ok text ∧
      Toml.limits.weight (Toml.dropReturns [] text) ≤ Toml.depthLimit ∧
      ¬ Toml.limits.HasLongNumber (Toml.dropReturns [] text)) : ¬ Stalls tree path := by
  rintro (long | ⟨bytes, stored, unmanageable⟩)
  · exact short long
  · obtain ⟨text, decoded, shallow, noLong⟩ := plain bytes stored
    refine unmanageable ⟨text, decoded, ?_, ?_⟩
    · intro deep
      exact absurd (Toml.read_gives_up.1 deep) (Nat.not_lt.mpr shallow)
    · intro long
      exact noLong (Toml.read_gives_up.2 long)

/-- Only an alias for something that is no text, or a value that cannot be written, trips. -/
theorem trips_cases {settings : List Setting} (trips : layer.TripsFirst settings) :
    (∀ target, layer.valueOf .aliasTarget ≠ .text target) ∨ (layer.valueOf .sizeLimit).isWritable = false ∨
      (layer.valueOf .workers).isWritable = false ∨ (layer.valueOf .verbosity).isWritable = false := by
  obtain ⟨-, setting, -, -, -, trips⟩ := trips
  cases setting with
  | aliasTarget => exact .inl trips
  | sizeLimit => exact .inr (.inl trips.not_isWritable)
  | workers => exact .inr (.inr (.inl trips.not_isWritable))
  | verbosity => exact .inr (.inr (.inr (Value.isWritable_eq_false.mpr trips)))
  | scriptPatterns | stylePatterns | aliasStart | ignoreFiles | ignoreExtensions | ignoreDependencies
  | reportFile | deleteUnused | backupFolder => exact absurd trips id

/-- A project in the folder `p` with a settings file. -/
def settledTree (settings : Bytes) : FileTree where
  here := []
  entries := [([("p" : Text)], .folder), ([("p" : Text), fileName], .file settings)]

end Settings

end Deadwood
