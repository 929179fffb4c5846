import Mathlib.Data.List.Basic
import Mathlib.Data.List.Nodup
import Mathlib.Data.List.Perm.Basic
import Deadwood.Proofs.Text
import Deadwood.Proofs.Usage

/-!
# Histories of a ledger

A ledger is used step by step: resolutions are entered, one or several at a
time, the ledger is closed, and questions are asked in between.  A history of
any length comes down to the resolutions entered in it and to whether the
ledger was closed in it.  So questions leave no trace, and what a closed ledger
says of its files can be read off the history.
-/

namespace Deadwood

/-- A file is ignored: its path in lower case ends in a suffix, or ignore patterns withhold it. -/
inductive Withheld.Ignores (suffixes lines : List Text) (path : Text) : Prop where
  | suffix {suffix : Text} (listed : suffix ∈ suffixes) (ends : suffix <:+ Text.lower path)
  | patterns (ignored : Ignore.isIgnored path lines = .ok true)

/-- With patterns that can be read, every path is either ignored or not. -/
theorem Withheld.holds_of_valid (suffixes : List Text) {lines : List Text}
    {patterns : List Ignore.Pattern} (valid : Ignore.parsePatterns lines = .ok patterns) (path : Text) :
    ∃ answer, { suffixes, lines := .ok lines : Withheld }.holds path = .ok answer ∧
      (answer = true ↔ Withheld.Ignores suffixes lines path) := by
  have decided : Ignore.isIgnored path lines =
      .ok (Ignore.decides patterns (Ignore.relativePath path)) := by
    simp [Ignore.isIgnored, valid, bind, Except.bind, pure, Except.pure]
  have ends : suffixes.any (Text.endsWith (Text.lower path)) = true ↔
      ∃ suffix ∈ suffixes, suffix <:+ Text.lower path := by
    simp only [List.any_eq_true, Text.endsWith_iff]
  by_cases suffixed : suffixes.any (Text.endsWith (Text.lower path)) = true
  · refine ⟨true, by simp [Withheld.holds, suffixed, pure, Except.pure], iff_of_true rfl ?_⟩
    obtain ⟨suffix, listed, closes⟩ := ends.mp suffixed
    exact .suffix listed closes
  · refine ⟨Ignore.decides patterns (Ignore.relativePath path), ?_, ?_⟩
    · simp [Withheld.holds, suffixed, decided, bind, Except.bind]
    · constructor
      · intro withheld
        exact .patterns (by rw [decided, withheld])
      · intro ignores
        cases ignores with
        | suffix listed closes => exact absurd (ends.mpr ⟨_, listed, closes⟩) suffixed
        | patterns ignored =>
          rw [decided] at ignored
          exact Except.ok.inj ignored

namespace Ledger

variable {ledger : Ledger} {path name reason : Text}

/-! ## Entries -/

@[simp] theorem mem_packages_add (ledger : Ledger) (resolution : Resolution) :
    name ∈ (ledger.add resolution).packages ↔
      name ∈ ledger.packages ∨ resolution = .package name := by
  cases resolution with
  | projectFile path => simp [add]
  | package other => simp [add, eq_comm]
  | unresolved text reason => simp [add]

theorem mem_packages_addAll (ledger : Ledger) (resolutions : List Resolution) :
    name ∈ (ledger.addAll resolutions).packages ↔
      name ∈ ledger.packages ∨ .package name ∈ resolutions := by
  induction resolutions generalizing ledger with
  | nil => simp [addAll]
  | cons first rest ih =>
    have later := ih (ledger.add first)
    rw [mem_packages_add, or_assoc] at later
    rw [List.mem_cons, eq_comm]
    exact later

/-- How often a reason was given, not at all if it is not listed. -/
def given (ledger : Ledger) (reason : Text) : Nat :=
  ((ledger.unresolved.find? (·.1 = reason)).map (·.2)).getD 0

/-- Whether a resolution is one that was refused for a reason. -/
def isRefusal (reason : Text) : Resolution → Bool
  | .unresolved _ other => other = reason
  | _ => false

theorem find?_count (given other : Text) (counts : List (Text × Nat)) :
    (((count given counts).find? (·.1 = other)).map (·.2)).getD 0 =
      ((counts.find? (·.1 = other)).map (·.2)).getD 0 + if given = other then 1 else 0 := by
  induction counts with
  | nil =>
    by_cases same : given = other
    · simp [count, same]
    · simp [count, same]
  | cons first rest ih =>
    obtain ⟨known, n⟩ := first
    by_cases hit : known = given
    · by_cases same : given = other
      · simp [count, hit, same]
      · simp [count, hit, same]
    · by_cases found : known = other
      · subst found
        simp [count, hit, Ne.symm hit]
      · simpa [count, hit, found] using ih

theorem given_add (ledger : Ledger) (resolution : Resolution) :
    (ledger.add resolution).given reason =
      ledger.given reason + if isRefusal reason resolution then 1 else 0 := by
  cases resolution with
  | projectFile path => simp [given, add, isRefusal]
  | package name => simp [given, add, isRefusal]
  | unresolved text other => simp [given, add, isRefusal, find?_count]

/-- After a run of entries, a reason was given once more for each refusal with it. -/
theorem given_addAll (ledger : Ledger) (resolutions : List Resolution) :
    (ledger.addAll resolutions).given reason =
      ledger.given reason + resolutions.countP (isRefusal reason) := by
  induction resolutions generalizing ledger with
  | nil => simp [addAll]
  | cons first rest ih =>
    have later := ih (ledger.add first)
    rw [given_add] at later
    rw [List.countP_cons, Nat.add_comm (List.countP _ rest), ← Nat.add_assoc]
    exact later

@[simp] theorem complete_addAll (ledger : Ledger) (resolutions : List Resolution) :
    (ledger.addAll resolutions).complete = ledger.complete := by
  induction resolutions generalizing ledger with
  | nil => rfl
  | cons first rest ih =>
    refine (ih (ledger.add first)).trans ?_
    cases first <;> rfl

theorem addAll_append (ledger : Ledger) (first second : List Resolution) :
    ledger.addAll (first ++ second) = (ledger.addAll first).addAll second :=
  List.foldl_append

theorem close_close (ledger : Ledger) : ledger.close.close = ledger.close := rfl

/-- Closing a ledger before or after entries is the same. -/
theorem close_addAll (ledger : Ledger) (resolutions : List Resolution) :
    ledger.close.addAll resolutions = (ledger.addAll resolutions).close := by
  induction resolutions generalizing ledger with
  | nil => rfl
  | cons first rest ih =>
    have closed : ledger.close.add first = (ledger.add first).close := by
      cases first <;> rfl
    change (ledger.close.add first).addAll rest = _
    rw [closed]
    exact ih (ledger.add first)

@[simp] theorem mem_importedFiles :
    path ∈ ledger.importedFiles ↔ path ∈ ledger.referenced ∧ path ∈ ledger.files := by
  simp [importedFiles]

theorem mem_imports : path ∈ ledger.imports ↔ path ∈ ledger.referenced ∨ path ∈ ledger.packages := by
  simp [imports, mem_foldl_insert]

/-! ## Histories -/

/-- What can be asked of a ledger. -/
inductive Question where
  | files
  | importedFiles
  | imports
  | referenced
  | packages
  | unresolved
  | complete
  | unusedFiles
  deriving DecidableEq, Repr

/-- What a ledger answers. -/
inductive Answer where
  | texts (texts : List Text)
  | counts (counts : List (Text × Nat))
  | flag (value : Bool)
  /-- Nothing was asked. -/
  | done

/-- The answer to a question. -/
def answer (ledger : Ledger) : Question → Except Failure Answer
  | .files => pure (.texts ledger.files)
  | .importedFiles => pure (.texts ledger.importedFiles)
  | .imports => pure (.texts ledger.imports)
  | .referenced => pure (.texts ledger.referenced)
  | .packages => pure (.texts ledger.packages)
  | .unresolved => pure (.counts ledger.unresolved)
  | .complete => pure (.flag ledger.complete)
  | .unusedFiles => Answer.texts <$> ledger.unusedFiles

/-- What can be done with a ledger. -/
inductive Operation where
  | add (resolution : Resolution)
  | addAll (resolutions : List Resolution)
  | close
  | ask (question : Question)
  deriving DecidableEq, Repr

/-- One operation: the ledger afterwards, and its answer. -/
def perform (ledger : Ledger) : Operation → Ledger × Except Failure Answer
  | .add resolution => (ledger.add resolution, pure .done)
  | .addAll resolutions => (ledger.addAll resolutions, pure .done)
  | .close => (ledger.close, pure .done)
  | .ask question => (ledger, ledger.answer question)

/-- The ledger after a history of operations. -/
def after (ledger : Ledger) (operations : List Operation) : Ledger :=
  operations.foldl (fun ledger operation => (ledger.perform operation).1) ledger

/-- The resolutions that an operation enters. -/
def Operation.entries : Operation → List Resolution
  | .add resolution => [resolution]
  | .addAll resolutions => resolutions
  | .close | .ask _ => []

/-- The ledger that was closed, if it was. -/
def closedIf (ledger : Ledger) (closes : Bool) : Ledger := if closes then ledger.close else ledger

theorem perform_eq (ledger : Ledger) (operation : Operation) :
    (ledger.perform operation).1 = (ledger.addAll operation.entries).closedIf (operation = .close) := by
  cases operation <;> rfl

/-- A history comes down to its entries, and to whether the ledger was closed in it. -/
theorem after_eq (ledger : Ledger) (operations : List Operation) :
    ledger.after operations =
      (ledger.addAll (operations.flatMap Operation.entries)).closedIf
        (decide (.close ∈ operations)) := by
  induction operations generalizing ledger with
  | nil => rfl
  | cons first rest ih =>
    have later := ih (ledger.perform first).1
    change (ledger.perform first).1.after rest = _
    rw [later, perform_eq, List.flatMap_cons, addAll_append]
    by_cases closing : first = .close
    · subst closing
      by_cases again : Operation.close ∈ rest
      · simp [closedIf, again, close_addAll, close_close]
      · simp [closedIf, again, close_addAll]
    · have other : Operation.close ≠ first := fun equal => closing equal.symm
      simp [closedIf, closing, other]

theorem close_after (ledger : Ledger) (operations : List Operation) :
    (ledger.after operations).close =
      (ledger.addAll (operations.flatMap Operation.entries)).close := by
  rw [after_eq, closedIf]
  split <;> rfl

@[simp] theorem files_after (ledger : Ledger) (operations : List Operation) :
    (ledger.after operations).files = ledger.files := by
  rw [after_eq, closedIf]
  split <;> simp [close]

@[simp] theorem withheld_after (ledger : Ledger) (operations : List Operation) :
    (ledger.after operations).withheld = ledger.withheld := by
  rw [after_eq, closedIf]
  split <;> simp [close]

theorem mem_referenced_after (ledger : Ledger) (operations : List Operation) :
    path ∈ (ledger.after operations).referenced ↔ path ∈ ledger.referenced ∨
      .projectFile path ∈ operations.flatMap Operation.entries := by
  rw [← mem_referenced_addAll, after_eq, closedIf]
  split <;> rfl

theorem given_after (ledger : Ledger) (operations : List Operation) :
    (ledger.after operations).given reason = ledger.given reason +
      (operations.flatMap Operation.entries).countP (isRefusal reason) := by
  rw [← given_addAll, after_eq, closedIf]
  split <;> rfl

theorem complete_after (ledger : Ledger) (operations : List Operation) :
    (ledger.after operations).complete = true ↔
      ledger.complete = true ∨ Operation.close ∈ operations := by
  rw [after_eq, closedIf]
  by_cases closes : Operation.close ∈ operations
  · simp [closes, close]
  · simp [closes]

/-! ## What a closed ledger says of its files -/

theorem answer_eq_error {failure : Failure} :
    ledger.answer .unusedFiles = .error failure ↔ ledger.unusedFiles = .error failure := by
  cases reported : ledger.unusedFiles <;> simp [answer, reported, Functor.map, Except.map]

theorem answer_eq_texts {unused : List Text} :
    ledger.answer .unusedFiles = .ok (.texts unused) ↔ ledger.unusedFiles = .ok unused := by
  cases reported : ledger.unusedFiles <;> simp [answer, reported, Functor.map, Except.map]

theorem unusedFiles_eq_incomplete : ledger.unusedFiles = .error .incomplete ↔ ledger.complete = false := by
  cases closed : ledger.complete with
  | false => simp [unusedFiles, closed, throw, throwThe, MonadExceptOf.throw]
  | true =>
    simp only [unusedFiles, closed, Bool.not_true, Bool.false_eq_true, if_false, reduceCtorEq,
      iff_false]
    split <;> simp [pure, Except.pure, throw, throwThe, MonadExceptOf.throw]

section Valid

variable {suffixes lines : List Text} {patterns : List Ignore.Pattern}

/-- A closed ledger whose patterns can be read reports its unused files. -/
theorem exists_unusedFiles (valid : Ignore.parsePatterns lines = .ok patterns)
    (withheld : ledger.withheld = { suffixes, lines := .ok lines }) (closed : ledger.complete = true) :
    ∃ unused, ledger.unusedFiles = .ok unused := by
  have tested : ∀ path, ∃ passed,
      ((!·) <$> ledger.withheld.holds path : Except Fault Bool) = .ok passed := by
    intro path
    obtain ⟨answer, held, -⟩ := Withheld.holds_of_valid suffixes valid path
    exact ⟨!answer, by rw [withheld, held]; rfl⟩
  obtain ⟨kept, filtered⟩ := Outcome.exists_filterM
    (ledger.files.filter (!ledger.referenced.contains ·)) fun path _ => tested path
  refine ⟨kept, ?_⟩
  simp only [unusedFiles, closed, Bool.not_true, Bool.false_eq_true, if_false]
  rw [filtered]
  rfl

theorem mem_unusedFiles_of_valid (valid : Ignore.parsePatterns lines = .ok patterns)
    (withheld : ledger.withheld = { suffixes, lines := .ok lines }) {unused : List Text}
    (reported : ledger.unusedFiles = .ok unused) (path : Text) :
    path ∈ unused ↔ path ∈ ledger.files ∧ path ∉ ledger.referenced ∧
      ¬ Withheld.Ignores suffixes lines path := by
  obtain ⟨answer, held, ignores⟩ := Withheld.holds_of_valid suffixes valid path
  rw [mem_unusedFiles reported, withheld, held, ← ignores]
  simp

/-- What becomes of a file: it is imported, reported as unused, or ignored though nothing refers to
it. -/
inductive Standing where
  | imported
  | unused
  | ignored
  deriving DecidableEq, Repr

/-- A file has a standing, given the files reported as unused. -/
def HasStanding (ledger : Ledger) (suffixes lines unused : List Text) (path : Text) : Standing → Prop
  | .imported => path ∈ ledger.importedFiles
  | .unused => path ∈ unused
  | .ignored => path ∉ ledger.referenced ∧ Withheld.Ignores suffixes lines path

theorem existsUnique_standing (valid : Ignore.parsePatterns lines = .ok patterns)
    (withheld : ledger.withheld = { suffixes, lines := .ok lines }) {unused : List Text}
    (reported : ledger.unusedFiles = .ok unused) (listed : path ∈ ledger.files) :
    ∃! standing, ledger.HasStanding suffixes lines unused path standing := by
  have members := mem_unusedFiles_of_valid valid withheld reported path
  by_cases referenced : path ∈ ledger.referenced
  · refine ⟨.imported, mem_importedFiles.mpr ⟨referenced, listed⟩, ?_⟩
    intro standing holds
    cases standing with
    | imported => rfl
    | unused => exact absurd referenced (members.mp holds).2.1
    | ignored => exact absurd referenced holds.1
  · by_cases ignores : Withheld.Ignores suffixes lines path
    · refine ⟨.ignored, ⟨referenced, ignores⟩, ?_⟩
      intro standing holds
      cases standing with
      | imported => exact absurd (mem_importedFiles.mp holds).1 referenced
      | unused => exact absurd ignores (members.mp holds).2.2
      | ignored => rfl
    · refine ⟨.unused, members.mpr ⟨listed, referenced, ignores⟩, ?_⟩
      intro standing holds
      cases standing with
      | imported => exact absurd (mem_importedFiles.mp holds).1 referenced
      | unused => rfl
      | ignored => exact absurd holds.2 ignores

/-- Whatever is done with a closed ledger, fewer files are reported later, and more are imported. -/
theorem after_shrinks_unused (valid : Ignore.parsePatterns lines = .ok patterns)
    (withheld : ledger.withheld = { suffixes, lines := .ok lines }) (closed : ledger.complete = true)
    {unused : List Text} (reported : ledger.unusedFiles = .ok unused) (more : List Operation) :
    ∃ fewer, (ledger.after more).unusedFiles = .ok fewer ∧ fewer ⊆ unused ∧
      ledger.importedFiles ⊆ (ledger.after more).importedFiles := by
  have later : (ledger.after more).withheld = { suffixes, lines := .ok lines } := by
    rw [withheld_after, withheld]
  obtain ⟨fewer, stillReported⟩ :=
    exists_unusedFiles valid later ((complete_after ledger more).mpr (.inl closed))
  refine ⟨fewer, stillReported, ?_, ?_⟩
  · intro path member
    rw [mem_unusedFiles_of_valid valid later stillReported, files_after, mem_referenced_after] at member
    rw [mem_unusedFiles_of_valid valid withheld reported]
    exact ⟨member.1, fun referenced => member.2.1 (.inl referenced), member.2.2⟩
  · intro path member
    rw [mem_importedFiles] at member ⊢
    rw [mem_referenced_after, files_after]
    exact ⟨.inl member.1, member.2⟩

end Valid

/-- After any history, asking changes nothing, and the unused files are refused exactly as long as the
ledger was not closed.  From then on every file has one standing, the reported files and the imported
ones are files of the ledger without any in common, and whatever is done later only takes files from
the former and adds to the latter.  Each reason counts the refusals entered with it. -/
theorem history_settles_files {lines : List Text} {patterns : List Ignore.Pattern}
    (files suffixes : List Text) (valid : Ignore.parsePatterns lines = .ok patterns)
    (operations : List Operation) :
    let ledger := (start files { suffixes, lines := .ok lines }).after operations
    (∀ question, (ledger.perform (.ask question)).1 = ledger) ∧
    ((ledger.perform (.ask .unusedFiles)).2 = .error .incomplete ↔ .close ∉ operations) ∧
    (.close ∈ operations → ∃ unused,
      (ledger.perform (.ask .unusedFiles)).2 = .ok (.texts unused) ∧
      (∀ path ∈ files, ∃! standing, ledger.HasStanding suffixes lines unused path standing) ∧
      unused ⊆ files ∧ ledger.importedFiles ⊆ files ∧ unused.Disjoint ledger.importedFiles ∧
      ∀ more, ∃ fewer,
        ((ledger.after more).perform (.ask .unusedFiles)).2 = .ok (.texts fewer) ∧
        fewer ⊆ unused ∧ ledger.importedFiles ⊆ (ledger.after more).importedFiles) ∧
    ∀ reason, ledger.given reason =
      (operations.flatMap Operation.entries).countP (isRefusal reason) := by
  intro ledger
  have withheld : ledger.withheld = { suffixes, lines := .ok lines } := withheld_after _ operations
  have listed : ∀ path, path ∈ ledger.files ↔ path ∈ files := by
    intro path
    rw [files_after, mem_files_start]
  have closed : ledger.complete = true ↔ Operation.close ∈ operations := by
    rw [complete_after]
    exact or_iff_right Bool.false_ne_true
  refine ⟨fun question => rfl, ?_, ?_, ?_⟩
  · rw [← closed, Bool.not_eq_true, ← unusedFiles_eq_incomplete]
    exact answer_eq_error
  · intro closes
    obtain ⟨unused, reported⟩ := exists_unusedFiles valid withheld (closed.mpr closes)
    have members := mem_unusedFiles_of_valid valid withheld reported
    refine ⟨unused, answer_eq_texts.mpr reported, ?_, ?_, ?_, ?_, ?_⟩
    · intro path member
      exact existsUnique_standing valid withheld reported ((listed path).mpr member)
    · intro path member
      exact (listed path).mp ((members path).mp member).1
    · intro path member
      exact (listed path).mp (mem_importedFiles.mp member).2
    · intro path member imported
      exact ((members path).mp member).2.1 (mem_importedFiles.mp imported).1
    · intro more
      obtain ⟨fewer, stillReported, shrinks, grows⟩ :=
        after_shrinks_unused valid withheld (closed.mpr closes) reported more
      exact ⟨fewer, answer_eq_texts.mpr stillReported, shrinks, grows⟩
  · intro reason
    rw [given_after]
    exact Nat.zero_add _

/-- Files that are asked for too early, and an import entered after closing: a module is imported, one
is reported, and two are ignored, by a suffix and by a pattern. -/
theorem history_settles_files_late :
    let files := ["a.ts", "b.ts", "c.less", "gen/d.ts"].map Text.ofString
    let operations : List Operation := [.ask .unusedFiles, .add (.unresolved "~x" "external"), .close,
      .addAll [.projectFile "a.ts", .package "react"]]
    let ledger := (start files { suffixes := [".less"], lines := .ok ["gen/"] }).after operations
    (Ignore.parsePatterns ["gen/"]).toOption.isSome = true ∧
    (∃ unused, (ledger.perform (.ask .unusedFiles)).2 = .ok (.texts unused) ∧
      ∀ path ∈ files, ∃! standing, ledger.HasStanding [".less"] ["gen/"] unused path standing) ∧
    ledger.given "external" = 1 := by
  intro files operations ledger
  have readable : (Ignore.parsePatterns ["gen/"]).toOption.isSome = true := by decide
  obtain ⟨patterns, read⟩ := Option.isSome_iff_exists.mp readable
  obtain ⟨-, -, settled, counted⟩ :=
    history_settles_files files [".less"] (Outcome.toOption_eq_some.mp read) operations
  obtain ⟨unused, reported, standing, -⟩ := settled (by decide)
  exact ⟨readable, ⟨unused, reported, standing⟩, (counted "external").trans (by decide)⟩

end Ledger

end Deadwood
