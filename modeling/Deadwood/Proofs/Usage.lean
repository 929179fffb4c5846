import Deadwood.Proofs.Outcome
import Deadwood.Usage

/-!
# What a ledger knows

A ledger is built by entering resolutions one after the other.  Its referenced
files are exactly those that were entered, whatever the order, and a closed
ledger reports exactly the scanned files that were neither entered nor
withheld.
-/

namespace Deadwood.Ledger

variable {ledger : Ledger} {path : Text}

/-! ## Entering resolutions -/

@[simp] theorem mem_insert {texts : List Text} {text : Text} :
    path ∈ insert texts text ↔ path ∈ texts ∨ path = text := by
  simp only [insert]
  split
  case isTrue present =>
    have member : text ∈ texts := by simpa using present
    constructor
    · exact .inl
    · rintro (old | rfl)
      · exact old
      · exact member
  case isFalse => simp

theorem mem_foldl_insert {texts found : List Text} :
    path ∈ texts.foldl insert found ↔ path ∈ found ∨ path ∈ texts := by
  induction texts generalizing found with
  | nil => simp
  | cons text rest ih => simp [ih, or_assoc]

@[simp] theorem mem_files_start (files : List Text) (withheld : Withheld) :
    path ∈ (start files withheld).files ↔ path ∈ files := by
  simp [start, mem_foldl_insert]

@[simp] theorem files_add (ledger : Ledger) (resolution : Resolution) :
    (ledger.add resolution).files = ledger.files := by
  cases resolution <;> rfl

@[simp] theorem withheld_add (ledger : Ledger) (resolution : Resolution) :
    (ledger.add resolution).withheld = ledger.withheld := by
  cases resolution <;> rfl

@[simp] theorem mem_referenced_add (ledger : Ledger) (resolution : Resolution) :
    path ∈ (ledger.add resolution).referenced ↔
      path ∈ ledger.referenced ∨ resolution = .projectFile path := by
  cases resolution with
  | projectFile other => simp [add, eq_comm]
  | package name => simp [add]
  | unresolved text reason => simp [add]

@[simp] theorem files_addAll (ledger : Ledger) (resolutions : List Resolution) :
    (ledger.addAll resolutions).files = ledger.files := by
  induction resolutions generalizing ledger with
  | nil => rfl
  | cons first rest ih => exact (ih (ledger.add first)).trans (files_add ledger first)

@[simp] theorem withheld_addAll (ledger : Ledger) (resolutions : List Resolution) :
    (ledger.addAll resolutions).withheld = ledger.withheld := by
  induction resolutions generalizing ledger with
  | nil => rfl
  | cons first rest ih => exact (ih (ledger.add first)).trans (withheld_add ledger first)

/-- After a run of entries, the referenced files are those before and those entered. -/
theorem mem_referenced_addAll (ledger : Ledger) (resolutions : List Resolution) :
    path ∈ (ledger.addAll resolutions).referenced ↔
      path ∈ ledger.referenced ∨ .projectFile path ∈ resolutions := by
  induction resolutions generalizing ledger with
  | nil => simp [addAll]
  | cons first rest ih =>
    have later := ih (ledger.add first)
    rw [mem_referenced_add, or_assoc] at later
    rw [List.mem_cons, eq_comm]
    exact later

/-! ## Unused files -/

theorem mem_unusedFiles {unused : List Text} (reported : ledger.unusedFiles = .ok unused) :
    path ∈ unused ↔ path ∈ ledger.files ∧ path ∉ ledger.referenced ∧
      ledger.withheld.holds path ≠ .ok true := by
  simp only [unusedFiles] at reported
  split at reported
  case isTrue => cases reported
  case isFalse =>
    split at reported
    case h_2 => cases reported
    case h_1 kept filtered =>
      cases reported
      obtain ⟨members, tested⟩ := Outcome.mem_of_filterM filtered
      rw [members, List.mem_filter]
      constructor
      · rintro ⟨⟨scanned, unreferenced⟩, passed⟩
        refine ⟨scanned, by simpa using unreferenced, ?_⟩
        intro held
        simp [held, Functor.map, Except.map] at passed
      · rintro ⟨scanned, unreferenced, free⟩
        have candidate : path ∈ ledger.files.filter (!ledger.referenced.contains ·) := by
          simpa using ⟨scanned, unreferenced⟩
        refine ⟨⟨scanned, by simpa using unreferenced⟩, ?_⟩
        -- No test failed, so a file that is not withheld has passed.
        obtain ⟨passed, outcome⟩ := tested path candidate
        cases held : ledger.withheld.holds path with
        | error fault => simp [held, Functor.map, Except.map] at outcome
        | ok answer =>
          cases answer with
          | true => exact absurd held free
          | false => rfl

end Deadwood.Ledger
