import Deadwood.Manifest
import Deadwood.Report
import Deadwood.Proofs.ForkJoin
import Deadwood.Proofs.ImportedPackage
import Deadwood.Proofs.JsonText
import Deadwood.Proofs.TextFile

/-!
# Reports as JSON

The JSON text of a report can be written as UTF-8 and is read back as the lists
of the report under their names.  Each list is sorted and as long as the set that
it shows.  It repeats a name exactly if two texts of the set are shown alike,
which needs a name that is no text.
-/

namespace Deadwood

/-! ## Code points of a JSON text -/

theorem Text.all_joinWith {ok : Codepoint → Prop} {separator : Text} {texts : List Text}
    (between : ∀ c ∈ separator, ok c) (each : ∀ text ∈ texts, ∀ c ∈ text, ok c) :
    ∀ c ∈ joinWith separator texts, ok c := by
  induction texts with
  | nil => exact List.forall_mem_nil ok
  | cons first rest ih =>
    obtain ⟨own, others⟩ := List.forall_mem_cons.mp each
    cases rest with
    | nil => simpa [joinWith] using own
    | cons next rest =>
      have cut : joinWith separator (first :: next :: rest) =
          first ++ (separator ++ joinWith separator (next :: rest)) := by
        simp [joinWith, List.intercalate]
      rw [cut, List.forall_mem_append, List.forall_mem_append]
      exact ⟨own, between, ih others⟩

namespace Json

section

variable {ok : Codepoint → Prop} (plain : ∀ c : Char, c ≠ '\r' → ok (Codepoint.char c))

include plain

theorem all_ofChars {cs : List Char} (free : '\r' ∉ cs) : ∀ c ∈ Text.ofChars cs, ok c := by
  intro c member
  obtain ⟨c, inside, rfl⟩ := List.mem_map.mp member
  exact plain c fun same => free (same ▸ inside)

theorem all_escapeCodepoint {d : Codepoint} (own : d ≠ Codepoint.char '\r' → ok d) :
    ∀ c ∈ escapeCodepoint d, ok c := by
  rcases escapeCodepoint_cases d with ⟨e, escape, written⟩ | ⟨control, written⟩ | ⟨-, -, control, written⟩
  · have free : '\r' ∉ ['\\', e] := by
      intro member
      obtain rfl : '\r' = e := by simpa using member
      cases escape
    rw [written]
    exact all_ofChars plain free
  · have free : ∀ n < 0x20, '\r' ∉ ['\\', 'u', '0', '0', (n / 16).digitChar, (n % 16).digitChar] := by decide
    rw [written, hexDigits_four control]
    exact all_ofChars plain (free d.value control)
  · have other : d ≠ Codepoint.char '\r' := by
      rintro rfl
      exact control (by decide)
    rw [written]
    exact List.forall_mem_singleton.mpr (own other)

theorem all_renderString {text : Text} (own : ∀ c ∈ text, c ≠ Codepoint.char '\r' → ok c) :
    ∀ c ∈ renderString text, ok c := by
  have quote : ok (Codepoint.char '\x22') := plain '\x22' (by decide)
  have inside : ∀ c ∈ text.flatMap escapeCodepoint, ok c := by
    intro c member
    obtain ⟨d, belongs, escaped⟩ := List.mem_flatMap.mp member
    exact all_escapeCodepoint plain (own d belongs) c escaped
  simp only [renderString, List.forall_mem_append, List.forall_mem_cons]
  exact ⟨⟨quote, inside⟩, quote, List.forall_mem_nil ok⟩

theorem all_renderStrings {indent : Text} (indented : ∀ c ∈ indent, ok c) {texts : List Text}
    (own : ∀ text ∈ texts, ∀ c ∈ text, c ≠ Codepoint.char '\r' → ok c) :
    ∀ c ∈ renderStrings indent texts, ok c := by
  have literal (s : String) (free : '\r' ∉ s.toList) : ∀ c ∈ Text.ofString s, ok c := all_ofChars plain free
  unfold renderStrings
  split
  · exact literal "[]" (by decide)
  · have lines : ∀ c ∈ Text.joinWith ",\n" (texts.map fun text => indent ++ "  " ++ renderString text), ok c := by
      apply Text.all_joinWith (literal ",\n" (by decide))
      intro line member
      obtain ⟨text, belongs, rfl⟩ := List.mem_map.mp member
      simp only [List.forall_mem_append]
      exact ⟨⟨indented, literal "  " (by decide)⟩, all_renderString plain (own text belongs)⟩
    simp only [List.forall_mem_append]
    exact ⟨⟨⟨⟨literal "[\n" (by decide), lines⟩, literal "\n" (by decide)⟩, indented⟩, literal "]" (by decide)⟩

theorem all_renderLists {members : List (Text × List Text)}
    (own : ∀ member ∈ members, ∀ text ∈ member.1 :: member.2, ∀ c ∈ text, c ≠ Codepoint.char '\r' → ok c) :
    ∀ c ∈ renderLists members, ok c := by
  have literal (s : String) (free : '\r' ∉ s.toList) : ∀ c ∈ Text.ofString s, ok c := all_ofChars plain free
  have blanks := literal "  " (by decide)
  have lines : ∀ c ∈ Text.joinWith ",\n" (members.map fun member => "  " ++ memberText member), ok c := by
    apply Text.all_joinWith (literal ",\n" (by decide))
    intro line listed
    obtain ⟨member, belongs, rfl⟩ := List.mem_map.mp listed
    obtain ⟨name, texts⟩ := List.forall_mem_cons.mp (own member belongs)
    simp only [memberText, List.forall_mem_append]
    exact ⟨blanks, ⟨all_renderString plain name, literal ": " (by decide)⟩, all_renderStrings plain blanks texts⟩
  simp only [renderLists_eq, List.forall_mem_append]
  exact ⟨⟨literal "\x7b\n" (by decide), lines⟩, literal "\n\x7d" (by decide)⟩

end

end Json

/-! ## The lists of a report -/

namespace Report

open Encoding

/-- The sets of a report under the names of their lists. -/
def sets (report : Report) : List (Text × List Text) :=
  ("imports", report.imports) :: ("dependencies", report.packages) :: ("unused_imports", report.unused) ::
    (report.unusedDeclared.map fun names => (Text.ofString "unused_dependencies", names)).toList

theorem sections_eq (report : Report) :
    report.sections = report.sets.map fun set => (set.1, shown set.2) := by
  rw [sections, sets]
  cases report.unusedDeclared <;> rfl

variable {texts : List Text}

theorem shown_perm (texts : List Text) : (shown texts).Perm (texts.map Text.display) :=
  List.mergeSort_perm _ _

theorem length_shown (texts : List Text) : (shown texts).length = texts.length := by
  rw [(shown_perm texts).length_eq, List.length_map]

theorem hasSurrogate_of_mem_shown {text : Text} (member : text ∈ shown texts) :
    text.hasSurrogate = false := by
  obtain ⟨path, -, rfl⟩ := List.mem_map.mp ((shown_perm texts).mem_iff.mp member)
  exact Text.hasSurrogate_display path

/-- The names of the lists are texts. -/
theorem hasSurrogate_of_mem_sets {report : Report} {set : Text × List Text} (member : set ∈ report.sets) :
    set.1.hasSurrogate = false := by
  rw [sets] at member
  cases declared : report.unusedDeclared with
  | none =>
    simp only [declared, Option.map_none, Option.toList_none, List.mem_cons, List.not_mem_nil, or_false] at member
    rcases member with rfl | rfl | rfl <;> rfl
  | some names =>
    simp only [declared, Option.map_some, Option.toList_some, List.mem_cons, List.not_mem_nil, or_false] at member
    rcases member with rfl | rfl | rfl | rfl <;> rfl

theorem return_not_mem_toJson (report : Report) : Codepoint.char '\r' ∉ report.toJson := by
  have all : ∀ c ∈ report.toJson, c ≠ Codepoint.char '\r' := by
    apply Json.all_renderLists
    · intro c other same
      exact other (Codepoint.char.inj same)
    · intro member _ text _ c _ other
      exact other
  intro member
  exact all _ member rfl

theorem hasSurrogate_toJson (report : Report) : report.toJson.hasSurrogate = false := by
  apply List.any_eq_false.mpr
  apply Json.all_renderLists
  · intro c _
    exact Bool.false_ne_true
  · intro member belongs text inside c contained _
    rw [sections_eq] at belongs
    obtain ⟨set, known, rfl⟩ := List.mem_map.mp belongs
    have named := hasSurrogate_of_mem_sets known
    have free : text.hasSurrogate = false := by
      rcases List.mem_cons.mp inside with rfl | listed
      · exact named
      · exact hasSurrogate_of_mem_shown listed
    exact List.any_eq_false.mp free c contained

/-- The text of a report can be written as UTF-8.  Read as a manifest is read, it gives the sets of the report
as they are shown, and the declared packages that are unused if and only if they are known. -/
theorem toJson_reads_back (report : Report) :
    let members := report.sets.map fun set => (set.1, Json.array ((shown set.2).map Json.string))
    report.toJson.hasSurrogate = false ∧
    (∃ chars, report.toJson.chars? = some chars ∧
      decode .utf8 .strict (utf8 chars) = .ok report.toJson ∧
      ∀ path, Manifest.read path (utf8 chars) =
        (Manifest.declared (.object members)).mapError (Failure.badManifest path)) ∧
    Json.read (unifyLines report.toJson) = .ok (.object members) ∧
    Json.member? "unused_dependencies" members =
      report.unusedDeclared.map fun names => .array ((shown names).map .string) := by
  intro members
  have read : Json.read (unifyLines report.toJson) = .ok (.object members) := by
    rw [unifyLines_of_free report.return_not_mem_toJson, toJson, Json.read_renderLists, sections_eq, List.map_map]
    rfl
  obtain ⟨chars, written⟩ := Text.exists_ofChars report.hasSurrogate_toJson
  have decoded : decode .utf8 .strict (utf8 chars) = .ok report.toJson := by
    rw [decode_strict_utf8, written]
  refine ⟨report.hasSurrogate_toJson, ⟨chars, ?_, decoded, ?_⟩, read, ?_⟩
  · rw [written, Script.chars?_ofChars]
  · intro path
    simp only [Manifest.read, decoded, read]
  · simp only [members, sets]
    cases report.unusedDeclared <;> rfl

end Report

/-! ## Reports of runs -/

theorem Outcome.sublist_of_filterM {α ε : Type} {test : α → Except ε Bool} {xs kept : List α}
    (ran : xs.filterM test = .ok kept) : kept.Sublist xs := by
  have looped : ∀ before reversed, xs.filterAuxM test before = .ok reversed →
      reversed.reverse.Sublist (before.reverse ++ xs) := by
    clear ran
    induction xs with
    | nil =>
      intro before reversed done
      cases done
      simp
    | cons x xs ih =>
      intro before reversed done
      simp only [List.filterAuxM, bind, bind_eq_ok] at done
      obtain ⟨passed, -, later⟩ := done
      have rest := ih _ _ later
      cases passed with
      | true => simpa using rest
      | false => exact rest.trans ((List.sublist_cons_self x xs).append_left before.reverse)
  simp only [List.filterM, bind, bind_eq_ok, pure, Except.pure, Except.ok.injEq] at ran
  obtain ⟨reversed, found, rfl⟩ := ran
  exact looped [] reversed found

theorem Ledger.nodup_unusedFiles {ledger : Ledger} {unused : List Text} (files : ledger.files.Nodup)
    (reported : ledger.unusedFiles = .ok unused) : unused.Nodup := by
  rw [unusedFiles] at reported
  split at reported
  case isTrue => cases reported
  case isFalse =>
    dsimp only at reported
    split at reported
    case h_1 kept filtered =>
      cases reported
      exact (files.filter _).sublist (Outcome.sublist_of_filterM filtered)
    case h_2 => cases reported

/-- Names that are loaded are read from the bytes of the manifest. -/
theorem Manifest.exists_read_of_load {tree : FileTree} {root : Path.Parsed} {names : List Text}
    (loaded : (load tree root).result = .ok (some names)) : ∃ path bytes, read path bytes = .ok names := by
  dsimp only [load] at loaded
  split at loaded
  case h_1 =>
    split at loaded
    case h_1 bytes content =>
      simp only [Noted.result_lift, Outcome.map_eq_ok, Option.some.injEq] at loaded
      obtain ⟨_, done, rfl⟩ := loaded
      exact ⟨_, bytes, done⟩
    case h_2 => cases loaded
  case h_2 => cases loaded
  case h_3 => cases loaded

theorem Manifest.nodup_of_load {tree : FileTree} {root : Path.Parsed} {names : List Text}
    (loaded : (load tree root).result = .ok (some names)) : names.Nodup := by
  have declares (value : Json) (listed : declared value = .ok names) : names.Nodup := by
    cases value with
    | object members =>
      simp only [declared, bind, Outcome.bind_eq_ok, pure, Except.pure, Except.ok.injEq] at listed
      obtain ⟨found, -, rfl⟩ := listed
      exact Text.nodup_of_pairwise (Text.pairwise_sortedSet _)
    | _ => cases listed
  obtain ⟨path, bytes, done⟩ := exists_read_of_load loaded
  rw [read] at done
  split at done
  case h_1 => cases done
  case h_2 text decoded =>
    dsimp only at done
    split at done
    case h_4 value parsed => exact declares value (Outcome.mapError_eq_ok.mp done)
    all_goals cases done

namespace Analysis

variable {tree after : FileTree} {path root : Path.Parsed} {settings : Settings} {report : Report}

theorem nodup_unusedDependencies {used names : List Text}
    (compared : (unusedDependencies tree root settings used).result = .ok (some names)) : names.Nodup := by
  simp only [unusedDependencies, Noted.result_bind, Outcome.result_outcome, Except.bind] at compared
  split at compared
  case h_1 => cases compared
  case h_2 declared loaded =>
    simp only [Noted.result_bind, Outcome.bind_eq_ok, Outcome.liftFault_eq_ok] at compared
    simp only [bind, Outcome.bind_eq_ok] at compared
    obtain ⟨unused, ⟨values, -, listed⟩, done⟩ := compared
    cases done
    have distinct := Manifest.nodup_of_load loaded
    rw [unusedDeclared] at listed
    split at listed
    case h_1 =>
      cases listed
      exact distinct.filter _
    case h_2 =>
      dsimp only at listed
      split at listed
      case isTrue =>
        cases listed
        exact List.nodup_nil
      case isFalse => cases listed
  case h_3 => cases compared
  case h_4 => cases compared

theorem nodup_of_entered {files : List Text} {resolutions : List Resolution} {ledger : Ledger}
    (entered : ledgerOf settings files resolutions = .ok ledger) :
    ledger.files.Nodup ∧ ledger.referenced.Nodup ∧ ledger.packages.Nodup := by
  simp only [ledgerOf, bind, Outcome.bind_eq_ok, pure, Except.pure, Except.ok.injEq] at entered
  obtain ⟨suffixes, -, lines, -, rfl⟩ := entered
  refine ⟨?_, Ledger.nodup_addAll _ List.nodup_nil List.nodup_nil resolutions⟩
  simp only [Ledger.close, Ledger.files_addAll]
  exact Ledger.nodup_foldl_insert List.nodup_nil files

/-- The lists in the report of a run hold each text once. -/
theorem nodup_sets_of_run (ran : (run tree path settings).result = .ok (report, after)) :
    ∀ set ∈ report.sets, set.2.Nodup := by
  obtain ⟨_, _, _, _, -, -, -, -, compared⟩ := declared_of_run ran
  obtain ⟨_, _, _, ledger, unused, declared, _, -, -, -, entered, reported, rfl⟩ := report_eq ran
  obtain ⟨files, referenced, packages⟩ := nodup_of_entered entered
  intro set member
  simp only [Report.sets, List.mem_cons, Option.mem_toList, Option.map_eq_some_iff] at member
  rcases member with rfl | rfl | rfl | ⟨names, known, rfl⟩
  · exact Ledger.nodup_foldl_insert referenced _
  · exact packages
  · exact Ledger.nodup_unusedFiles files reported
  · rw [known] at compared
    exact nodup_unusedDependencies compared

end Analysis

/-! ## Names shown once -/

namespace Report

open Encoding

variable {texts : List Text}

/-- No two different texts are shown alike. -/
def Apart (texts : List Text) : Prop :=
  ∀ text ∈ texts, ∀ other ∈ texts, text.display = other.display → text = other

/-- A list in strictly increasing order. -/
def IsIncreasing (texts : List Text) : Prop :=
  texts.Pairwise fun earlier later => Text.compare earlier later = .lt

theorem isIncreasing_shown_iff (distinct : texts.Nodup) : IsIncreasing (shown texts) ↔ Apart texts := by
  constructor
  · intro increasing text member other belongs
    have nodup := (shown_perm texts).nodup_iff.mp (Text.nodup_of_pairwise increasing)
    exact List.inj_on_of_nodup_map nodup member belongs
  · intro apart
    exact Text.pairwise_mergeSort_of_nodup (distinct.map_on apart)

theorem apart_of_free (free : ∀ text ∈ texts, text.hasSurrogate = false) : Apart texts := by
  intro text member other belongs same
  rwa [Text.display_of_free (free text member), Text.display_of_free (free other belongs)] at same

theorem apart_of_names (names : ∀ text ∈ texts, ∃ bytes, 0x5C ∉ bytes ∧ text = decodeUtf8 .escape bytes) :
    Apart texts := by
  intro text member other belongs same
  obtain ⟨bytes, free, rfl⟩ := names text member
  obtain ⟨others, freely, rfl⟩ := names other belongs
  rw [Text.bytes_eq_of_display_eq free freely same]

theorem apart_iff_bytes (free : ∀ text ∈ texts, Codepoint.char '\\' ∉ text) :
    Apart texts ↔ ∀ text ∈ texts, ∀ other ∈ texts, ∀ bytes,
      encodeEscaped? text = some bytes → encodeEscaped? other = some bytes → text = other := by
  constructor
  · intro apart text member other belongs bytes encoded same
    apply apart text member other belongs
    rw [Text.display_of_bytes encoded, Text.display_of_bytes same]
  · intro apart text member other belongs same
    rcases (Text.display_eq_iff (free text member) (free other belongs)).mp same with equal | ⟨bytes, first, second⟩
    · exact equal
    · exact apart text member other belongs bytes first second

/-- Each list of a report is sorted and as long as the set that it shows.  It repeats no name exactly if no two
texts of the set are shown alike.  That is so for texts, for file names without a backslash, and for anything
without one unless two texts stand for the same bytes. -/
theorem lists_increasing_iff (report : Report) :
    (∀ tree path settings after, (Analysis.run tree path settings).result = .ok (report, after) →
      ∀ set ∈ report.sets, set.2.Nodup) ∧
    ((∀ set ∈ report.sets, set.2.Nodup) →
      report.sections = report.sets.map (fun set => (set.1, shown set.2)) ∧
      Json.read report.toJson = .ok (.object (report.sections.map Json.memberValue)) ∧
      ∀ set ∈ report.sets,
        (shown set.2).length = set.2.length ∧
        (shown set.2).Perm (set.2.map Text.display) ∧
        ((shown set.2).Pairwise fun earlier later => Text.le earlier later = true) ∧
        (IsIncreasing (shown set.2) ↔ Apart set.2) ∧
        ((∀ text ∈ set.2, text.hasSurrogate = false) → IsIncreasing (shown set.2)) ∧
        ((∀ text ∈ set.2, ∃ bytes, 0x5C ∉ bytes ∧ text = decodeUtf8 .escape bytes) →
          IsIncreasing (shown set.2)) ∧
        ((∀ text ∈ set.2, Codepoint.char '\\' ∉ text) →
          (IsIncreasing (shown set.2) ↔ ∀ text ∈ set.2, ∀ other ∈ set.2, ∀ bytes,
            encodeEscaped? text = some bytes → encodeEscaped? other = some bytes → text = other))) := by
  refine ⟨fun tree path settings after => Analysis.nodup_sets_of_run, ?_⟩
  intro distinct
  refine ⟨report.sections_eq, Json.read_renderLists report.sections, ?_⟩
  intro set member
  have apart := isIncreasing_shown_iff (distinct set member)
  refine ⟨length_shown set.2, shown_perm set.2, Text.pairwise_mergeSort _, apart, ?_, ?_, ?_⟩
  · intro free
    exact apart.mpr (apart_of_free free)
  · intro names
    exact apart.mpr (apart_of_names names)
  · intro free
    exact apart.trans (apart_iff_bytes free)

/-- The names of three files; the first two are no text. -/
def strayNames : List Bytes := [[0x61, 0xFF], [0xFE], [0x61]]

/-- A report of files whose names are no text. -/
def strayReport : Report where
  imports := []
  packages := []
  unused := strayNames.map (decodeUtf8 .escape)

/-- Names that are no text are shown in order and apart. -/
theorem lists_increasing_iff_stray : (∀ set ∈ strayReport.sets, set.2.Nodup) ∧
    IsIncreasing (shown strayReport.unused) ∧ (shown strayReport.unused).length = 3 := by
  have distinct : ∀ set ∈ strayReport.sets, set.2.Nodup := by decide +kernel
  have listed : (Text.ofString "unused_imports", strayReport.unused) ∈ strayReport.sets := by decide +kernel
  have free : ∀ bytes ∈ strayNames, 0x5C ∉ bytes := by decide
  obtain ⟨-, -, lists⟩ := (lists_increasing_iff strayReport).2 distinct
  obtain ⟨length, -, -, -, -, names, -⟩ := lists _ listed
  refine ⟨distinct, names ?_, length⟩
  intro text member
  obtain ⟨bytes, known, rfl⟩ := List.mem_map.mp member
  exact ⟨bytes, free bytes known, rfl⟩

open Analysis (sampleRoot sampleRun sampleRun_ended ended run)

/-- Two files: one is named by the byte `ff`, which is no text, and one by the mark of that byte. -/
def twinTree : FileTree where
  here := []
  entries := [(["p"], .folder), (["p", "src"], .folder),
    (["p", "src", escapeByte 0xFF :: (".ts" : Text)], .file { bytes := [] }),
    (["p", "src", "\\xff.ts"], .file { bytes := [] })]

/-- The two files of the tree, in order. -/
def twins : List Text := ["src/\\xff.ts", ("src/" : Text) ++ escapeByte 0xFF :: (".ts" : Text)]

set_option maxRecDepth 100000 in
theorem sampleRun_twins : sampleRun twinTree [] (ended fun _ _ report _ => report.unused) = some (some twins) := by
  simp only [sampleRun, Analysis.run, Analysis.ledgerOf, Discovery.scan, Discovery.select,
    Settings.ignoredSuffixes, Text.sortedSet, Text.mergeSort_eq_insertionSort]
  decide +kernel

/-- Two different unused files are listed under one name. -/
theorem run_repeats_name : ∃ settings report after, Settings.ofLayer [] = .ok settings ∧
    (run twinTree sampleRoot settings).result = .ok (report, after) ∧ report.unused = twins ∧
    (∀ set ∈ report.sets, set.2.Nodup) ∧
    (Text.ofString "unused_imports", [Text.ofString "src/\\xff.ts", Text.ofString "src/\\xff.ts"]) ∈ report.sections ∧
    ¬ IsIncreasing (shown report.unused) := by
  obtain ⟨settings, -, report, after, accepted, -, ran, unused⟩ := sampleRun_ended sampleRun_twins
  have repeated : shown twins = ["src/\\xff.ts", "src/\\xff.ts"] := by
    rw [shown, Text.mergeSort_eq_insertionSort]
    decide +kernel
  refine ⟨settings, report, after, accepted, ran, unused, Analysis.nodup_sets_of_run ran, ?_, ?_⟩
  · rw [sections, unused, repeated]
    simp
  · rw [unused, repeated]
    intro increasing
    cases Text.nodup_of_pairwise increasing with
    | cons apart _ => exact apart _ List.mem_cons_self rfl

end Report

end Deadwood
