import Deadwood.Ignore
import Deadwood.Proofs.Discovery
import Deadwood.Proofs.Glob

/-!
# Settings that can be used

Settings are checked before a run, but some of their values are only used in the
middle of it: a pattern when it is searched for, the size limit when a file is
found, an ignore line when a file is left over.  The module says for each of
them which values can be used, and for ignore lines gives a condition that is
easy to see.
-/

namespace Deadwood

/-! ## Kinds of values -/

namespace Value

variable {value : Value}

/-- Whether a value is of a kind; a whole number is good for a decimal one, too. -/
def isOfKind : Value → SettingKind → Bool
  | .list items, .texts => items.all (·.text?.isSome)
  | .float _, .decimal => true
  | .int _, .decimal => true
  | .text _, .text => true
  | .bool _, .switch => true
  | .int _, .whole => true
  | _, _ => false

theorem exists_texts_of_all {items : List Value} (all : items.all (·.text?.isSome) = true) :
    ∃ texts : List Text, items = texts.map Value.text := by
  induction items with
  | nil => exact ⟨[], rfl⟩
  | cons item rest ih =>
    rw [List.all_cons, Bool.and_eq_true] at all
    obtain ⟨texts, later⟩ := ih all.2
    cases item with
    | text first => exact ⟨first :: texts, by rw [later, List.map_cons]⟩
    | _ => cases all.1

theorem exists_texts (kind : value.isOfKind .texts = true) : ∃ texts, value = .texts texts := by
  cases value with
  | list items =>
    obtain ⟨texts, same⟩ := exists_texts_of_all kind
    exact ⟨texts, by rw [same, Value.texts]⟩
  | _ => cases kind

theorem exists_text (kind : value.isOfKind .text = true) : ∃ text, value = .text text := by
  cases value with
  | text text => exact ⟨text, rfl⟩
  | _ => cases kind

end Value

/-- All values of a layer, its defaults included, are of the kinds that their settings ask for. -/
def Layer.IsTyped (layer : Layer) : Prop :=
  ∀ setting ∈ Setting.all, (layer.valueOf setting).isOfKind setting.kind = true

instance (layer : Layer) : Decidable layer.IsTyped := inferInstanceAs (Decidable (∀ _ ∈ _, _))

namespace Settings

variable {settings : Settings} {layer : Layer}

/-- The values that a run uses are of the kinds that it asks for. -/
structure IsTyped (settings : Settings) : Prop where
  scriptPatterns : ∃ texts, settings.scriptPatterns = .texts texts
  stylePatterns : ∃ texts, settings.stylePatterns = .texts texts
  sizeLimit : settings.sizeLimit.isOfKind .decimal = true
  aliasStart : ∃ text, settings.aliasStart = .text text
  ignoreFiles : ∃ texts, settings.ignoreFiles = .texts texts
  ignoreExtensions : ∃ texts, settings.ignoreExtensions = .texts texts

theorem isTyped_of_layer (typed : layer.IsTyped) (accepted : ofLayer layer = .ok settings) :
    settings.IsTyped := by
  simp only [ofLayer, bind, Outcome.bind_eq_ok, pure, Except.pure, Except.ok.injEq] at accepted
  obtain ⟨-, -, -, -, -, -, -, -, target, -, -, -, verbosity, -, -, -, folder, -, rfl⟩ := accepted
  constructor
  · exact Value.exists_texts (typed .scriptPatterns (by decide))
  · exact Value.exists_texts (typed .stylePatterns (by decide))
  · exact typed .sizeLimit (by decide)
  · exact Value.exists_text (typed .aliasStart (by decide))
  · exact Value.exists_texts (typed .ignoreFiles (by decide))
  · exact Value.exists_texts (typed .ignoreExtensions (by decide))

end Settings

/-! ## The size limit -/

/-- A finite number that stays one when it is taken `2 ^ 20` times. -/
def Binary64.Scales : Binary64 → Prop
  | .nan => False
  | .infinite _ => False
  | .finite _ mantissa exponent => exponent + 20 ≤ greatestExponent ∨ mantissa < Nat.pow 2 52

instance (number : Binary64) : Decidable number.Scales :=
  match number with
  | .nan => inferInstanceAs (Decidable False)
  | .infinite _ => inferInstanceAs (Decidable False)
  | .finite _ _ _ => inferInstanceAs (Decidable (_ ∨ _))

theorem Settings.exists_maxBytes_iff {settings : Settings}
    (typed : settings.sizeLimit.isOfKind .decimal = true) :
    (∃ most, settings.maxBytes = .ok most) ↔
      ∀ number, settings.sizeLimit = .float number → number.Scales := by
  rw [Settings.maxBytes]
  cases limit : settings.sizeLimit with
  | int number => simp [pure, Except.pure]
  | float number =>
    simp only [Value.float.injEq, forall_eq']
    cases number with
    | nan => simp [Binary64.Scales, throw, throwThe, MonadExceptOf.throw]
    | infinite negative => simp [Binary64.Scales, throw, throwThe, MonadExceptOf.throw]
    | finite negative mantissa exponent =>
      simp only [Binary64.Scales]
      split
      case isTrue exceeds =>
        rw [Bool.and_eq_true, decide_eq_true_eq, decide_eq_true_eq] at exceeds
        apply iff_of_false (by simp [throw, throwThe, MonadExceptOf.throw])
        omega
      case isFalse fits =>
        rw [Bool.and_eq_true, decide_eq_true_eq, decide_eq_true_eq] at fits
        apply iff_of_true ⟨_, rfl⟩
        omega
  | _ =>
    rw [limit] at typed
    cases typed

/-! ## Patterns -/

namespace GlobSegment

variable {name pattern : Text}

/-- Two stars in a row stand only in a segment of their own. -/
def IsStarred (name : Text) : Prop := ("**" : Text) <:+: name → name = ("**" : Text)

instance (name : Text) : Decidable (IsStarred name) := inferInstanceAs (Decidable (_ → _))

theorem exists_ofName_iff : (∃ segment, ofName name = .ok segment) ↔ IsStarred name := by
  simp only [ofName, IsStarred, ← Text.contains_iff]
  split
  case isTrue alone => exact iff_of_true ⟨_, rfl⟩ fun _ => alone
  case isFalse others =>
    split
    case isTrue holds =>
      apply iff_of_false (by simp [throw, throwThe, MonadExceptOf.throw])
      intro starred
      exact others (starred holds)
    case isFalse free =>
      apply iff_of_true
      · split
        · exact ⟨_, rfl⟩
        · exact ⟨_, rfl⟩
      · intro holds
        exact absurd holds free

/-- A pattern that can be read: a relative path of some segments, but not too many, and two stars only by
themselves. -/
structure IsRelative (pattern : Text) : Prop where
  nonempty : pattern ≠ []
  unrooted : pattern.head? ≠ some Path.slash
  named : Path.properSegments pattern ≠ []
  few : (Path.properSegments pattern).length ≤ segmentLimit
  starred : ∀ name ∈ Path.properSegments pattern, IsStarred name

instance (pattern : Text) : Decidable (IsRelative pattern) :=
  decidable_of_iff (pattern ≠ [] ∧ pattern.head? ≠ some Path.slash ∧ Path.properSegments pattern ≠ [] ∧
    (Path.properSegments pattern).length ≤ segmentLimit ∧ ∀ name ∈ Path.properSegments pattern, IsStarred name)
    ⟨fun ⟨nonempty, unrooted, named, few, starred⟩ => ⟨nonempty, unrooted, named, few, starred⟩,
      fun relative => ⟨relative.nonempty, relative.unrooted, relative.named, relative.few, relative.starred⟩⟩

theorem exists_ofText_iff : (∃ segments, ofText pattern = .ok segments) ↔ IsRelative pattern := by
  constructor
  · rintro ⟨segments, read⟩
    obtain ⟨few, spelled, mapped, -⟩ := ofText_eq_ok read
    simp only [ofText] at read
    split at read
    case isTrue => cases read
    case isFalse nonempty =>
      split at read
      case isTrue => cases read
      case isFalse rooted =>
        split at read
        case isTrue => split at read <;> cases read
        case isFalse named =>
          refine ⟨nonempty, Path.rootSlashes_eq_zero_iff.mp (not_not.mp rooted), named, few, ?_⟩
          intro name member
          exact exists_ofName_iff.mp (Outcome.exists_of_mapM mapped member)
  · intro relative
    have level : (Path.Parsed.ofText pattern).slashes = 0 :=
      Path.rootSlashes_eq_zero_iff.mpr relative.unrooted
    have named : (Path.Parsed.ofText pattern).names ≠ [] := relative.named
    have few : (Path.Parsed.ofText pattern).names.length ≤ segmentLimit := relative.few
    obtain ⟨spelled, mapped⟩ : ∃ spelled, (Path.Parsed.ofText pattern).names.mapM ofName = .ok spelled := by
      apply Outcome.exists_mapM_iff.mpr
      intro name member
      exact exists_ofName_iff.mpr (relative.starred name member)
    simp only [ofText, relative.nonempty, level, named, List.take_of_length_le few, mapped, Nat.not_lt.mpr few, bind,
      Except.bind, if_false, ne_eq, not_true_eq_false]
    exact ⟨_, rfl⟩

end GlobSegment

namespace Discovery

variable {tree : FileTree} {root : Path.Parsed} {folder pattern : Text} {patterns : Value}

/-- A pattern that can be searched for below a root: it can be read, and every place on the way of the search can be
asked about. -/
structure IsSearchable (tree : FileTree) (root : Path.Parsed) (pattern : Text) : Prop extends
    GlobSegment.IsRelative pattern where
  askable : ∀ segments, GlobSegment.ofText pattern = .ok segments →
    ∀ visit ∈ tree.visits (locationOf tree root) segments, visit.fault? root = none

theorem exists_search_iff :
    (∃ paths, search tree root (.text pattern) = .ok paths) ↔ IsSearchable tree root pattern := by
  constructor
  · rintro ⟨paths, searched⟩
    obtain ⟨segments, read, askable, -⟩ := search_eq_ok.mp searched
    refine ⟨GlobSegment.exists_ofText_iff.mp ⟨segments, read⟩, ?_⟩
    intro others again
    cases read.symm.trans again
    exact askable
  · intro searchable
    obtain ⟨segments, read⟩ := GlobSegment.exists_ofText_iff.mpr searchable.toIsRelative
    exact ⟨_, search_eq_ok.mpr ⟨segments, read, searchable.askable segments read, rfl⟩⟩

/-- Patterns select files exactly if each of them can be searched for. -/
theorem exists_select_iff (typed : ∃ texts, patterns = .texts texts) :
    (∃ paths, select tree root folder patterns = .ok paths) ↔
      ∀ values, patterns.items = .ok values → ∀ pattern, .text pattern ∈ values →
        IsSearchable tree root pattern := by
  obtain ⟨texts, given⟩ := typed
  have items : patterns.items = .ok (texts.map Value.text) := by
    rw [given]
    rfl
  have searched : (∃ found, (texts.map Value.text).mapM (search tree root) = .ok found) ↔
      ∀ pattern ∈ texts, IsSearchable tree root pattern := by
    rw [Outcome.exists_mapM_iff, List.forall_mem_map]
    simp only [exists_search_iff]
  have members : ∀ pattern, Value.text pattern ∈ texts.map Value.text ↔ pattern ∈ texts := by
    simp
  simp only [items, Except.ok.injEq, forall_eq', members, ← searched]
  simp only [select, items, bind, Outcome.bind_eq_ok, Except.ok.injEq, exists_eq_left']
  constructor
  · rintro ⟨paths, found, mapped, -⟩
    exact ⟨found, mapped⟩
  · rintro ⟨found, mapped⟩
    exact ⟨_, found, mapped, rfl⟩

end Discovery

/-! ## Ignore lines -/

namespace Ignore

variable {line segment body : Text} {lines segments : List Text}

/-- A line that can be read as an ignore pattern; blank lines are passed over. -/
def IsReadable (line : Text) : Prop :=
  Text.trim line ≠ [] → ∃ pattern, parsePattern (Text.trim line) = .ok pattern

theorem exists_parsePatterns_iff :
    (∃ patterns, parsePatterns lines = .ok patterns) ↔ ∀ line ∈ lines, IsReadable line := by
  have each : (∃ read, ((lines.map Text.trim).filter (· ≠ [])).mapM parsePattern = .ok read) ↔
      ∀ line ∈ lines, IsReadable line := by
    simp only [Outcome.exists_mapM_iff, List.mem_filter, List.mem_map, and_imp, forall_exists_index,
      forall_apply_eq_imp_iff₂, decide_eq_true_eq, IsReadable]
  rw [← each]
  simp only [parsePatterns, bind, Outcome.bind_eq_ok]
  constructor
  · rintro ⟨patterns, read, mapped, -⟩
    exact ⟨read, mapped⟩
  · rintro ⟨read, mapped⟩
    exact ⟨_, read, mapped, rfl⟩

/-- A text without escapes and brackets. -/
structure IsPlain (text : Text) : Prop where
  unescaped : Codepoint.char '\\' ∉ text
  unbracketed : Codepoint.char '[' ∉ text

theorem IsPlain.mono {text other : Text} (plain : IsPlain text) (subset : ∀ c ∈ other, c ∈ text) :
    IsPlain other := by
  constructor
  · intro member
    exact plain.unescaped (subset _ member)
  · intro member
    exact plain.unbracketed (subset _ member)

/-- Pieces of a pattern none of which is a bracket still to be read. -/
def AllRead (outcome : Except SegmentFault (List (Except (Bool × Text) Piece))) : Prop :=
  ∃ pieces : List Piece, outcome = .ok (pieces.map .ok)

theorem AllRead.bind {first : Except SegmentFault (List (Except (Bool × Text) Piece))}
    {next : List (Except (Bool × Text) Piece) → Except SegmentFault (List (Except (Bool × Text) Piece))}
    (head : AllRead first) (tail : ∀ pieces : List Piece, AllRead (next (pieces.map .ok))) :
    AllRead (first >>= next) := by
  obtain ⟨pieces, rfl⟩ := head
  exact tail pieces

theorem allRead_segmentPieces (plain : IsPlain segment) : AllRead (segmentPieces 0 segment) := by
  induction segment with
  | nil => exact ⟨[], rfl⟩
  | cons c rest ih =>
    have later : AllRead (segmentPieces 0 rest) := ih (plain.mono fun _ => List.mem_cons_of_mem c)
    have added : ∀ piece : Piece,
        AllRead (do pure (.ok piece :: (← segmentPieces 0 rest))) := by
      intro piece
      apply later.bind
      intro pieces
      exact ⟨piece :: pieces, rfl⟩
    have unescaped : c ≠ Codepoint.char '\\' := by
      rintro rfl
      exact plain.unescaped List.mem_cons_self
    have unbracketed : c ≠ Codepoint.char '[' := by
      rintro rfl
      exact plain.unbracketed List.mem_cons_self
    rw [segmentPieces.eq_def]
    simp only [unescaped, if_false]
    split
    · exact added .run
    · split
      · exact added .any
      · exact added (.one c)

/-- Plain segments are read, one after the other. -/
theorem allRead_piecesOf (folderOnly first named : Bool) (plain : ∀ segment ∈ segments, IsPlain segment) :
    AllRead (piecesOf folderOnly first named segments) := by
  induction segments generalizing first named with
  | nil => exact ⟨[], rfl⟩
  | cons segment more ih =>
    obtain ⟨head, tail⟩ := List.forall_mem_cons.mp plain
    rw [piecesOf]
    split
    · split
      · apply (ih false false tail).bind
        intro pieces
        exact ⟨.folders :: pieces, rfl⟩
      · split
        · exact ⟨[.inside folderOnly], rfl⟩
        · apply (ih false true tail).bind
          intro pieces
          exact ⟨.below :: pieces, rfl⟩
    · have optional : ∀ (test : Prop) [Decidable test] (piece : Piece), ∃ pieces : List Piece,
          (if test then [Except.ok piece] else ([] : List (Except (Bool × Text) Piece))) =
            pieces.map .ok := by
        intro test _ piece
        split
        · exact ⟨[piece], rfl⟩
        · exact ⟨[], rfl⟩
      obtain ⟨lead, leads⟩ := optional (named = true) .slash
      obtain ⟨last, lasts⟩ := optional (more = []) .close
      have joined : ∀ body : List Piece, AllRead (do
          let later ← piecesOf folderOnly false true more
          pure (lead.map .ok ++ body.map .ok ++ last.map .ok ++ later)) := by
        intro body
        apply (ih false true tail).bind
        intro pieces
        exact ⟨lead ++ body ++ last ++ pieces, by simp [pure, Except.pure]⟩
      simp only [leads, lasts]
      split
      · exact joined [.any, .run]
      · apply (allRead_segmentPieces head).bind
        intro body
        exact joined body

theorem mem_anchorSegments (member : segment ∈ anchorSegments segments) :
    segment = doubleStar ∨ segment ∈ segments := by
  rw [anchorSegments.eq_def] at member
  split at member
  case h_1 rest => exact .inr (List.mem_cons_of_mem _ member)
  case h_2 one => grind
  case h_3 one => grind
  case h_4 => exact .inr member

theorem mem_closeSegments (member : segment ∈ closeSegments segments) :
    segment = doubleStar ∨ segment ∈ segments := by
  rw [closeSegments] at member
  split at member
  · rcases List.mem_append.mp member with inside | last
    · exact .inr (List.mem_of_mem_dropLast inside)
    · exact .inl (List.mem_singleton.mp last)
  · exact .inr member

theorem mem_collapseStars (member : segment ∈ collapseStars segments) : segment ∈ segments := by
  induction segments with
  | nil => exact member
  | cons first rest ih =>
    simp only [collapseStars, List.foldr_cons] at member
    split at member
    · exact List.mem_cons_of_mem first (ih member)
    · rcases List.mem_cons.mp member with same | later
      · exact same ▸ List.mem_cons_self
      · exact List.mem_cons_of_mem first (ih later)

/-- The segments of a pattern are those between its slashes, and pairs of stars. -/
theorem mem_normalSegments {folderOnly : Bool} (normal : normalSegments body = some (segments, folderOnly))
    (member : segment ∈ segments) : segment = doubleStar ∨ segment ∈ Text.splitOn '/' body := by
  simp only [normalSegments] at normal
  split at normal
  case isTrue => cases normal
  case isFalse =>
    cases normal
    rcases mem_closeSegments (mem_collapseStars member) with stars | anchored
    · exact .inl stars
    · exact mem_anchorSegments anchored

theorem normalSegments_ne_none (nonempty : body ≠ []) : normalSegments body ≠ none := by
  intro nothing
  simp only [normalSegments] at nothing
  split at nothing
  case isFalse => cases nothing
  case isTrue empty =>
    -- Only what is between no slashes at all can be without segments.
    have alone : Text.splitOn '/' body = [[]] := by
      have some := Text.splitOn_ne_nil '/' body
      rw [anchorSegments.eq_def] at empty
      split at empty <;> grind
    have whole := Text.joinWith_splitOn '/' body
    rw [alone] at whole
    exact nonempty whole.symm

theorem isPlain_of_normalSegments {folderOnly : Bool} (plain : IsPlain body)
    (normal : normalSegments body = some (segments, folderOnly)) :
    ∀ segment ∈ segments, IsPlain segment := by
  intro segment member
  rcases mem_normalSegments normal member with stars | part
  · rw [stars]
    exact ⟨by decide, by decide⟩
  · apply plain.mono
    intro c inside
    exact Text.mem_of_mem_splitOn part inside

theorem exists_formOf (folderOnly : Bool) (plain : ∀ segment ∈ segments, IsPlain segment) :
    ∃ form, formOf segments folderOnly = .ok form := by
  simp only [formOf]
  split
  · exact ⟨_, rfl⟩
  · split
    · exact ⟨_, rfl⟩
    · split
      · exact ⟨_, rfl⟩
      · obtain ⟨pieces, read⟩ := allRead_piecesOf folderOnly true false plain
        have finished : ∃ all, (pieces.map Except.ok).mapM finishPiece = .ok all := by
          rw [Outcome.exists_mapM_iff, List.forall_mem_map]
          intro piece _
          exact ⟨piece, rfl⟩
        obtain ⟨all, finished⟩ := finished
        exact ⟨some (.pieces all), by simp [read, finished, bind, Except.bind, pure, Except.pure]⟩

/-- A plain pattern is read, unless nothing is left of it behind the mark that takes back others. -/
theorem exists_parsePattern (plain : IsPlain line) (nonempty : line ≠ []) (worded : line ≠ "!") :
    ∃ pattern, parsePattern line = .ok pattern := by
  rw [parsePattern]
  split
  case isTrue => exact ⟨none, rfl⟩
  case isFalse =>
    have whole : (if !Text.startsWith line "!" then line else line.drop 1) ≠ [] := by
      split
      case isTrue => exact nonempty
      case isFalse marked =>
        obtain ⟨rest, rfl⟩ := Text.startsWith_iff.mp (by simpa using marked)
        intro nothing
        apply worded
        simp_all [Text.ofString]
    have kept : IsPlain (if !Text.startsWith line "!" then line else line.drop 1) := by
      apply plain.mono
      intro c member
      split at member
      · exact member
      · exact List.mem_of_mem_drop member
    cases normal : normalSegments (if !Text.startsWith line "!" then line else line.drop 1) with
    | none => exact absurd normal (normalSegments_ne_none whole)
    | some found =>
      obtain ⟨form, formed⟩ := exists_formOf found.2 (isPlain_of_normalSegments kept normal)
      simp only [normal, formed, bind, Except.bind]
      exact ⟨_, rfl⟩

/-- A plain line can be read unless it is a mere mark. -/
theorem IsPlain.isReadable (plain : IsPlain line) (worded : Text.trim line ≠ "!") : IsReadable line := by
  intro nonblank
  apply exists_parsePattern _ nonblank worded
  apply plain.mono
  intro c member
  exact Text.mem_of_mem_trim member

end Ignore

end Deadwood
