import Deadwood.Proofs.Selection
import Deadwood.Proofs.UsableSettings

/-!
# Laws of ignore patterns

A pattern is matched code point by code point, with searches for the folders
that it may start in.  For a pattern without wildcards, on a path without line
feeds, the matching comes down to the segments of the two: a single name is
looked for among all segments, a name with a closing slash among the folders,
and a longer pattern is a beginning of the path.  A path as a pattern matches
itself and not as a folder above, so at the end of a list it decides.
-/

namespace Deadwood

/-! ## Beginnings and ends of paths -/

namespace Path

variable {names others : List Text} {front rest : Text}

/-- Where a slash stands in a path, names end and others begin. -/
theorem join_eq_append_slash (named : ∀ name ∈ names, IsName name) (nonempty : names ≠ []) :
    join names = front ++ slash :: rest ↔
      ∃ above below, names = above ++ below ∧ above ≠ [] ∧ below ≠ [] ∧ front = join above ∧ rest = join below := by
  constructor
  · intro split
    have parts := segments_join nonempty named
    rw [split, segments, Text.splitOn_append_separator] at parts
    exact ⟨_, _, parts.symm, Text.splitOn_ne_nil slash front, Text.splitOn_ne_nil slash rest,
      (Text.joinWith_splitOn slash front).symm, (Text.joinWith_splitOn slash rest).symm⟩
  · rintro ⟨above, below, rfl, first, second, rfl, rfl⟩
    exact join_append first second

theorem join_injective (named : ∀ name ∈ names, IsName name) (nonempty : names ≠ [])
    (other : ∀ name ∈ others, IsName name) (present : others ≠ []) (equal : join names = join others) :
    names = others := by
  rw [← segments_join nonempty named, equal, segments_join present other]

/-- Names begin a path exactly if their text does, up to the end of a segment. -/
theorem prefix_iff_join (named : ∀ name ∈ names, IsName name) (nonempty : names ≠ [])
    (other : ∀ name ∈ others, IsName name) (present : others ≠ []) :
    names <+: others ↔ ∃ rest, join others = join names ++ rest ∧ (rest = [] ∨ rest.head? = some slash) := by
  constructor
  · rintro ⟨below, rfl⟩
    by_cases last : below = []
    · exact ⟨[], by simp [last], .inl rfl⟩
    · exact ⟨slash :: join below, join_append nonempty last, .inr rfl⟩
  · rintro ⟨rest, split, rfl | further⟩
    · rw [List.append_nil] at split
      rw [join_injective other present named nonempty split]
    · obtain ⟨more, rfl⟩ := List.head?_eq_some_iff.mp further
      obtain ⟨above, below, parts, first, -, same, -⟩ := (join_eq_append_slash other present).mp split
      have front : ∀ name ∈ above, IsName name := fun name member =>
        other name (parts ▸ List.mem_append_left below member)
      rw [join_injective named nonempty front first same, parts]
      exact List.prefix_append above below

end Path

namespace Ignore

open Deadwood.Path

variable {text path rest : Text} {more : List Piece} {names folders : List Text} {name : Text}

/-! ## Matching pieces -/

/-- The piece for a code point that stands for itself. -/
def pieceOf (c : Codepoint) : Piece := if c = slash then .slash else .one c

/-- The pieces of a text that stands for itself. -/
def spell (text : Text) : List Piece := text.map pieceOf

theorem matchPieces_pieceOf_nil (c : Codepoint) (more : List Piece) : matchPieces (pieceOf c :: more) [] = none := by
  simp only [pieceOf]
  split <;> rfl

theorem matchPieces_pieceOf_cons (c d : Codepoint) (more : List Piece) (rest : Text) :
    matchPieces (pieceOf c :: more) (d :: rest) = if c = d then matchPieces more rest else none := by
  have fits : ∀ e : Codepoint, (d == e) = decide (e = d) := fun e => by simp [beq_eq_decide, eq_comm]
  simp only [pieceOf]
  split
  case isTrue is_slash =>
    subst is_slash
    simp only [matchPieces, fits, decide_eq_true_eq]
    rfl
  case isFalse => simp only [matchPieces, fits, decide_eq_true_eq]

/-- A text that stands for itself is matched by its own code points. -/
theorem matchPieces_spell (text : Text) (more : List Piece) (path : Text) :
    matchPieces (spell text ++ more) path =
      if text <+: path then matchPieces more (path.drop text.length) else none := by
  induction text generalizing path with
  | nil => simp [spell]
  | cons c text ih =>
    cases path with
    | nil => simpa [spell] using matchPieces_pieceOf_nil c _
    | cons d rest =>
      have step := matchPieces_pieceOf_cons c d (spell text ++ more) rest
      rw [ih rest] at step
      simp only [spell, List.map_cons, List.cons_append] at step ⊢
      rw [step]
      by_cases same : c = d
      · simp [same]
      · simp [same]

theorem isSome_spell : (matchPieces (spell text ++ more) path).isSome = true ↔
    ∃ rest, path = text ++ rest ∧ (matchPieces more rest).isSome = true := by
  rw [matchPieces_spell]
  split
  case isTrue begins =>
    obtain ⟨rest, rfl⟩ := begins
    simp
  case isFalse apart =>
    apply iff_of_false (by simp)
    rintro ⟨rest, rfl, -⟩
    exact apart (List.prefix_append text rest)

/-- Without line feeds the end of a pattern is the end of the path or of a folder in it. -/
theorem isSome_close (lineFree : Codepoint.char '\n' ∉ rest) :
    (matchPieces [.close] rest).isSome = true ↔ rest = [] ∨ rest.head? = some slash := by
  cases rest with
  | nil => simp [matchPieces]
  | cons c rest =>
    have open_ : atEnd (c :: rest) = false := by
      simp only [atEnd, Bool.or_eq_false_iff, decide_eq_false_iff_not]
      refine ⟨by simp, ?_⟩
      intro feed
      rw [feed] at lineFree
      simp at lineFree
    by_cases is_slash : c = slash
    · simp [matchPieces, is_slash, slash]
    · have other : c ≠ Codepoint.char '/' := is_slash
      simp [matchPieces, is_slash, other, open_]

theorem isSome_inside (folder : Bool) :
    (matchPieces [.inside folder] rest).isSome = true ↔ rest.head? = some slash := by
  by_cases further : rest.head? = some slash
  · have seen : rest.head? = some (Codepoint.char '/') := further
    simp [matchPieces, seen, slash]
  · have unseen : rest.head? ≠ some (Codepoint.char '/') := further
    simp [matchPieces, unseen, slash]

theorem isSome_longest {test : Codepoint → Bool} {next : Text → Option Bool} :
    (longest test next text).isSome = true ↔
      ∃ run rest, text = run ++ rest ∧ (∀ c ∈ run, test c = true) ∧ (next rest).isSome = true := by
  induction text with
  | nil => simp [longest]
  | cons c text ih =>
    simp only [longest]
    split
    case isTrue passes =>
      simp only [Option.orElse_eq_orElse, Option.orElse_eq_or, Option.isSome_or, Bool.or_eq_true, ih]
      constructor
      · rintro (⟨run, rest, rfl, passed, found⟩ | found)
        · exact ⟨c :: run, rest, rfl, List.forall_mem_cons.mpr ⟨passes, passed⟩, found⟩
        · exact ⟨[], c :: text, rfl, by simp, found⟩
      · rintro ⟨run, rest, split, passed, found⟩
        cases run with
        | nil => exact .inr (by simpa [split] using found)
        | cons d run =>
          cases split
          exact .inl ⟨run, rest, rfl, (List.forall_mem_cons.mp passed).2, found⟩
    case isFalse stops =>
      constructor
      · intro found
        exact ⟨[], c :: text, rfl, by simp, found⟩
      · rintro ⟨run, rest, split, passed, found⟩
        cases run with
        | nil => simpa [split] using found
        | cons d run =>
          cases split
          exact absurd (passed c List.mem_cons_self) stops

/-- Without line feeds, folders may be skipped up to any slash but one at the front. -/
theorem isSome_folders (lineFree : Codepoint.char '\n' ∉ text) :
    (matchPieces (.folders :: more) text).isSome = true ↔ (matchPieces more text).isSome = true ∨
      ∃ front rest, front ≠ [] ∧ text = front ++ slash :: rest ∧ (matchPieces more rest).isSome = true := by
  simp only [matchPieces, Option.orElse_eq_orElse, Option.orElse_eq_or, Option.isSome_or, Bool.or_eq_true]
  rw [or_comm]
  apply or_congr_right
  cases text with
  | nil => simp
  | cons c text =>
    rw [List.mem_cons, not_or] at lineFree
    simp only [if_neg (Ne.symm lineFree.1), isSome_longest]
    constructor
    · rintro ⟨run, rest, rfl, -, found⟩
      cases rest with
      | nil => simp at found
      | cons d rest =>
        by_cases is_slash : d = Codepoint.char '/'
        · refine ⟨c :: run, rest, by simp, ?_, by simpa [is_slash] using found⟩
          rw [is_slash]
          rfl
        · simp [is_slash] at found
    · rintro ⟨front, rest, nonempty, split, found⟩
      obtain ⟨d, run, rfl⟩ := List.exists_cons_of_ne_nil nonempty
      cases split
      refine ⟨run, slash :: rest, rfl, ?_, by simpa [slash] using found⟩
      intro d member
      simpa using fun feed : d = Codepoint.char '\n' => lineFree.2 (by simp [← feed, member])

/-- Without slashes there is no folder to skip. -/
theorem matchPieces_folders_of_free (free : slash ∉ text) :
    matchPieces (.folders :: more) text = matchPieces more text := by
  have none_of : ∀ {found : Option Bool}, ¬ found.isSome = true →
      (found <|> matchPieces more text) = matchPieces more text := by
    intro found missing
    rw [Option.not_isSome_iff_eq_none.mp missing]
    rfl
  refine none_of ?_
  cases text with
  | nil => simp
  | cons c text =>
    dsimp only
    split
    case isTrue => simp
    case isFalse =>
      rw [isSome_longest]
      rintro ⟨run, rest, rfl, -, found⟩
      cases rest with
      | nil => simp at found
      | cons d rest =>
        have other : d ≠ Codepoint.char '/' := by
          rintro rfl
          exact free (by simp [slash])
        simp [other] at found

/-! ## Literal segments -/

/-- The code points that mean something to patterns, beside slashes. -/
def marks : Text := "*?[\\!#\n"

/-- A name that stands for itself in a pattern. -/
structure IsLiteral (segment : Text) : Prop extends Path.IsName segment where
  unmarked : ∀ c ∈ segment, c ∉ marks
  trimmed : Text.trim segment = segment

instance (segment : Text) : Decidable (IsLiteral segment) :=
  decidable_of_iff (Path.IsName segment ∧ (∀ c ∈ segment, c ∉ marks) ∧ Text.trim segment = segment)
    ⟨fun literal => ⟨literal.1, literal.2.1, literal.2.2⟩, fun literal =>
      ⟨literal.toIsName, literal.unmarked, literal.trimmed⟩⟩

/-- A path of literal segments. -/
structure AreLiteral (names : List Text) : Prop where
  nonempty : names ≠ []
  literal : ∀ name ∈ names, IsLiteral name

instance (names : List Text) : Decidable (AreLiteral names) :=
  decidable_of_iff (names ≠ [] ∧ ∀ name ∈ names, IsLiteral name)
    ⟨fun are => ⟨are.1, are.2⟩, fun are => ⟨are.nonempty, are.literal⟩⟩

theorem IsLiteral.unstarred (literal : IsLiteral name) {text : Text} (starred : Codepoint.char '*' ∈ text) :
    name ≠ text := by
  rintro rfl
  exact literal.unmarked _ starred (by decide)

theorem IsLiteral.head?_solid (literal : IsLiteral name) : ∀ c ∈ name.head?, c.isBlank = false := by
  intro c head
  rw [← literal.trimmed] at head
  exact Text.head?_trim head

theorem IsLiteral.getLast?_solid (literal : IsLiteral name) : ∀ c ∈ name.getLast?, c.isBlank = false := by
  intro c last
  rw [← literal.trimmed] at last
  exact Text.getLast?_trim last

namespace AreLiteral

theorem singleton (literal : IsLiteral name) : AreLiteral [name] := ⟨by simp, by simpa using literal⟩

theorem named (are : AreLiteral names) : ∀ name ∈ names, Path.IsName name := fun name member =>
  (are.literal name member).toIsName

theorem below (are : AreLiteral names) {others : List Text} (ends : others <:+ names) (nonempty : others ≠ []) :
    AreLiteral others :=
  ⟨nonempty, fun name member => are.literal name (ends.subset member)⟩

theorem unmarked (are : AreLiteral names) : ∀ c ∈ join names, c ∉ marks := by
  intro c member
  rcases mem_join member with rfl | ⟨part, listed, inside⟩
  · decide
  · exact (are.literal part listed).unmarked c inside

theorem lineFree (are : AreLiteral names) : Codepoint.char '\n' ∉ join names := fun member =>
  are.unmarked _ member (by decide)

theorem text_ne_nil (are : AreLiteral names) : join names ≠ [] :=
  join_ne_nil are.nonempty (isStep_of_names are.named)

theorem head?_solid (are : AreLiteral names) : ∀ c ∈ (join names).head?, c.isBlank = false := by
  obtain ⟨first, others, rfl⟩ := List.exists_cons_of_ne_nil are.nonempty
  have literal := are.literal first List.mem_cons_self
  obtain ⟨tail, split⟩ := join_cons_eq_append first others
  rw [split, List.head?_append_of_ne_nil _ literal.nonempty]
  exact literal.head?_solid

theorem getLast?_solid (are : AreLiteral names) : ∀ c ∈ (join names).getLast?, c.isBlank = false := by
  obtain rfl | ⟨front, last, rfl⟩ := List.eq_nil_or_concat names
  · exact absurd rfl are.nonempty
  · rw [List.concat_eq_append] at are ⊢
    have literal := are.literal last (by simp)
    obtain ⟨head, split⟩ := join_concat_eq_append front last
    rw [split, List.getLast?_append_of_ne_nil _ literal.nonempty]
    exact literal.getLast?_solid

theorem trim_eq (are : AreLiteral names) : Text.trim (join names) = join names :=
  Text.trim_eq_self are.head?_solid are.getLast?_solid

/-- The first segment is not `.`, so nothing is cut from the path. -/
theorem relativePath_eq (are : AreLiteral names) : relativePath (join names) = join names := by
  have unrooted : Text.startsWith (join names) "/" = false :=
    Text.startsWith_singleton_eq_false.mpr (head?_join_ne_slash (isStep_of_names are.named))
  have undotted : Text.startsWith (join names) "./" = false := by
    rw [Text.startsWith_eq_false]
    rintro ⟨rest, split⟩
    have dotted : join names = here ++ slash :: rest := split.symm
    obtain ⟨above, below, parts, -, -, dot, -⟩ := (join_eq_append_slash are.named are.nonempty).mp dotted
    have front : ∀ name ∈ above, Path.IsName name := fun name member =>
      are.named name (parts ▸ List.mem_append_left below member)
    have only : properSegments here = above := by rw [dot, properSegments_names front]
    rw [show properSegments here = [] from rfl] at only
    simp [← only, join, Text.joinWith, here, Text.ofString] at dot
  simp [relativePath, unrooted, undotted]

/-! ## Matching paths of literal segments -/

/-- A pattern without folders to skip is a beginning of the path. -/
theorem isSome_anchored (are : AreLiteral folders) (pattern : AreLiteral names) :
    (matchPieces (spell (join names) ++ [.close]) (join folders)).isSome = true ↔ names <+: folders := by
  rw [isSome_spell, prefix_iff_join pattern.named pattern.nonempty are.named are.nonempty]
  apply exists_congr
  intro rest
  apply and_congr_right
  intro split
  refine isSome_close fun feed => are.lineFree ?_
  rw [split]
  exact List.mem_append_right _ feed

/-- Where folders may be skipped, some end of the path is matched. -/
theorem isSome_skipping (are : AreLiteral folders) :
    (matchPieces (.folders :: more) (join folders)).isSome = true ↔
      ∃ below, below ≠ [] ∧ below <:+ folders ∧ (matchPieces more (join below)).isSome = true := by
  rw [isSome_folders are.lineFree]
  constructor
  · rintro (found | ⟨front, rest, -, split, found⟩)
    · exact ⟨folders, are.nonempty, List.suffix_rfl, found⟩
    · obtain ⟨above, below, rfl, -, nonempty, -, rfl⟩ :=
        (join_eq_append_slash are.named are.nonempty).mp split
      exact ⟨below, nonempty, List.suffix_append above below, found⟩
  · rintro ⟨below, nonempty, ⟨above, rfl⟩, found⟩
    by_cases whole : above = []
    · exact .inl (by simpa [whole] using found)
    · have front : ∀ name ∈ above, Path.IsName name := fun name member =>
        are.named name (List.mem_append_left below member)
      exact .inr ⟨join above, join below, join_ne_nil whole (isStep_of_names front), join_append whole nonempty, found⟩

/-- A single name is looked for among all segments. -/
theorem isSome_name (are : AreLiteral folders) (literal : IsLiteral name) :
    (matchPieces (.folders :: spell name ++ [.close]) (join folders)).isSome = true ↔ name ∈ folders := by
  have alone : join [name] = name := by simp [join, Text.joinWith]
  rw [List.cons_append, are.isSome_skipping]
  constructor
  · rintro ⟨below, nonempty, ends, found⟩
    rw [← alone, (are.below ends nonempty).isSome_anchored (.singleton literal)] at found
    exact ends.subset (found.subset (by simp))
  · intro member
    obtain ⟨above, after, rfl⟩ := List.append_of_mem member
    refine ⟨name :: after, by simp, List.suffix_append above _, ?_⟩
    have ends := are.below (List.suffix_append above (name :: after)) (by simp)
    have begins := (ends.isSome_anchored (.singleton literal)).mpr ⟨after, rfl⟩
    rwa [alone] at begins

/-- A name with a closing slash is looked for among the folders. -/
theorem isSome_folder (are : AreLiteral folders) (literal : IsLiteral name) :
    (matchPieces (.folders :: spell name ++ [.inside true]) (join folders)).isSome = true ↔
      name ∈ folders.dropLast := by
  have alone : join [name] = name := by simp [join, Text.joinWith]
  rw [List.cons_append, are.isSome_skipping]
  constructor
  · rintro ⟨below, nonempty, ⟨above, rfl⟩, found⟩
    obtain ⟨rest, split, further⟩ := isSome_spell.mp found
    obtain ⟨after, rfl⟩ := List.head?_eq_some_iff.mp ((isSome_inside true).mp further)
    have ends := are.below (List.suffix_append above below) nonempty
    obtain ⟨front, last, rfl, present, inside, same, -⟩ :=
      (join_eq_append_slash ends.named nonempty).mp split
    have named : ∀ part ∈ front, Path.IsName part := fun part member =>
      ends.named part (List.mem_append_left last member)
    have only : [name] = front :=
      join_injective (by simpa using literal.toIsName) (by simp) named present (alone.trans same)
    rw [← only, ← List.append_assoc, List.dropLast_append_of_ne_nil inside]
    simp
  · intro member
    obtain ⟨above, after, split⟩ := List.append_of_mem member
    obtain rfl | ⟨front, last, rfl⟩ := List.eq_nil_or_concat folders
    · exact absurd rfl are.nonempty
    · rw [List.concat_eq_append] at *
      rw [List.dropLast_concat] at split
      subst split
      refine ⟨name :: after ++ [last], by simp, ⟨above, by simp⟩, isSome_spell.mpr ?_⟩
      refine ⟨slash :: join (after ++ [last]), ?_, (isSome_inside true).mpr rfl⟩
      exact join_cons name (by simp)

end AreLiteral

/-! ## Reading patterns of literal segments -/

theorem spell_of_free (free : slash ∉ text) : spell text = text.map .one := by
  apply List.map_congr_left
  intro c member
  rw [pieceOf, if_neg]
  rintro rfl
  exact free member

theorem segmentPieces_of_unmarked (unmarked : ∀ c ∈ text, c ∉ marks) :
    segmentPieces 0 text = .ok ((text.map .one).map .ok) := by
  induction text with
  | nil => rfl
  | cons c rest ih =>
    obtain ⟨first, others⟩ := List.forall_mem_cons.mp unmarked
    have plain : ∀ mark ∈ marks, c ≠ mark := by
      rintro mark marked rfl
      exact first marked
    rw [segmentPieces.eq_def]
    simp only [plain (Codepoint.char '\\') (by decide), plain (Codepoint.char '*') (by decide),
      plain (Codepoint.char '?') (by decide), plain (Codepoint.char '[') (by decide), if_false, ih others]
    rfl

/-- The pieces of segments in the middle or at the end of a pattern. -/
theorem piecesOf_names (folderOnly first named : Bool) (are : AreLiteral names) :
    piecesOf folderOnly first named names =
      .ok (((if named then [Piece.slash] else []) ++ spell (join names) ++ [Piece.close]).map .ok) := by
  induction names generalizing first named with
  | nil => exact absurd rfl are.nonempty
  | cons name more ih =>
    have literal := are.literal name List.mem_cons_self
    have body := segmentPieces_of_unmarked literal.unmarked
    rw [← spell_of_free literal.free] at body
    rw [piecesOf, if_neg (literal.unstarred (by decide)), if_neg (literal.unstarred (by decide)), body]
    by_cases last : more = []
    · subst last
      cases named <;> simp [piecesOf, bind, Except.bind, pure, Except.pure, join, Text.joinWith]
    · rw [ih false true (are.below (List.suffix_cons name more) last), join_cons name last]
      cases named <;> simp [last, bind, Except.bind, pure, Except.pure, spell, pieceOf]

theorem piecesOf_skipping (folderOnly named : Bool) (more : List Text) :
    piecesOf folderOnly true named (doubleStar :: more) =
      (piecesOf folderOnly false false more).bind fun pieces => .ok (.ok .folders :: pieces) := by
  rw [piecesOf, if_pos rfl, if_pos rfl]
  rfl

theorem mapM_finishPiece (pieces : List Piece) : (pieces.map Except.ok).mapM finishPiece = .ok pieces := by
  induction pieces with
  | nil => rfl
  | cons piece rest ih =>
    rw [List.map_cons]
    exact Outcome.mapM_cons_eq_ok.mpr ⟨piece, rest, rfl, ih, rfl⟩

theorem formOf_of_pieces {segments : List Text} {folderOnly : Bool} {pieces : List Piece}
    (worded : ∃ name ∈ segments, name ≠ doubleStar ∧ name ≠ ("*" : Text))
    (read : piecesOf folderOnly true false segments = .ok (pieces.map .ok)) :
    formOf segments folderOnly = .ok (some (.pieces pieces)) := by
  obtain ⟨name, member, unpaired, unstarred⟩ := worded
  have others : segments ≠ [doubleStar] ∧ segments ≠ [doubleStar, "*"] ∧
      segments ≠ [doubleStar, "*", doubleStar] := by
    refine ⟨?_, ?_, ?_⟩ <;> rintro rfl <;> simp_all
  simp only [formOf, others.1, others.2.1, others.2.2, if_false, read, mapM_finishPiece]
  rfl

/-- A single name is looked for at any depth. -/
theorem anchorSegments_of_solid (solid : ∀ name ∈ names, name ≠ []) (unpaired : ∀ name ∈ names, name ≠ doubleStar) :
    anchorSegments names = if names.length = 1 then doubleStar :: names else names := by
  rw [anchorSegments.eq_def]
  split
  case h_1 rest => exact absurd rfl (solid [] List.mem_cons_self)
  case h_2 one _ => simp [unpaired one List.mem_cons_self]
  case h_3 one _ => exact absurd rfl (solid [] (by simp))
  case h_4 raw _ several _ =>
    rw [if_neg]
    intro single
    obtain ⟨one, rfl⟩ := List.length_eq_one_iff.mp single
    exact several one rfl

theorem collapseStars_of_unpaired (unpaired : ∀ name ∈ names, name ≠ doubleStar) : collapseStars names = names := by
  induction names with
  | nil => rfl
  | cons name more ih =>
    obtain ⟨first, others⟩ := List.forall_mem_cons.mp unpaired
    have later : collapseStars more = more := ih others
    rw [collapseStars, List.foldr_cons, ← collapseStars, later, if_neg (by simp [first])]

theorem collapseStars_cons (unpaired : ∀ name ∈ names, name ≠ doubleStar) :
    collapseStars (doubleStar :: names) = doubleStar :: names := by
  rw [collapseStars, List.foldr_cons, ← collapseStars, collapseStars_of_unpaired unpaired, if_neg]
  intro again
  simp only [decide_true, Bool.true_and, decide_eq_true_eq] at again
  exact unpaired _ (List.mem_of_mem_head? again) rfl

/-- The pieces of a path as a pattern. -/
def pathPieces (names : List Text) : List Piece :=
  (if names.length = 1 then [.folders] else []) ++ spell (join names) ++ [.close]

namespace AreLiteral

theorem unpaired (are : AreLiteral names) : ∀ name ∈ names, name ≠ doubleStar := fun name member =>
  (are.literal name member).unstarred (by decide)

theorem normalSegments_eq (are : AreLiteral names) : normalSegments (join names) =
    some (if names.length = 1 then doubleStar :: names else names, false) := by
  have parts : Text.splitOn '/' (join names) = names := segments_join are.nonempty are.named
  have solid : ∀ name ∈ names, name ≠ [] := fun name member => (are.literal name member).nonempty
  have unclosed : names.getLast? ≠ some [] := fun last => solid [] (List.mem_of_getLast? last) rfl
  have unclosed_cons : (doubleStar :: names).getLast? ≠ some [] := by
    intro last
    rcases List.mem_cons.mp (List.mem_of_getLast? last) with same | member
    · exact absurd same (by decide)
    · exact solid [] member rfl
  simp only [normalSegments, parts, anchorSegments_of_solid solid are.unpaired]
  split
  case isTrue => simp [closeSegments, collapseStars_cons are.unpaired, unclosed, unclosed_cons]
  case isFalse => simp [closeSegments, collapseStars_of_unpaired are.unpaired, unclosed, are.nonempty]

theorem formOf_eq (are : AreLiteral names) :
    formOf (if names.length = 1 then doubleStar :: names else names) false =
      .ok (some (.pieces (pathPieces names))) := by
  obtain ⟨name, more, rfl⟩ := List.exists_cons_of_ne_nil are.nonempty
  have literal := are.literal name List.mem_cons_self
  apply formOf_of_pieces
  · refine ⟨name, ?_, literal.unstarred (by decide), literal.unstarred (by decide)⟩
    split <;> simp
  · rw [pathPieces]
    split
    case isTrue =>
      rw [piecesOf_skipping, piecesOf_names false false false are]
      simp [Except.bind]
    case isFalse => simp [piecesOf_names false true false are]

theorem parsePattern_eq (are : AreLiteral names) :
    parsePattern (join names) = .ok (some ⟨true, .pieces (pathPieces names)⟩) := by
  have worded : Text.startsWith (join names) "#" = false ∧ Text.startsWith (join names) "!" = false := by
    constructor <;> refine Text.startsWith_singleton_eq_false.mpr fun head => ?_
    · exact are.unmarked _ (List.mem_of_mem_head? head) (by decide)
    · exact are.unmarked _ (List.mem_of_mem_head? head) (by decide)
  have named : join names ≠ ("/" : Text) := by
    intro root
    apply head?_join_ne_slash (isStep_of_names are.named)
    rw [root]
    rfl
  simp [parsePattern, worded, named, are.normalSegments_eq, are.formOf_eq, bind, Except.bind, pure, Except.pure]

theorem parsePattern_taken_back (are : AreLiteral names) :
    parsePattern ("!" ++ join names) = .ok (some ⟨false, .pieces (pathPieces names)⟩) := by
  have worded : Text.startsWith ("!" ++ join names) "#" = false := rfl
  have marked : Text.startsWith ("!" ++ join names) "!" = true := rfl
  have named : "!" ++ join names ≠ ("/" : Text) := by simp [Text.ofString]
  have body : ("!" ++ join names : Text).drop 1 = join names := rfl
  simp [parsePattern, worded, marked, named, body, are.normalSegments_eq, are.formOf_eq, bind, Except.bind, pure,
    Except.pure]

/-- A path as a pattern matches itself, and not as a folder above. -/
theorem matchPieces_self (are : AreLiteral names) : matchPieces (pathPieces names) (join names) = some false := by
  have whole : matchPieces (spell (join names) ++ [.close]) (join names) = some false := by
    simp [matchPieces_spell, matchPieces]
  rw [pathPieces]
  split
  case isFalse => exact whole
  case isTrue single =>
    obtain ⟨name, rfl⟩ := List.length_eq_one_iff.mp single
    have free : slash ∉ join [name] := by simpa [join, Text.joinWith] using (are.named name (by simp)).free
    exact (matchPieces_folders_of_free free).trans whole

end AreLiteral

/-- The pieces of a name with a closing slash. -/
theorem parsePattern_folder (literal : IsLiteral name) : parsePattern (name ++ "/") =
    .ok (some ⟨true, .pieces (.folders :: spell name ++ [.inside true])⟩) := by
  have are := AreLiteral.singleton literal
  have unpaired : name ≠ doubleStar := literal.unstarred (by decide)
  have single : name ≠ ("*" : Text) := literal.unstarred (by decide)
  have head : (name ++ ("/" : Text)).head? = name.head? := List.head?_append_of_ne_nil _ literal.nonempty
  have worded : Text.startsWith (name ++ "/") "#" = false ∧ Text.startsWith (name ++ "/") "!" = false := by
    constructor <;> refine Text.startsWith_singleton_eq_false.mpr fun first => ?_
    · exact literal.unmarked _ (List.mem_of_mem_head? (head ▸ first)) (by decide)
    · exact literal.unmarked _ (List.mem_of_mem_head? (head ▸ first)) (by decide)
  have named : name ++ "/" ≠ ("/" : Text) := by
    intro root
    exact literal.nonempty (List.append_cancel_right (root.trans (List.nil_append _).symm))
  have parts : Text.splitOn '/' (name ++ "/") = [name, []] := by
    have split := Text.splitOn_append_separator slash name []
    rwa [show Text.splitOn slash name = [name] from by
      simpa [segments, join, Text.joinWith] using segments_join are.nonempty are.named] at split
  have normal : normalSegments (name ++ "/") = some ([doubleStar, name, doubleStar], true) := by
    have anchored : anchorSegments [name, []] = [doubleStar, name, []] := by
      obtain ⟨c, rest, rfl⟩ := List.exists_cons_of_ne_nil literal.nonempty
      simp [anchorSegments, unpaired]
    simp [normalSegments, parts, anchored, closeSegments, collapseStars, unpaired]
  have form : formOf [doubleStar, name, doubleStar] true =
      .ok (some (.pieces (.folders :: spell name ++ [.inside true]))) := by
    apply formOf_of_pieces ⟨name, by simp, unpaired, single⟩
    have body := segmentPieces_of_unmarked literal.unmarked
    rw [← spell_of_free literal.free] at body
    simp [piecesOf, unpaired, single, body, bind, Except.bind, pure, Except.pure]
  simp [parsePattern, worded, named, normal, form, bind, Except.bind, pure, Except.pure]

theorem decides_single {pattern : Pattern} : decides [pattern] path =
    ((pattern.form.match? path).isSome && pattern.withholds) := by
  cases found : pattern.form.match? path with
  | none => simp [decides, found]
  | some folder => cases folder <;> simp [decides, found]

theorem decides_concat {patterns : List Pattern} {pattern : Pattern}
    (itself : pattern.form.match? path = some false) : decides (patterns ++ [pattern]) path = pattern.withholds := by
  simp [decides, List.filterMap_append, itself]

/-! ## Whole lists -/

theorem parsePatterns_single {line : Text} {pattern : Pattern} (trimmed : Text.trim line = line) (nonempty : line ≠ [])
    (read : parsePattern line = .ok (some pattern)) : parsePatterns [line] = .ok [pattern] := by
  simp [parsePatterns, trimmed, nonempty, read, bind, Except.bind, pure, Except.pure]

theorem parsePatterns_concat {lines : List Text} {line : Text} {patterns : List Pattern} {pattern : Pattern}
    (before : parsePatterns lines = .ok patterns) (trimmed : Text.trim line = line) (nonempty : line ≠ [])
    (read : parsePattern line = .ok (some pattern)) :
    parsePatterns (lines ++ [line]) = .ok (patterns ++ [pattern]) := by
  have last : [line].mapM parsePattern = .ok [some pattern] :=
    Outcome.mapM_cons_eq_ok.mpr ⟨some pattern, [], read, rfl, rfl⟩
  have kept : ([line].map Text.trim).filter (· ≠ []) = [line] := by simp [trimmed, nonempty]
  simp only [parsePatterns, bind, Outcome.bind_eq_ok] at before ⊢
  obtain ⟨all, mapped, same⟩ := before
  cases same
  refine ⟨all ++ [some pattern], ?_, by simp [pure, Except.pure]⟩
  rw [List.map_append, List.filter_append, kept, List.mapM_append, mapped, last]
  rfl

theorem isIgnored_single {line : Text} {pieces : List Piece} (are : AreLiteral folders)
    (trimmed : Text.trim line = line) (nonempty : line ≠ [])
    (read : parsePattern line = .ok (some ⟨true, .pieces pieces⟩)) :
    isIgnored (join folders) [line] = .ok (matchPieces pieces (join folders)).isSome := by
  simp [isIgnored, parsePatterns_single trimmed nonempty read, are.relativePath_eq, decides_single, Form.match?, bind,
    Except.bind, pure, Except.pure]

/-- Behind any lines that can be read, the path itself as a pattern decides. -/
theorem isIgnored_concat {lines : List Text} {line : Text} {withholds : Bool} (are : AreLiteral folders)
    (readable : ∀ line ∈ lines, IsReadable line) (trimmed : Text.trim line = line) (nonempty : line ≠ [])
    (read : parsePattern line = .ok (some ⟨withholds, .pieces (pathPieces folders)⟩)) :
    isIgnored (join folders) (lines ++ [line]) = .ok withholds := by
  obtain ⟨patterns, before⟩ := exists_parsePatterns_iff.mpr readable
  have itself : Form.match? (.pieces (pathPieces folders)) (join folders) = some false := are.matchPieces_self
  have decided : decides (patterns ++ [⟨withholds, .pieces (pathPieces folders)⟩]) (join folders) = withholds :=
    decides_concat itself
  simp [isIgnored, parsePatterns_concat before trimmed nonempty read, are.relativePath_eq, decided, bind, Except.bind,
    pure, Except.pure]

/-- For a path of literal segments: a single name as a pattern withholds it exactly if the name is one of its
segments, a name with a closing slash exactly if the name is that of a folder above, and several names exactly if
the path begins with them.  Behind any lines that can be read, the path itself as a pattern withholds it, and with
a mark that takes back others it does not. -/
theorem isIgnored_by_segments (are : AreLiteral folders) :
    (∀ name, IsLiteral name →
      isIgnored (join folders) [name ++ "/"] = .ok (decide (name ∈ folders.dropLast)) ∧
      isIgnored (join folders) [name] = .ok (decide (name ∈ folders))) ∧
    (∀ names, AreLiteral names → 2 ≤ names.length →
      isIgnored (join folders) [join names] = .ok (decide (names <+: folders))) ∧
    ∀ lines, (∀ line ∈ lines, IsReadable line) →
      isIgnored (join folders) (lines ++ [join folders]) = .ok true ∧
      isIgnored (join folders) (lines ++ ["!" ++ join folders]) = .ok false := by
  refine ⟨?_, ?_, ?_⟩
  · intro name literal
    have alone : join [name] = name := by simp [join, Text.joinWith]
    have single := AreLiteral.singleton literal
    constructor
    · have closed : Text.trim (name ++ "/") = name ++ "/" := by
        apply Text.trim_eq_self
        · rw [List.head?_append_of_ne_nil _ literal.nonempty]
          exact literal.head?_solid
        · rw [List.getLast?_append_of_ne_nil _ (by decide)]
          decide
      rw [isIgnored_single are closed (by simp [literal.nonempty]) (parsePattern_folder literal),
        Except.ok.injEq, Bool.eq_iff_iff, decide_eq_true_eq]
      exact are.isSome_folder literal
    · have read := single.parsePattern_eq
      rw [alone] at read
      rw [isIgnored_single are literal.trimmed literal.nonempty read, Except.ok.injEq, Bool.eq_iff_iff,
        decide_eq_true_eq, ← are.isSome_name literal]
      simp [pathPieces, alone]
  · intro names pattern several
    rw [isIgnored_single are pattern.trim_eq pattern.text_ne_nil pattern.parsePattern_eq, Except.ok.injEq,
      Bool.eq_iff_iff, decide_eq_true_eq, ← are.isSome_anchored pattern, pathPieces, if_neg (by omega), List.nil_append]
  · intro lines readable
    have marked : Text.trim ("!" ++ join folders) = "!" ++ join folders := by
      apply Text.trim_eq_self
      · rintro c ⟨⟩
        decide
      · rw [List.getLast?_append_of_ne_nil _ are.text_ne_nil]
        exact are.getLast?_solid
    exact ⟨isIgnored_concat are readable are.trim_eq are.text_ne_nil are.parsePattern_eq,
      isIgnored_concat are readable marked (by simp [Text.ofString]) are.parsePattern_taken_back⟩

/-- A path with a folder that has a blank in its name. -/
def nestedPath : List Text := ["src", "old code", "a.ts"]

/-- A script in two folders: both folders are found, the script is no folder, only the first folders begin the path,
and lines before the path do not count, not even one that takes a folder back. -/
theorem isIgnored_by_segments_nested : AreLiteral nestedPath ∧
    isIgnored "src/old code/a.ts" ["old code/"] = .ok true ∧ isIgnored "src/old code/a.ts" ["a.ts/"] = .ok false ∧
    isIgnored "src/old code/a.ts" ["a.ts"] = .ok true ∧
    isIgnored "src/old code/a.ts" ["src/old code"] = .ok true ∧
    isIgnored "src/old code/a.ts" ["old code/a.ts"] = .ok false ∧
    isIgnored "src/old code/a.ts" ["**/*.ts", "  ", "!src/", "src/old code/a.ts"] = .ok true ∧
    isIgnored "src/old code/a.ts" ["**/*.ts", "  ", "!src/", "!src/old code/a.ts"] = .ok false := by
  have are : AreLiteral nestedPath := by decide
  have plain : ∀ line ∈ ([("**/*.ts" : Text), "  ", "!src/"] : List Text),
      Codepoint.char '\\' ∉ line ∧ Codepoint.char '[' ∉ line ∧ Text.trim line ≠ "!" := by decide
  have readable : ∀ line ∈ ([("**/*.ts" : Text), "  ", "!src/"] : List Text), IsReadable line := by
    intro line member
    obtain ⟨unescaped, unbracketed, worded⟩ := plain line member
    exact IsPlain.isReadable ⟨unescaped, unbracketed⟩ worded
  obtain ⟨names, beginnings, itself⟩ := isIgnored_by_segments are
  refine ⟨are, ?_, ?_, ?_, ?_, ?_, ?_, ?_⟩
  · exact (names "old code" (by decide)).1
  · exact (names "a.ts" (by decide)).1
  · exact (names "a.ts" (by decide)).2
  · exact beginnings ["src", "old code"] (by decide) (by decide)
  · exact beginnings ["old code", "a.ts"] (by decide) (by decide)
  · exact (itself _ readable).1
  · exact (itself _ readable).2

end Ignore

end Deadwood
