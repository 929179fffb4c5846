import Deadwood.Proofs.TemplateLayout
import Deadwood.Proofs.Utf8

/-!
# The pieces of a template

A template is cut at its holes.  The pieces are what stands at the places
between the holes, they and the holes make up the text between the backticks,
and a cut of the bytes at offsets that count from the front of the source gives
the same pieces.
-/

namespace Deadwood.Script

open Encoding (utf8 decodeUtf8)

/-! ## Spans -/

/-- The places from one to just before another. -/
structure Span where
  start : Nat
  stop : Nat
  deriving DecidableEq, Repr

namespace Span

instance : Membership Nat Span := ⟨fun span place => span.start ≤ place ∧ place < span.stop⟩

/-- What a list holds at the places of a span. -/
def cut {α : Type} (span : Span) (items : List α) : List α := (items.drop span.start).take (span.stop - span.start)

variable {α : Type} {items : List α} {start middle stop : Nat}

theorem mem_mk {place : Nat} : place ∈ mk start stop ↔ start ≤ place ∧ place < stop := Iff.rfl

theorem cut_append_cut (before : start ≤ middle) (behind : middle ≤ stop) :
    (mk start middle).cut items ++ (mk middle stop).cut items = (mk start stop).cut items := by
  have widths : stop - start = (middle - start) + (stop - middle) := by omega
  have places : start + (middle - start) = middle := by omega
  simp only [cut]
  rw [widths, List.take_add, List.drop_drop, places]

theorem cut_one {item : α} (here : items[start]? = some item) : (mk start (start + 1)).cut items = [item] := by
  obtain ⟨bound, rfl⟩ := List.getElem?_eq_some_iff.mp here
  simp only [cut, Nat.add_sub_cancel_left]
  rw [List.drop_eq_getElem_cons bound]
  rfl

/-- The middle of three lists stands behind the first and is as long as itself. -/
theorem cut_middle (first second third : List α) :
    (mk first.length (first ++ second).length).cut (first ++ (second ++ third)) = second := by
  simp [cut]

end Span

/-- The places that a node spans. -/
def Node.span (node : Node) : Span := ⟨node.start, node.stop⟩

theorem Node.text_eq (source : List Char) (node : Node) : node.text source = node.span.cut source := rfl

/-! ## Gaps between holes -/

/-- The spans between nodes: each from the end of the node before it to the start of the node behind it. -/
def gaps (start stop : Nat) (holes : List Node) : List Span :=
  List.zipWith Span.mk (start :: holes.map Node.stop) (holes.map Node.start ++ [stop])

/-- The spans of a template before, between and after its holes. -/
def Node.gaps (node : Node) : List Span := Script.gaps (node.start + 1) (node.stop - 1) node.holes

/-- Pieces and holes in turn, a piece first; what is left of either comes last. -/
def weave {α : Type} : List (List α) → List (List α) → List α
  | piece :: pieces, hole :: holes => piece ++ (hole ++ weave pieces holes)
  | pieces, holes => pieces.flatten ++ holes.flatten

section

variable {source : List Char} {start stop : Nat} {holes : List Node}

theorem gaps_cons (hole : Node) : gaps start stop (hole :: holes) = ⟨start, hole.start⟩ :: gaps hole.stop stop holes :=
  rfl

theorem length_gaps : (gaps start stop holes).length = holes.length + 1 := by
  simp [gaps]

theorem cutTemplate_eq : cutTemplate source stop start holes = (gaps start stop holes).map (·.cut source) := by
  induction holes generalizing start with
  | nil => rfl
  | cons hole holes ih =>
    rw [cutTemplate, gaps_cons, List.map_cons, ih]
    rfl

theorem Laid.weave_gaps (laid : Laid start holes stop) :
    weave ((gaps start stop holes).map (·.cut source)) (holes.map (·.text source)) =
      (Span.mk start stop).cut source := by
  induction laid with
  | nil => simp [gaps, weave]
  | cons behind forward rest ih =>
    rw [gaps_cons, List.map_cons, List.map_cons, weave, ih, Node.text_eq, Node.span,
      Span.cut_append_cut forward rest.le, Span.cut_append_cut behind (Nat.le_trans forward rest.le)]

/-- The gaps are the places outside every hole. -/
theorem Laid.mem_gaps_iff (laid : Laid start holes stop) (place : Nat) :
    (∃ gap ∈ gaps start stop holes, place ∈ gap) ↔
      place ∈ Span.mk start stop ∧ ∀ hole ∈ holes, place ∉ hole.span := by
  induction laid with
  | nil => simp [gaps]
  | @cons start stop hole holes behind forward rest ih =>
    have le := rest.le
    simp only [gaps_cons, List.exists_mem_cons_iff, ih, List.forall_mem_cons, Span.mem_mk, Node.span]
    constructor
    · rintro (before | ⟨between, outside⟩)
      · refine ⟨by omega, by omega, ?_⟩
        -- A place before the first hole is before every other one.
        intro other member inOther
        have further := (rest.inside member).1
        omega
      · exact ⟨by omega, by omega, outside⟩
    · rintro ⟨inside, outsideFirst, outside⟩
      by_cases first : place < hole.start
      · exact .inl ⟨inside.1, first⟩
      · exact .inr ⟨by omega, outside⟩

end

/-! ## Cutting bytes -/

/-- The number of bytes before a place of a source. -/
def byteOffset (source : List Char) (place : Nat) : Nat := (utf8 (source.take place)).length

/-- The bytes that a node spans, counted from the front of the source. -/
def Node.byteSpan (source : List Char) (node : Node) : Span :=
  ⟨byteOffset source node.start, byteOffset source node.stop⟩

/-- Cuts the bytes of a template at its holes, from a cursor that counts from the front of the template on.  The holes
count from the front of the source, which is `base` bytes further ahead, and the last byte closes the template. -/
def cutBytes (bytes : Bytes) (base : Nat) : Nat → List Span → List Bytes
  | cursor, [] => [bytes.dropLast.drop cursor]
  | cursor, hole :: holes =>
    (Span.mk cursor (hole.start - base)).cut bytes :: cutBytes bytes base (hole.stop - base) holes

section

variable {source : List Char} {base start stop : Nat}

theorem byteOffset_sub (le : base ≤ start) :
    byteOffset source start - byteOffset source base = (utf8 ((Span.mk base start).cut source)).length := by
  have front : source.take start = source.take base ++ (Span.mk base start).cut source := by
    have width : start = base + (start - base) := by omega
    rw [width, List.take_add]
    simp [Span.cut]
  rw [byteOffset, front, Encoding.utf8_append, List.length_append, byteOffset, Nat.add_sub_cancel_left]

/-- Cursor and holes count bytes from different places, and the cut falls where the characters are cut. -/
theorem Laid.cutBytes_eq {holes : List Node} {bytes : Bytes} {last : UInt8} (laid : Laid start holes stop)
    (le : base ≤ start) (whole : bytes = utf8 ((Span.mk base stop).cut source) ++ [last]) :
    cutBytes bytes (byteOffset source base) (byteOffset source start - byteOffset source base)
      (holes.map (·.byteSpan source)) = (gaps start stop holes).map fun gap => utf8 (gap.cut source) := by
  -- The cursor is always as many bytes behind `base` as the characters from `base` to `start` take.
  induction laid with
  | @nil start stop forward =>
    rw [List.map_nil, cutBytes, whole, List.dropLast_concat, byteOffset_sub le, ← Span.cut_append_cut le forward,
      Encoding.utf8_append, List.drop_left]
    rfl
  | @cons start stop hole holes behind forward rest ih =>
    have ahead := Nat.le_trans forward rest.le
    have piece : (Span.mk (byteOffset source start - byteOffset source base)
        (byteOffset source hole.start - byteOffset source base)).cut bytes =
          utf8 ((Span.mk start hole.start).cut source) := by
      rw [byteOffset_sub le, byteOffset_sub (Nat.le_trans le behind), whole,
        ← Span.cut_append_cut (Nat.le_trans le behind) ahead, ← Span.cut_append_cut le behind]
      simp only [Encoding.utf8_append, List.append_assoc]
      exact Span.cut_middle _ _ _
    rw [List.map_cons, cutBytes, gaps_cons, List.map_cons, ← piece]
    exact congrArg _ (ih (Nat.le_trans le (Nat.le_trans behind forward)) whole)

end

/-! ## Templates without loss -/

theorem templatePieces_eq (source : List Char) (node : Node) :
    templatePieces source node = node.gaps.map (·.cut source) := cutTemplate_eq

theorem templateSegments_eq (source : List Char) (node : Node) :
    templateSegments source node = (templatePieces source node).filter (· ≠ []) := by
  rw [templateSegments]
  congr 1
  funext piece
  cases piece <;> rfl

namespace Node.SpansTemplate

variable {source : List Char} {node : Node} (spans : node.SpansTemplate source)
include spans

theorem text_eq_front : (Span.mk node.start (node.stop - 1)).cut source =
    '\x60' :: (Span.mk (node.start + 1) (node.stop - 1)).cut source := by
  have forward := spans.laid.le
  rw [← Span.cut_append_cut (Nat.le_add_right node.start 1) forward, Span.cut_one spans.opened]
  rfl

theorem text_eq_concat : node.text source = (Span.mk node.start (node.stop - 1)).cut source ++ ['\x60'] := by
  have two := spans.two
  have last : node.stop - 1 + 1 = node.stop := by omega
  have parts : (Span.mk node.start (node.stop - 1)).cut source ++ (Span.mk (node.stop - 1) node.stop).cut source =
      node.text source := Span.cut_append_cut (by omega) (by omega)
  rw [← parts, ← Span.cut_one spans.closed, last]

/-- Pieces and holes in turn are the text between the backticks. -/
theorem text_eq_weave : node.text source =
    '\x60' :: weave (templatePieces source node) (node.holes.map (·.text source)) ++ ['\x60'] := by
  rw [spans.text_eq_concat, spans.text_eq_front, templatePieces_eq, Node.gaps, spans.laid.weave_gaps]

/-- The opening backtick is one byte wide, and so is the closing one. -/
theorem cutBytes_eq : cutBytes (utf8 (node.text source)) (byteOffset source node.start) 1
    (node.holes.map (·.byteSpan source)) = (templatePieces source node).map utf8 := by
  have opening : byteOffset source (node.start + 1) - byteOffset source node.start = 1 := by
    rw [byteOffset_sub (Nat.le_add_right node.start 1), Span.cut_one spans.opened]
    rfl
  have whole : utf8 (node.text source) = utf8 ((Span.mk node.start (node.stop - 1)).cut source) ++ [0x60] := by
    rw [spans.text_eq_concat, Encoding.utf8_append]
    rfl
  have cut := spans.laid.cutBytes_eq (Nat.le_add_right node.start 1) whole
  rw [opening] at cut
  rw [cut, templatePieces_eq, Node.gaps, List.map_map]
  rfl

end Node.SpansTemplate

/-- A template is cut at its holes without loss, wherever it stands.  There is one piece more than there are holes, and
pieces and holes in turn are the text between the backticks.  The pieces are what stands in the gaps between the holes,
which are the places between the backticks outside every hole, and a cut of the bytes gives the same pieces.  The
segments are the pieces that are not empty.  Every template in the tree of a source is such a template. -/
theorem template_cut_without_loss (source : List Char) :
    (∀ node : Node, node.SpansTemplate source →
      let pieces := templatePieces source node
      pieces.length = node.holes.length + 1 ∧
      node.text source = '\x60' :: weave pieces (node.holes.map (·.text source)) ++ ['\x60'] ∧
      templateSegments source node = pieces.filter (· ≠ []) ∧
      pieces = node.gaps.map (·.cut source) ∧
      (∀ place, (∃ gap ∈ node.gaps, place ∈ gap) ↔
        node.start < place ∧ place < node.stop - 1 ∧ ∀ hole ∈ node.holes, place ∉ hole.span) ∧
      pieces.map Text.ofChars = (cutBytes (utf8 (node.text source)) (byteOffset source node.start) 1
        (node.holes.map (·.byteSpan source))).map (decodeUtf8 .replace)) ∧
    ∀ dialect, ∀ node ∈ (parse dialect source).nodes, node.kind = .template → node.SpansTemplate source := by
  refine ⟨?_, fun dialect => holdsTemplates_parse dialect source⟩
  intro node spans
  refine ⟨?_, spans.text_eq_weave, templateSegments_eq source node, templatePieces_eq source node, ?_, ?_⟩
  · rw [templatePieces_eq, List.length_map, Node.gaps, length_gaps]
  · intro place
    rw [Node.gaps, spans.laid.mem_gaps_iff, Span.mem_mk, and_assoc]
    rfl
  · rw [spans.cutBytes_eq, List.map_map]
    apply List.map_congr_left
    intro piece _
    exact (Encoding.decodeUtf8_utf8 .replace piece).symm

/-- Two holes side by side, one with a template of its own, between characters of two bytes. -/
theorem template_cut_side_by_side :
    let source := "é=\x60$\x7ba\x7d$\x7b\x60ü$\x7bb\x7d\x60\x7dß.svg\x60;".toList
    ∃ node ∈ (parse .plain source).nodes, node.SpansTemplate source ∧
      node.holes.map (·.text source) = ["$\x7ba\x7d".toList, "$\x7b\x60ü$\x7bb\x7d\x60\x7d".toList] ∧
      node.start = 2 ∧ byteOffset source node.start = 3 ∧
      node.text source =
        '\x60' :: weave [[], [], "ß.svg".toList] (node.holes.map (·.text source)) ++ ['\x60'] ∧
      templateSegments source node = ["ß.svg".toList] ∧
      (cutBytes (utf8 (node.text source)) 3 1 [⟨4, 8⟩, ⟨8, 19⟩]).map (decodeUtf8 .replace) =
        [[], [], Text.ofChars "ß.svg".toList] := by
  intro source
  obtain ⟨cut, parsed⟩ := template_cut_without_loss source
  have found : ∃ node ∈ (parse .plain source).nodes, node.kind = .template ∧
      node.holes.map (·.text source) = ["$\x7ba\x7d".toList, "$\x7b\x60ü$\x7bb\x7d\x60\x7d".toList] ∧
      node.start = 2 ∧ byteOffset source node.start = 3 ∧
      node.holes.map (·.byteSpan source) = [⟨4, 8⟩, ⟨8, 19⟩] ∧
      templatePieces source node = [[], [], "ß.svg".toList] := by
    decide +kernel
  obtain ⟨node, member, isTemplate, holes, start, base, byteSpans, pieces⟩ := found
  have spans := parsed .plain node member isTemplate
  obtain ⟨-, text, segments, -, -, bytes⟩ := cut node spans
  rw [pieces] at text segments bytes
  rw [base, byteSpans] at bytes
  exact ⟨node, member, spans, holes, start, base, text, segments, bytes.symm⟩

end Deadwood.Script
