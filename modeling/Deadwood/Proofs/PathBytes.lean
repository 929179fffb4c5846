import Deadwood.FileTree.Basic
import Deadwood.Proofs.Path

/-!
# The bytes of paths

A path can have a text in it if the text has bytes, none of them zero.  That is
a property of its code points, so a path has it exactly if all its names have
it.  A path is too long if it has too many bytes, and then so are the paths
below it.
-/

namespace Deadwood

namespace Encoding

@[simp] theorem byteCount_append (text other : Text) :
    byteCount (text ++ other) = byteCount text + byteCount other := by
  simp [byteCount]

theorem isSome_encodeEscaped? {text : Text} :
    (encodeEscaped? text).isSome = true ↔ ∀ c ∈ text, (escapedByte? c).isSome = true := by
  rw [encodeEscaped?, Option.isSome_map]
  induction text with
  | nil => simp
  | cons c rest ih =>
    rw [List.mapM_cons, List.forall_mem_cons, ← ih]
    cases escapedByte? c <;> cases rest.mapM escapedByte? <;> simp

end Encoding

namespace Path

variable {text name : Text}

/-- A code point of a path is a slash or a point, or it is in one of the proper segments. -/
theorem mem_of_properSegments {c : Codepoint} (member : c ∈ text) :
    c = slash ∨ c = Codepoint.char '.' ∨ ∃ name ∈ properSegments text, c ∈ name := by
  rw [← join_segments text] at member
  rcases mem_join member with separator | ⟨part, listed, inside⟩
  · exact .inl separator
  · by_cases point : part = here
    · exact .inr (.inl (by simpa [point, here, Text.ofString] using inside))
    · refine .inr (.inr ⟨part, List.mem_filter.mpr ⟨listed, ?_⟩, inside⟩)
      simp [point, List.ne_nil_of_mem inside]

theorem mem_of_mem_properSegments {c : Codepoint} (listed : name ∈ properSegments text) (inside : c ∈ name) :
    c ∈ text :=
  Text.mem_of_mem_splitOn (List.mem_of_mem_filter listed) inside

namespace Parsed

variable {path : Parsed}

theorem mem_toText {c : Codepoint} (member : c ∈ path.toText) :
    c = slash ∨ c = Codepoint.char '.' ∨ ∃ name ∈ path.names, c ∈ name := by
  rw [toText] at member
  split at member
  case h_1 => exact .inr (.inl (by simpa [here, Text.ofString] using member))
  case h_2 =>
    rcases List.mem_append.mp member with front | joined
    · exact .inl (List.eq_of_mem_replicate front)
    · rcases mem_join joined with separator | inside
      · exact .inl separator
      · exact .inr (.inr inside)

theorem mem_toText_of_mem {c : Codepoint} (listed : name ∈ path.names) (inside : c ∈ name) : c ∈ path.toText := by
  have joined := List.mem_append_right (List.replicate path.slashes slash) (mem_join_of_mem listed inside)
  rw [toText]
  split
  case h_1 empty => simp [empty] at joined
  case h_2 => exact joined

end Parsed

end Path

namespace FileTree

variable {text : Text} {path : Path.Parsed}

/-! ## Texts that a path can have in it -/

/-- A text that a path can have in it: it has bytes, and none of them is zero. -/
structure IsNameable (text : Text) : Prop where
  encodable : (Encoding.encodeEscaped? text).isSome = true
  nonzero : Codepoint.char '\x00' ∉ text

theorem nameFault?_eq_none : nameFault? text = none ↔ IsNameable text := by
  rw [nameFault?]
  split
  case isTrue stuck =>
    refine iff_of_false (by simp) ?_
    intro nameable
    simpa [Option.isNone_iff_eq_none.mp stuck] using nameable.encodable
  case isFalse encodes =>
    split
    case isTrue zero =>
      refine iff_of_false (by simp) ?_
      intro nameable
      exact nameable.nonzero (by simpa using zero)
    case isFalse nonzero =>
      refine iff_of_true rfl ⟨?_, by simpa using nonzero⟩
      simpa [Option.isSome_iff_ne_none] using encodes

instance (text : Text) : Decidable (IsNameable text) :=
  decidable_of_iff ((nameFault? text).isNone = true) (by rw [Option.isNone_iff_eq_none, nameFault?_eq_none])

/-- Whether a path can have a text in it is said code point by code point. -/
theorem isNameable_iff : IsNameable text ↔ ∀ c ∈ text, IsNameable [c] := by
  constructor
  · intro nameable c member
    refine ⟨Encoding.isSome_encodeEscaped?.mpr ?_, ?_⟩
    · simpa using Encoding.isSome_encodeEscaped?.mp nameable.encodable c member
    · rw [List.mem_singleton]
      rintro rfl
      exact nameable.nonzero member
  · intro each
    refine ⟨Encoding.isSome_encodeEscaped?.mpr fun c member => ?_, fun member => ?_⟩
    · exact Encoding.isSome_encodeEscaped?.mp (each c member).encodable c (List.mem_singleton_self c)
    · exact (each _ member).nonzero (List.mem_singleton_self _)

theorem isNameable_slash : IsNameable [Path.slash] := ⟨by decide, by decide⟩

theorem isNameable_point : IsNameable [Codepoint.char '.'] := ⟨by decide, by decide⟩

/-- A path is one that can be asked about exactly if all its names are. -/
theorem isNameable_toText : IsNameable path.toText ↔ ∀ name ∈ path.names, IsNameable name := by
  constructor
  · intro nameable name listed
    rw [isNameable_iff] at nameable ⊢
    exact fun c inside => nameable c (Path.Parsed.mem_toText_of_mem listed inside)
  · intro each
    rw [isNameable_iff]
    intro c member
    rcases Path.Parsed.mem_toText member with rfl | rfl | ⟨name, listed, inside⟩
    · exact isNameable_slash
    · exact isNameable_point
    · exact isNameable_iff.mp (each name listed) c inside

theorem isNameable_join {names : List Text} : IsNameable (Path.join names) ↔ ∀ name ∈ names, IsNameable name := by
  constructor
  · intro nameable name listed
    rw [isNameable_iff] at nameable ⊢
    exact fun c inside => nameable c (Path.mem_join_of_mem listed inside)
  · intro each
    rw [isNameable_iff]
    intro c member
    rcases Path.mem_join member with rfl | ⟨name, listed, inside⟩
    · exact isNameable_slash
    · exact isNameable_iff.mp (each name listed) c inside

theorem isNameable_properSegments : (∀ name ∈ Path.properSegments text, IsNameable name) ↔ IsNameable text := by
  constructor
  · intro each
    rw [isNameable_iff]
    intro c member
    rcases Path.mem_of_properSegments member with rfl | rfl | ⟨name, listed, inside⟩
    · exact isNameable_slash
    · exact isNameable_point
    · exact isNameable_iff.mp (each name listed) c inside
  · intro nameable name listed
    rw [isNameable_iff] at nameable ⊢
    exact fun c inside => nameable c (Path.mem_of_mem_properSegments listed inside)

/-! ## Short paths -/

theorem byteCount_slash : Encoding.byteCount [Path.slash] = 1 := by decide

/-- The bytes of a path are those of its names and of the slashes between them. -/
theorem byteCount_join (names : List Text) :
    Encoding.byteCount (Path.join names) = Encoding.byteCount names.flatten + (names.length - 1) := by
  induction names with
  | nil => rfl
  | cons name rest ih =>
    by_cases last : rest = []
    · simp [last, Path.join, Text.joinWith]
    · have positive := List.length_pos_of_ne_nil last
      rw [Path.join_cons name last, List.append_cons, Encoding.byteCount_append, Encoding.byteCount_append,
        byteCount_slash, ih, List.flatten_cons, Encoding.byteCount_append, List.length_cons]
      omega

theorem isLong_eq_false : isLong path = false ↔
    path.slashes + Encoding.byteCount path.names.flatten + (path.names.length - 1) < pathLimit := by
  have slashes : Encoding.byteCount (List.replicate path.slashes Path.slash) = path.slashes := by
    induction path.slashes with
    | zero => rfl
    | succ count ih =>
      rw [List.replicate_succ', Encoding.byteCount_append, byteCount_slash, ih]
  rw [Nat.add_assoc, ← byteCount_join, isLong, decide_eq_false_iff_not, Nat.not_le, ← slashes,
    ← Encoding.byteCount_append, Path.Parsed.toText]
  split
  case h_1 empty =>
    rw [empty]
    decide
  case h_2 => rfl

theorem byteCount_flatten_le {names others : List Text} (fewer : names.Sublist others) :
    Encoding.byteCount names.flatten ≤ Encoding.byteCount others.flatten := by
  induction fewer with
  | slnil => exact Nat.le_refl _
  | cons name _ ih =>
    rw [List.flatten_cons, Encoding.byteCount_append]
    omega
  | cons_cons name _ ih =>
    rw [List.flatten_cons, List.flatten_cons, Encoding.byteCount_append, Encoding.byteCount_append]
    omega

/-- A path is long if one with fewer names is. -/
theorem isLong_of_sublist {names others : List Text} (fewer : names.Sublist others)
    (short : isLong (path.append ⟨0, others⟩) = false) : isLong (path.append ⟨0, names⟩) = false := by
  have bytes := byteCount_flatten_le (fewer.append_left path.names)
  have length := (fewer.append_left path.names).length_le
  simp only [isLong_eq_false, Path.Parsed.append, if_true] at short ⊢
  omega

theorem isLong_of_append {below : Path.Parsed} (relative : below.slashes = 0)
    (short : isLong (path.append below) = false) : isLong path = false := by
  have whole : path.append below = path.append ⟨0, below.names⟩ := by simp [Path.Parsed.append, relative]
  have itself : path.append ⟨0, []⟩ = path := by simp [Path.Parsed.append]
  rw [whole] at short
  simpa [itself] using isLong_of_sublist (List.nil_sublist _) short

end FileTree

end Deadwood
