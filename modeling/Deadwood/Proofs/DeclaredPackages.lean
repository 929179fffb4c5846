import Deadwood.Proofs.ImportedPackage

/-!
# Declared packages

A specifier is cut into segments to find its package, but what that means for a
declared name can be read off the texts: a specifier belongs to the name if it is
the name, or begins with the name and a slash.  So the unused ones among the
declared names are those that no specifier begins with in this way.
-/

namespace Deadwood.Package

open Deadwood.Path

variable {name text : Text}

/-! ## Names as manifests declare them -/

/-- The mark in front of a scope. -/
def scopeMark : Codepoint := '@'

/-- A name with neither a scope nor a slash, or a scope and one more segment. -/
structure IsDeclarable (name : Text) : Prop where
  nonempty : name ≠ []
  shape : slash ∉ name ∧ name.head? ≠ some scopeMark ∨ name.head? = some scopeMark ∧ name.count slash = 1

instance (name : Text) : Decidable (IsDeclarable name) :=
  decidable_of_iff (name ≠ [] ∧
      (slash ∉ name ∧ name.head? ≠ some scopeMark ∨ name.head? = some scopeMark ∧ name.count slash = 1))
    ⟨fun declarable => ⟨declarable.1, declarable.2⟩,
      fun declarable => ⟨declarable.nonempty, declarable.shape⟩⟩

theorem length_segments (text : Text) : (segments text).length = text.count slash + 1 := by
  induction text with
  | nil => rfl
  | cons c rest ih =>
    rw [segments] at ih ⊢
    rw [Text.splitOn]
    by_cases is_slash : c = slash
    · simp [is_slash, ih]
    · cases split : Text.splitOn slash rest with
      | nil => exact absurd split (Text.splitOn_ne_nil slash rest)
      | cons piece pieces =>
        rw [split] at ih
        simpa [is_slash] using ih

theorem startsWith_scopeMark : Text.startsWith text "@" = true ↔ text.head? = some scopeMark :=
  Text.startsWith_singleton

theorem IsDeclarable.isName (declarable : IsDeclarable name) : IsName name := by
  rw [IsName, length_segments, segmentCount]
  rcases declarable.shape with ⟨free, unscoped⟩ | ⟨marked, once⟩
  · rw [List.count_eq_zero.mpr free, if_neg (unscoped ∘ startsWith_scopeMark.mp)]
  · rw [once, if_pos (startsWith_scopeMark.mpr marked)]

/-! ## The package of a package -/

/-- A specifier and its package begin alike, so both have a scope or neither. -/
theorem segmentCount_nameOf (text : Text) : segmentCount (nameOf text) = segmentCount text := by
  have scope : Text.startsWith (nameOf text) "@" = Text.startsWith text "@" := by
    rw [Bool.eq_iff_iff, startsWith_scopeMark, startsWith_scopeMark]
    rcases isWithin_nameOf text with same | ⟨rest, split⟩
    · rw [← same]
    · cases named : nameOf text with
      | nil =>
        rw [named] at split
        rw [← split]
        apply iff_of_false <;> simp [slash, scopeMark]
      | cons c more =>
        rw [named] at split
        rw [← split]
        rfl
  rw [segmentCount, scope, segmentCount]

theorem segments_nameOf (text : Text) :
    segments (nameOf text) = (segments text).take (segmentCount text) := by
  rw [nameOf_eq]
  apply Text.splitOn_joinWith
  · simp [List.take_eq_nil_iff, (segmentCount_pos text).ne', segments]
  · intro piece member
    exact Text.not_mem_of_mem_splitOn (List.mem_of_mem_take member)

theorem nameOf_nameOf (text : Text) : nameOf (nameOf text) = nameOf text := by
  rw [nameOf_eq (nameOf text), segments_nameOf, segmentCount_nameOf, List.take_take, Nat.min_self, ← nameOf_eq]

/-! ## Unused names -/

/-- A name of the usual form is among the unused ones exactly if it is declared, no specifier is the name or begins
with it and a slash, and no pattern matches it.  The package of a package is the package itself. -/
theorem unused_iff_unmentioned (declared used patterns : List Text) :
    (∀ name, IsDeclarable name → (name ∈ unusedDeclared declared used patterns ↔ name ∈ declared ∧
      (∀ specifier ∈ used, specifier ≠ name ∧ ¬ name ++ [slash] <+: specifier) ∧
        ∀ pattern ∈ patterns, Wildcard.accepts pattern name = false)) ∧
    ∀ text, nameOf (nameOf text) = nameOf text := by
  refine ⟨?_, nameOf_nameOf⟩
  intro name declarable
  have unmentioned : name ∉ used.map nameOf ↔
      ∀ specifier ∈ used, specifier ≠ name ∧ ¬ name ++ [slash] <+: specifier := by
    simp only [List.mem_map, nameOf_eq_iff declarable.isName, IsWithin, not_exists, not_and, not_or]
  rw [← unmentioned]
  simp [unusedDeclared]

/-- Neither a longer name nor a longer scope is a mention, and a pattern excuses only what it matches as a whole. -/
theorem unused_iff_unmentioned_longer : IsDeclarable "@a/b" ∧ ("@a/b" : Text) ∈
    unusedDeclared ["react", "@a/b"] ["react/x", "@a/bc", "@a/bc/b", "@ab/@a/b", "@a"] ["@a/?b", "b"] := by
  have declarable : IsDeclarable "@a/b" := by decide
  refine ⟨declarable, ?_⟩
  rw [(unused_iff_unmentioned _ _ _).1 _ declarable]
  decide

end Deadwood.Package
