import Mathlib.Data.List.Basic
import Deadwood.Log

/-!
# Outcomes of successful runs

A computation of several steps ends well only if each of its steps does.  The
lemmas here take a successful run apart, step by step and element by element.
-/

namespace Deadwood.Outcome

variable {α β ε : Type}

theorem bind_eq_ok {first : Except ε α} {next : α → Except ε β} {value : β} :
    first.bind next = .ok value ↔ ∃ middle, first = .ok middle ∧ next middle = .ok value := by
  cases first with
  | error fault => simp [Except.bind]
  | ok middle => simp [Except.bind]

@[simp] theorem result_throw (failure : Failure) :
    (throw failure : Noted α).result = .error failure := rfl

@[simp] theorem result_outcome (first : Noted α) : first.outcome.result = .ok first.result := rfl

theorem mapError_eq_ok {ε' : Type} {f : ε → ε'} {outcome : Except ε α} {value : α} :
    outcome.mapError f = .ok value ↔ outcome = .ok value := by
  cases outcome <;> simp [Except.mapError]

theorem liftFault_eq_ok {outcome : Except Fault α} {value : α} :
    (Noted.liftFault outcome).result = .ok value ↔ outcome = .ok value :=
  mapError_eq_ok

theorem map_eq_ok {f : α → β} {outcome : Except ε α} {value : β} :
    outcome.map f = .ok value ↔ ∃ before, outcome = .ok before ∧ f before = value := by
  cases outcome <;> simp [Except.map]

theorem map_eq_error {f : α → β} {outcome : Except ε α} {fault : ε} :
    outcome.map f = .error fault ↔ outcome = .error fault := by
  cases outcome <;> simp [Except.map]

theorem map_bind {γ : Type} (first : Except ε α) (next : α → Except ε β) (f : β → γ) :
    (first.bind next).map f = first.bind fun value => (next value).map f := by
  cases first <;> rfl

theorem bind_map {γ : Type} (first : Except ε α) (f : α → β) (next : β → Except ε γ) :
    (first.map f).bind next = first.bind fun value => next (f value) := by
  cases first <;> rfl

theorem bind_bind {γ : Type} (first : Except ε α) (next : α → Except ε β) (last : β → Except ε γ) :
    (first.bind next).bind last = first.bind fun value => (next value).bind last := by
  cases first <;> rfl

theorem bind_congr {first : Except ε α} {next other : α → Except ε β}
    (same : ∀ value, next value = other value) : first.bind next = first.bind other := by
  rw [funext same]

theorem bind_congr_of_ok {first : Except ε α} {next other : α → Except ε β}
    (same : ∀ value, first = .ok value → next value = other value) : first.bind next = first.bind other := by
  cases first with
  | error fault => rfl
  | ok value => exact same value rfl

theorem toOption_eq_some {outcome : Except ε α} {value : α} :
    outcome.toOption = some value ↔ outcome = .ok value := by
  cases outcome <;> simp [Except.toOption]

theorem toOption_eq_none {outcome : Except ε α} :
    outcome.toOption = none ↔ ∃ fault, outcome = .error fault := by
  cases outcome <;> simp [Except.toOption]

/-- An outcome is a result or an error of a certain kind. -/
def Within (P : ε → Prop) (outcome : Except ε α) : Prop := ∀ fault, outcome = .error fault → P fault

section

variable {P : ε → Prop}

theorem within_iff {outcome : Except ε α} :
    Within P outcome ↔ (∃ value, outcome = .ok value) ∨ ∃ fault, outcome = .error fault ∧ P fault := by
  cases outcome <;> simp [Within]

@[simp] theorem within_ok (value : α) : Within P (.ok value) := nofun

@[simp] theorem within_error {fault : ε} : Within P (.error fault : Except ε α) ↔ P fault := by
  simp [Within]

/-- A computation of two steps errs as its first step does, or as the second where the first goes well. -/
theorem within_bind {first : Except ε α} {next : α → Except ε β} : Within P (first.bind next) ↔
    Within P first ∧ ∀ value, first = .ok value → Within P (next value) := by
  cases first <;> simp [Except.bind]

theorem within_mapM {f : α → Except ε β} {xs : List α} (each : ∀ x ∈ xs, Within P (f x)) :
    Within P (xs.mapM f) := by
  induction xs with
  | nil => exact within_ok []
  | cons x xs ih =>
    obtain ⟨head, tail⟩ := List.forall_mem_cons.mp each
    simp only [List.mapM_cons, bind]
    refine within_bind.mpr ⟨head, fun _ _ => within_bind.mpr ⟨ih tail, fun _ _ => within_ok _⟩⟩

end

/-- The result of an outcome, if there is one, has a property. -/
def Yields (P : α → Prop) (outcome : Except ε α) : Prop := ∀ value, outcome = .ok value → P value

section

variable {P : α → Prop} {Q : β → Prop}

@[simp] theorem yields_ok {value : α} : Yields P (.ok value : Except ε α) ↔ P value := by
  simp [Yields]

@[simp] theorem yields_error (fault : ε) : Yields P (.error fault) := nofun

theorem Yields.ite {c : Prop} [Decidable c] {first second : Except ε α} (holds : Yields P first)
    (fails : Yields P second) : Yields P (if c then first else second) := by
  split
  · exact holds
  · exact fails

/-- The second step may use what the first one yields. -/
theorem Yields.bind {first : Except ε α} {next : α → Except ε β} (yields : Yields P first)
    (later : ∀ value, P value → Yields Q (next value)) : Yields Q (first.bind next) := by
  intro value ran
  obtain ⟨middle, reached, ran⟩ := bind_eq_ok.mp ran
  exact later middle (yields middle reached) value ran

end

theorem mapM_cons_eq_ok {f : α → Except ε β} {x : α} {xs : List α} {ys : List β} :
    (x :: xs).mapM f = .ok ys ↔ ∃ y rest, f x = .ok y ∧ xs.mapM f = .ok rest ∧ ys = y :: rest := by
  simp only [List.mapM_cons, bind, bind_eq_ok, pure, Except.pure, Except.ok.injEq]
  constructor
  · rintro ⟨y, head, rest, tail, rfl⟩
    exact ⟨y, rest, head, tail, rfl⟩
  · rintro ⟨y, rest, head, tail, rfl⟩
    exact ⟨y, head, rest, tail, rfl⟩

theorem length_mapM {f : α → Except ε β} {xs : List α} {ys : List β} (ran : xs.mapM f = .ok ys) :
    ys.length = xs.length := by
  induction xs generalizing ys with
  | nil =>
    cases ran
    rfl
  | cons x xs ih =>
    obtain ⟨y, rest, -, later, rfl⟩ := mapM_cons_eq_ok.mp ran
    rw [List.length_cons, List.length_cons, ih later]

theorem mem_of_mapM {f : α → Except ε β} {xs : List α} {ys : List β} (ran : xs.mapM f = .ok ys)
    (y : β) : y ∈ ys ↔ ∃ x ∈ xs, f x = .ok y := by
  induction xs generalizing ys with
  | nil =>
    cases ran
    simp
  | cons x xs ih =>
    obtain ⟨z, rest, head, tail, rfl⟩ := mapM_cons_eq_ok.mp ran
    simp [head, ih tail, eq_comm]

/-- No element fails where all of them are passed. -/
theorem exists_of_mapM {f : α → Except ε β} {xs : List α} {ys : List β} (ran : xs.mapM f = .ok ys)
    {x : α} (member : x ∈ xs) : ∃ y, f x = .ok y := by
  induction xs generalizing ys with
  | nil => cases member
  | cons first rest ih =>
    obtain ⟨y, others, head, tail, rfl⟩ := mapM_cons_eq_ok.mp ran
    rcases List.mem_cons.mp member with rfl | later
    · exact ⟨y, head⟩
    · exact ih tail later

theorem exists_mapM_iff {f : α → Except ε β} {xs : List α} :
    (∃ ys, xs.mapM f = .ok ys) ↔ ∀ x ∈ xs, ∃ y, f x = .ok y := by
  constructor
  · rintro ⟨ys, ran⟩ x member
    exact exists_of_mapM ran member
  · intro each
    induction xs with
    | nil => exact ⟨[], rfl⟩
    | cons x rest ih =>
      obtain ⟨first, others⟩ := List.forall_mem_cons.mp each
      obtain ⟨y, head⟩ := first
      obtain ⟨ys, tail⟩ := ih others
      exact ⟨y :: ys, mapM_cons_eq_ok.mpr ⟨y, ys, head, tail, rfl⟩⟩

theorem mapM_congr {f g : α → Except ε β} {xs : List α} (same : ∀ x ∈ xs, f x = g x) :
    xs.mapM f = xs.mapM g := by
  induction xs with
  | nil => rfl
  | cons x rest ih =>
    obtain ⟨first, others⟩ := List.forall_mem_cons.mp same
    rw [List.mapM_cons, List.mapM_cons, first, ih others]

theorem mapM_map {γ : Type} (f : α → Except ε β) (g : β → γ) (xs : List α) :
    (xs.mapM fun x => (f x).map g) = (xs.mapM f).map (List.map g) := by
  induction xs with
  | nil => rfl
  | cons x rest ih =>
    simp only [List.mapM_cons, ih, bind]
    cases f x with
    | error fault => rfl
    | ok y => cases rest.mapM f <;> rfl

/-- The filter's loop: it keeps what was kept before and what passes, and no test of it failed. -/
private theorem mem_of_filterAuxM {test : α → Except ε Bool} {xs before kept : List α}
    (ran : xs.filterAuxM test before = .ok kept) :
    (∀ x, x ∈ kept ↔ x ∈ before ∨ (x ∈ xs ∧ test x = .ok true)) ∧
      ∀ x ∈ xs, ∃ passed, test x = .ok passed := by
  induction xs generalizing before with
  | nil =>
    cases ran
    simp
  | cons x xs ih =>
    simp only [List.filterAuxM, bind, bind_eq_ok] at ran
    obtain ⟨passed, head, tail⟩ := ran
    obtain ⟨members, tested⟩ := ih tail
    refine ⟨fun y => ?_, fun y member => ?_⟩
    · by_cases equal : y = x
      · cases passed with
        | true => simp [equal, head, members]
        | false => simp [equal, head, members]
      · cases passed with
        | true => simp [equal, members]
        | false => simp [equal, members]
    · rcases List.mem_cons.mp member with rfl | inside
      · exact ⟨passed, head⟩
      · exact tested y inside

/-- A filter whose test can fail keeps what passes, and no test of it failed. -/
theorem mem_of_filterM {test : α → Except ε Bool} {xs kept : List α}
    (ran : xs.filterM test = .ok kept) :
    (∀ x, x ∈ kept ↔ x ∈ xs ∧ test x = .ok true) ∧ ∀ x ∈ xs, ∃ passed, test x = .ok passed := by
  simp only [List.filterM, bind, bind_eq_ok, pure, Except.pure, Except.ok.injEq] at ran
  obtain ⟨reversed, looped, rfl⟩ := ran
  simpa using mem_of_filterAuxM looped

/-- A filter none of whose tests fails has a result. -/
theorem exists_filterM {test : α → Except ε Bool} (xs : List α)
    (tested : ∀ x ∈ xs, ∃ passed, test x = .ok passed) : ∃ kept, xs.filterM test = .ok kept := by
  have looped : ∀ before, ∃ kept, xs.filterAuxM test before = .ok kept := by
    induction xs with
    | nil => exact fun before => ⟨before, rfl⟩
    | cons x xs ih =>
      intro before
      obtain ⟨passed, head⟩ := tested x List.mem_cons_self
      obtain ⟨kept, tail⟩ :=
        ih (fun y member => tested y (List.mem_cons_of_mem x member)) (cond passed (x :: before) before)
      exact ⟨kept, by simp [List.filterAuxM, bind, head, Except.bind, tail]⟩
  obtain ⟨kept, ran⟩ := looped []
  exact ⟨kept.reverse, by simp [List.filterM, bind, ran, Except.bind, pure, Except.pure]⟩

end Deadwood.Outcome
