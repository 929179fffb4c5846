import Deadwood.Script.Parse

/-!
# Outcomes of recognition

A rule is followed to a bounded depth, and one that is not finished there counts
as one that does not apply.  With more depth an alternative can apply that did
not before, so an outcome says something about a rule only if it stays the same
from some depth on.  Such outcomes are put together here from those of the parts
of a rule, one statement for each construction of rules and each way it can end.
-/

namespace Deadwood.Script

variable {Symbol : Type} {grammar : Symbol → Rule Symbol} {rule : Rule Symbol} {rules : List (Rule Symbol)}
variable {least more : Nat} {progress next : Progress} {outcome : Option Progress}
variable {cursor : Cursor} {found before : List Node} {last : Node}

/-- Followed to any depth from some depth on, a rule has this outcome. -/
def Ends (grammar : Symbol → Rule Symbol) (least : Nat) (rule : Rule Symbol) (progress : Progress)
    (outcome : Option Progress) : Prop :=
  ∀ depth, recognize grammar (depth + least) rule progress = outcome

-- Every statement below rests on the equations of `recognize`, one for each construction.
attribute [local simp] recognize

namespace Ends

theorem mono (ends : Ends grammar least rule progress outcome) (le : least ≤ more) :
    Ends grammar more rule progress outcome := by
  intro depth
  have deeper := ends (depth + (more - least))
  rwa [Nat.add_assoc, Nat.sub_add_cancel le] at deeper

/-- The same outcome, with a bound and an outcome that are written otherwise. -/
theorem weaken {other : Option Progress} (ends : Ends grammar least rule progress outcome)
    (le : least ≤ more) (same : outcome = other) : Ends grammar more rule progress other :=
  same ▸ ends.mono le

theorem symbol {symbol : Symbol} (ends : Ends grammar least (grammar symbol) progress outcome) :
    Ends grammar (least + 1) (.symbol symbol) progress outcome := by
  intro depth
  rw [← Nat.add_assoc, recognize]
  exact ends depth

theorem seq_nil : Ends grammar 1 (.seq []) progress (some progress) := by
  intro depth
  rw [recognize]

theorem seq_cons (first : Ends grammar least rule progress (some next))
    (rest : Ends grammar more (.seq rules) next outcome) :
    Ends grammar (max least more + 1) (.seq (rule :: rules)) progress outcome := by
  intro depth
  rw [← Nat.add_assoc, recognize, first.mono (Nat.le_max_left least more) depth]
  exact rest.mono (Nat.le_max_right least more) depth

theorem seq_miss (first : Ends grammar least rule progress none) :
    Ends grammar (least + 1) (.seq (rule :: rules)) progress none := by
  intro depth
  rw [← Nat.add_assoc, recognize, first depth]

theorem alt_first (first : Ends grammar least rule progress (some next)) :
    Ends grammar (least + 1) (.alt (rule :: rules)) progress (some next) := by
  intro depth
  rw [← Nat.add_assoc, recognize, first depth]

theorem alt_next (first : Ends grammar least rule progress none)
    (rest : Ends grammar more (.alt rules) progress outcome) :
    Ends grammar (max least more + 1) (.alt (rule :: rules)) progress outcome := by
  intro depth
  rw [← Nat.add_assoc, recognize, first.mono (Nat.le_max_left least more) depth]
  exact rest.mono (Nat.le_max_right least more) depth

/-- Alternatives that do not apply do not matter to those behind them. -/
theorem alt_append {others : List (Rule Symbol)} (misses : Ends grammar least (.alt rules) progress none)
    (rest : Ends grammar more (.alt others) progress outcome) :
    Ends grammar (max least more + rules.length) (.alt (rules ++ others)) progress outcome := by
  induction rules generalizing least with
  | nil => exact rest.mono (Nat.le_max_right least more)
  | cons rule rules ih =>
    have deeper := misses.mono (Nat.le_add_right least 1)
    -- At a depth where no alternative applies, neither the first one does nor one of the others.
    have first : Ends grammar least rule progress none := by
      intro depth
      have none := deeper depth
      rw [← Nat.add_assoc, recognize] at none
      cases applied : recognize grammar (depth + least) rule progress with
      | none => rfl
      | some next => simp [applied] at none
    have later : Ends grammar least (.alt rules) progress none := by
      intro depth
      have none := deeper depth
      rwa [← Nat.add_assoc, recognize, first depth] at none
    have joined := alt_next first (ih later)
    exact joined.mono (by rw [List.length_cons]; omega)

theorem many_step (first : Ends grammar least rule progress (some next))
    (moves : progress.cursor.tailOffset < next.cursor.tailOffset)
    (rest : Ends grammar more (.many rule) next outcome) :
    Ends grammar (max least more + 1) (.many rule) progress outcome := by
  intro depth
  rw [← Nat.add_assoc, recognize, first.mono (Nat.le_max_left least more) depth]
  simp only [moves, if_true]
  exact rest.mono (Nat.le_max_right least more) depth

/-- What a rule finds becomes one node; no comments stand before it. -/
theorem node {kind : Kind}
    (inner : Ends grammar least rule ⟨progress.cursor, []⟩ (some ⟨cursor, found⟩))
    (quiet : progress.cursor.comments = []) :
    Ends grammar (least + 1) (.node kind rule) progress (some ⟨cursor,
      .mk kind none progress.cursor.offset cursor.tailOffset found.reverse :: progress.nodes⟩) := by
  intro depth
  have settled : progress.settle = progress := by
    simp only [Progress.settle, quiet, List.nil_append]
    rw [← quiet]
  rw [← Nat.add_assoc, recognize]
  simp only [settled, inner depth]

/-- The last node and what a rule finds behind it become one node. -/
theorem extend {kind : Kind} {label : Label}
    (inner : Ends grammar least rule ⟨progress.cursor, [last.withLabel label]⟩ (some ⟨cursor, found⟩))
    (nodes : progress.nodes = last :: before) :
    Ends grammar (least + 1) (.extend kind (some label) rule) progress (some ⟨cursor,
      .mk kind none last.start cursor.tailOffset found.reverse :: before⟩) := by
  intro depth
  rw [← Nat.add_assoc, recognize, nodes]
  simp only [inner depth]

theorem label {label : Label} (inner : Ends grammar least rule progress (some ⟨cursor, last :: before⟩)) :
    Ends grammar (least + 1) (.label label rule) progress
      (some ⟨cursor, last.withLabel label :: before⟩) := by
  intro depth
  rw [← Nat.add_assoc, recognize, inner depth]

end Ends

end Deadwood.Script
