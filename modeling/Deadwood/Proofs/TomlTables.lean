import Deadwood.Settings.Load
import Deadwood.Proofs.Outcome
import Mathlib.Data.List.Infix

/-!
# Names in layers and tables

A layer gives a name the value that stands first under it, while a layer above
another one hides values one item after the other.  The two agree where no name
stands twice, and this is so in every table that a TOML document holds.
-/

namespace Deadwood

open Outcome

/-! ## Layers -/

namespace Layer

variable {layer below above : Layer} {name other : Text} {value : Value}

/-- The names in a layer. -/
def names (layer : Layer) : List Text := layer.map Prod.fst

@[simp] theorem names_nil : names [] = [] := rfl

@[simp] theorem names_cons (item : Text × Value) : names (item :: layer) = item.1 :: layer.names := rfl

@[simp] theorem names_append : (below ++ above).names = below.names ++ above.names := List.map_append

theorem value?_cons (item : Text × Value) :
    Layer.value? (item :: layer) name = if item.1 = name then some item.2 else layer.value? name := by
  by_cases same : item.1 = name <;> simp [value?, same]

theorem value?_eq_none : layer.value? name = none ↔ name ∉ layer.names := by
  rw [value?, Option.map_eq_none_iff, List.find?_eq_none, names, List.mem_map]
  simp only [decide_eq_true_eq, not_exists, not_and]

theorem mem_of_value? (found : layer.value? name = some value) : (name, value) ∈ layer := by
  obtain ⟨item, first, rfl⟩ := Option.map_eq_some_iff.mp found
  have named : item.1 = name := by simpa using List.find?_some first
  rw [← named]
  exact List.mem_of_find?_eq_some first

theorem value?_set_self : (layer.set name value).value? name = some value := by
  induction layer with
  | nil => simp [set, value?_cons]
  | cons item rest ih =>
    rw [set]
    split
    · simp [value?_cons]
    · rename_i differs
      rw [value?_cons, if_neg differs, ih]

theorem value?_set_of_ne (differs : name ≠ other) : (layer.set name value).value? other = layer.value? other := by
  induction layer with
  | nil => simp [set, value?_cons, differs]
  | cons item rest ih =>
    rw [set]
    split
    · rename_i same
      simp [value?_cons, same, differs]
    · rw [value?_cons, value?_cons, ih]

theorem mem_names_set : other ∈ (layer.set name value).names ↔ other = name ∨ other ∈ layer.names := by
  rw [← not_iff_not, not_or, ← value?_eq_none, ← value?_eq_none]
  by_cases same : other = name
  · simp [same, value?_set_self]
  · simp [value?_set_of_ne (Ne.symm same), same]

theorem mem_set {item : Text × Value} (member : item ∈ layer.set name value) :
    item = (name, value) ∨ item ∈ layer := by
  induction layer with
  | nil => exact .inl (List.mem_singleton.mp member)
  | cons first rest ih =>
    rw [set] at member
    split at member
    · rcases List.mem_cons.mp member with rfl | later
      · exact .inl rfl
      · exact .inr (List.mem_cons_of_mem first later)
    · rcases List.mem_cons.mp member with rfl | later
      · exact .inr List.mem_cons_self
      · exact (ih later).imp_right (List.mem_cons_of_mem first)

theorem nodup_names_set (distinct : layer.names.Nodup) : (layer.set name value).names.Nodup := by
  induction layer with
  | nil => simp [set]
  | cons item rest ih =>
    rw [names_cons, List.nodup_cons] at distinct
    obtain ⟨fresh, distinct⟩ := distinct
    rw [set]
    split
    · rename_i same
      rw [same] at fresh
      rw [names_cons, List.nodup_cons]
      exact ⟨fresh, distinct⟩
    · rename_i differs
      rw [names_cons, List.nodup_cons, mem_names_set, not_or]
      exact ⟨⟨differs, fresh⟩, ih distinct⟩

/-- A value above hides the one below. -/
theorem value?_hiddenBy (distinct : above.names.Nodup) :
    (below.hiddenBy above).value? name = (above.value? name).or (below.value? name) := by
  induction above generalizing below with
  | nil => rfl
  | cons item rest ih =>
    obtain ⟨fresh, distinct⟩ := List.nodup_cons.mp distinct
    have step : below.hiddenBy (item :: rest) = (below.set item.1 item.2).hiddenBy rest := rfl
    rw [step, ih distinct, value?_cons]
    by_cases same : item.1 = name
    · rw [same] at fresh
      rw [if_pos same, ← same, value?_set_self, same, value?_eq_none.mpr fresh]
      rfl
    · rw [if_neg same, value?_set_of_ne same]

theorem nodup_names_hiddenBy (distinct : below.names.Nodup) : (below.hiddenBy above).names.Nodup := by
  induction above generalizing below with
  | nil => exact distinct
  | cons item rest ih => exact ih (nodup_names_set distinct)

theorem value?_filter {kept : Text × Value → Bool} (distinct : layer.names.Nodup) :
    Layer.value? (layer.filter kept) name = (layer.value? name).filter fun value => kept (name, value) := by
  induction layer with
  | nil => rfl
  | cons item rest ih =>
    obtain ⟨fresh, distinct⟩ := List.nodup_cons.mp distinct
    rw [value?_cons, List.filter_cons]
    by_cases same : item.1 = name
    · rw [same] at fresh
      have here : kept (name, item.2) = kept item := by rw [← same]
      rw [if_pos same, Option.filter_some, here]
      split
      · rw [value?_cons, if_pos same]
      · rw [ih distinct, value?_eq_none.mpr fresh, Option.filter_none]
    · rw [if_neg same, ← ih distinct]
      split
      · rw [value?_cons, if_neg same]
      · rfl

end Layer

namespace Toml

/-! ## Tables -/

/-- No table in a value has a name twice. -/
inductive IsRegular : Value → Prop
  | scalar {value : Value} (simple : isContainer value = false) : IsRegular value
  | list {items : List Value} (regular : ∀ item ∈ items, IsRegular item) : IsRegular (.list items)
  | table {members : Layer} (distinct : members.names.Nodup)
      (regular : ∀ member ∈ members, IsRegular member.2) : IsRegular (.table members)

variable {table : Layer} {name : Text} {value : Value}

/-- Tables change as layers do. -/
theorem assign_eq_set : assign name value table = table.set name value := by
  induction table with
  | nil => rfl
  | cons item rest ih => rw [assign, Layer.set, ih]

namespace IsRegular

theorem items {items : List Value} (regular : IsRegular (.list items)) : ∀ item ∈ items, IsRegular item := by
  cases regular with
  | scalar simple => cases simple
  | list regular => exact regular

theorem distinct (regular : IsRegular (.table table)) : table.names.Nodup := by
  cases regular with
  | scalar simple => cases simple
  | table distinct => exact distinct

theorem members (regular : IsRegular (.table table)) : ∀ member ∈ table, IsRegular member.2 := by
  cases regular with
  | scalar simple => cases simple
  | table _ regular => exact regular

theorem empty : IsRegular (.table []) := .table List.nodup_nil nofun

theorem lookup (regular : IsRegular (.table table)) (found : lookup name table = some value) :
    IsRegular value :=
  regular.members _ (Layer.mem_of_value? found)

theorem assign (regular : IsRegular (.table table)) (inner : IsRegular value) :
    IsRegular (.table (assign name value table)) := by
  rw [assign_eq_set]
  refine .table (Layer.nodup_names_set regular.distinct) fun member found => ?_
  rcases Layer.mem_set found with rfl | old
  · exact inner
  · exact regular.members _ old

theorem append (regular : IsRegular (.table table)) (fresh : Toml.lookup name table = none)
    (inner : IsRegular value) : IsRegular (.table (table ++ [(name, value)])) := by
  refine .table ?_ ?_
  · rw [Layer.names_append]
    refine List.nodup_append.mpr ⟨regular.distinct, by simp, ?_⟩
    rintro known found _ only rfl
    rw [List.mem_singleton.mp only] at found
    exact Layer.value?_eq_none.mp fresh found
  · intro member found
    rcases List.mem_append.mp found with old | new
    · exact regular.members _ old
    · rw [List.mem_singleton.mp new]
      exact inner

theorem dropLast {items : List Value} (regular : IsRegular (.list items)) : IsRegular (.list items.dropLast) :=
  .list fun item member => regular.items item (List.mem_of_mem_dropLast member)

theorem concat {items : List Value} (regular : IsRegular (.list items)) (inner : IsRegular value) :
    IsRegular (.list (items ++ [value])) := by
  refine .list fun item member => ?_
  rcases List.mem_append.mp member with old | new
  · exact regular.items _ old
  · rw [List.mem_singleton.mp new]
    exact inner

end IsRegular

/-- A change of a table that makes no name stand twice. -/
def KeepsRegular (change : Layer → Option Layer) : Prop :=
  ∀ members after, IsRegular (.table members) → change members = some after → IsRegular (.table after)

theorem keepsRegular_some : KeepsRegular some := by
  rintro members _ regular ⟨⟩
  exact regular

theorem keepsRegular_define (inner : IsRegular value) : KeepsRegular (define name value) := by
  intro members after regular defined
  rw [define] at defined
  split at defined
  case isTrue => cases defined
  case isFalse fresh =>
    cases defined
    exact regular.append (Option.not_isSome_iff_eq_none.mp fresh) inner

theorem keepsRegular_appendTable : KeepsRegular (appendTable name) := by
  intro members after regular appended
  rw [appendTable] at appended
  split at appended
  case h_1 fresh =>
    cases appended
    exact regular.append fresh (.list (List.forall_mem_singleton.mpr .empty))
  case h_2 items found =>
    cases appended
    exact regular.assign ((regular.lookup found).concat .empty)
  case h_3 => cases appended

/-- What a change keeps in a table, it keeps in the table under a key. -/
theorem keepsRegular_changeTable {openArrays : Bool} {change : Layer → Option Layer} (keeps : KeepsRegular change)
    (key : Key) : KeepsRegular (changeTable openArrays change key) := by
  induction key with
  | nil => exact keeps
  | cons name key ih =>
    intro members after regular changed
    rw [changeTable] at changed
    split at changed
    case h_1 =>
      obtain ⟨inner, inside, rfl⟩ := Option.map_eq_some_iff.mp changed
      exact regular.assign (ih _ _ .empty inside)
    case h_2 table found =>
      obtain ⟨inner, inside, rfl⟩ := Option.map_eq_some_iff.mp changed
      exact regular.assign (ih _ _ (regular.lookup found) inside)
    case h_3 items found =>
      have array := regular.lookup found
      split at changed
      case isTrue =>
        split at changed
        case h_1 table last =>
          obtain ⟨inner, inside, rfl⟩ := Option.map_eq_some_iff.mp changed
          have before := array.items _ (List.mem_of_getLast? last)
          exact regular.assign (array.dropLast.concat (ih _ _ before inside))
        case h_2 => cases changed
      case isFalse => cases changed
    case h_4 => cases changed

/-! ## Values -/

/-- A text that is read is regular as a value. -/
theorem regular_readText (outcome : Except ReadError (Text × Place)) :
    Yields (IsRegular ·.1) (outcome.map fun (text, next) => (Value.text text, next)) := by
  intro result read
  obtain ⟨before, -, rfl⟩ := map_eq_ok.mp read
  exact .scalar rfl

theorem regular_decimalNumber? {text : Text} {outcome : Except ReadError Value} {width : Nat}
    (read : decimalNumber? text = some (outcome, width)) : Yields IsRegular outcome := by
  unfold decimalNumber? at read
  extract_lets negative signed body at read
  split at read
  split at read
  case isTrue => cases read
  case isFalse =>
    extract_lets start after at read
    split at read
    split at read
    split at read
    case isTrue =>
      simp only [Option.some.injEq, Prod.mk.injEq] at read
      rw [← read.1]
      split
      · exact yields_error _
      · exact yields_ok.mpr (.scalar rfl)
    case isFalse =>
      cases read
      exact yields_ok.mpr (.scalar rfl)

theorem regular_readScalar (place : Place) : Yields (IsRegular ·.1) (readScalar place) := by
  have plain : ∀ {value : Value} {next : Place}, isContainer value = false →
      Yields (IsRegular ·.1) (.ok (value, next) : Except ReadError (Value × Place)) :=
    fun simple => yields_ok.mpr (.scalar simple)
  unfold readScalar
  refine .ite (regular_readText _) <| .ite (regular_readText _) <| .ite (regular_readText _) <|
    .ite (regular_readText _) <| .ite (plain rfl) <| .ite (plain rfl) ?_
  split
  · exact .ite (plain rfl) (yields_error _)
  split
  · exact plain rfl
  split
  · exact plain rfl
  split
  case h_1 outcome width read =>
    intro result mapped
    obtain ⟨value, found, rfl⟩ := map_eq_ok.mp mapped
    exact regular_decimalNumber? read value found
  case h_2 =>
    exact .ite (plain rfl) <| .ite (plain rfl) <| .ite (plain rfl) <| .ite (plain rfl) (yields_error _)

/-- What the four readers yield with a given number of steps. -/
structure ReadsRegular (bound : Nat) : Prop where
  value : ∀ depth place, Yields (IsRegular ·.1) (readValue bound depth place)
  items : ∀ depth found place, IsRegular (.list found) →
    Yields (IsRegular ·.1) (readItems bound depth found place)
  members : ∀ depth frozen found place, IsRegular (.table found) →
    Yields (IsRegular ·.1) (readMembers bound depth frozen found place)
  pair : ∀ depth place, Yields (IsRegular ·.2.1) (readPair bound depth place)

namespace ReadsRegular

variable {bound : Nat}

theorem pair_succ (reads : ReadsRegular bound) (depth : Nat) (place : Place) :
    Yields (IsRegular ·.2.1) (readPair (bound + 1) depth place) := by
  rw [readPair]
  refine Yields.bind (fun _ _ => trivial) ?_
  rintro ⟨key, next⟩ -
  refine .ite (yields_error _) ((reads.value depth _).bind ?_)
  rintro ⟨value, after⟩ regular
  exact yields_ok.mpr regular

theorem items_succ (reads : ReadsRegular bound) (depth : Nat) (found : List Value) (place : Place)
    (before : IsRegular (.list found)) : Yields (IsRegular ·.1) (readItems (bound + 1) depth found place) := by
  rw [readItems]
  refine (reads.value depth place).bind ?_
  rintro ⟨value, next⟩ regular
  have all : IsRegular (.list (value :: found)) :=
    .list (List.forall_mem_cons.mpr ⟨regular, before.items⟩)
  have closed : IsRegular (.list (value :: found).reverse) :=
    .list fun item member => all.items item (List.mem_reverse.mp member)
  refine Yields.bind (fun _ _ => trivial) fun blank _ => ?_
  refine .ite (yields_ok.mpr closed) <| .ite (yields_error _) ?_
  refine Yields.bind (fun _ _ => trivial) fun last _ => ?_
  exact .ite (yields_ok.mpr closed) (reads.items depth _ last all)

theorem members_succ (reads : ReadsRegular bound) (depth : Nat) (frozen : List Key) (found : Layer) (place : Place)
    (before : IsRegular (.table found)) :
    Yields (IsRegular ·.1) (readMembers (bound + 1) depth frozen found place) := by
  rw [readMembers]
  refine (reads.pair depth place).bind ?_
  rintro ⟨key, value, next⟩ regular
  refine .ite (yields_error _) ?_
  dsimp only
  split
  case h_1 => exact yields_error _
  case h_2 =>
    split
    case h_1 => exact yields_error _
    case h_2 table changed =>
      have after := keepsRegular_changeTable (keepsRegular_define regular) _ _ _ before changed
      exact .ite (yields_ok.mpr after) <| .ite (yields_error _) (reads.members depth _ _ _ after)

theorem value_succ (reads : ReadsRegular bound) (depth : Nat) (place : Place) :
    Yields (IsRegular ·.1) (readValue (bound + 1) depth place) := by
  rw [readValue]
  refine .ite (.ite (yields_error _) ?_) <| .ite (.ite (yields_error _) ?_) (regular_readScalar place)
  · refine Yields.bind (fun _ _ => trivial) fun inside _ => ?_
    have empty : IsRegular (.list []) := .list (List.forall_mem_nil _)
    exact .ite (yields_ok.mpr empty) (reads.items _ [] inside empty)
  · exact .ite (yields_ok.mpr .empty) (reads.members _ [] [] _ .empty)

end ReadsRegular

theorem readsRegular (bound : Nat) : ReadsRegular bound := by
  induction bound with
  | zero =>
    constructor <;> intros <;> simp only [readValue, readItems, readMembers, readPair] <;> exact yields_error _
  | succ bound ih => exact ⟨ih.value_succ, ih.items_succ, ih.members_succ, ih.pair_succ⟩

/-! ## Documents -/

/-- The data of a document hold no name twice. -/
def Document.IsRegular (document : Document) : Prop := Toml.IsRegular (.table document.data)

variable {document : Document}

theorem regular_readAssignment (before : document.IsRegular) (bound : Nat) (place : Place) :
    Yields (·.1.IsRegular) (readAssignment bound document place) := by
  rw [readAssignment]
  refine ((readsRegular bound).pair depthLimit place).bind ?_
  rintro ⟨key, value, next⟩ regular
  dsimp only
  split
  case h_1 => exact yields_error _
  case h_2 =>
    refine .ite (yields_error _) ?_
    split
    case h_1 => exact yields_error _
    case h_2 data changed =>
      exact yields_ok.mpr (keepsRegular_changeTable (keepsRegular_define regular) _ _ _ before changed)

theorem regular_readTableHeader (before : document.IsRegular) (place : Place) :
    Yields (·.1.IsRegular) (readTableHeader document place) := by
  rw [readTableHeader]
  refine Yields.bind (fun _ _ => trivial) ?_
  rintro ⟨key, next⟩ -
  refine .ite (yields_error _) ?_
  split
  case h_1 => exact yields_error _
  case h_2 data changed =>
    exact .ite (yields_error _)
      (yields_ok.mpr (keepsRegular_changeTable keepsRegular_some _ _ _ before changed))

theorem regular_readArrayHeader (before : document.IsRegular) (place : Place) :
    Yields (·.1.IsRegular) (readArrayHeader document place) := by
  rw [readArrayHeader]
  refine Yields.bind (fun _ _ => trivial) ?_
  rintro ⟨key, next⟩ -
  refine .ite (yields_error _) ?_
  split
  case h_1 => exact yields_error _
  case h_2 data changed =>
    exact .ite (yields_error _)
      (yields_ok.mpr (keepsRegular_changeTable keepsRegular_appendTable _ _ _ before changed))

theorem regular_endStatement {goOn : Place → Except ReadError Document} (before : document.IsRegular)
    (later : ∀ place, Yields Document.IsRegular (goOn place)) (place : Place) :
    Yields Document.IsRegular (endStatement goOn document place) := by
  refine Yields.bind (fun _ _ => trivial) fun next _ => ?_
  split
  · exact yields_ok.mpr before
  · exact .ite (later _) (yields_error _)

theorem regular_readStatements (bound : Nat) (before : document.IsRegular) (place : Place) :
    Yields Document.IsRegular (readStatements bound document place) := by
  induction bound generalizing document place with
  | zero => exact yields_ok.mpr before
  | succ bound ih =>
    rw [readStatements]
    -- What follows is the same behind every kind of statement.
    have later : ∀ read : Document × Place, read.1.IsRegular →
        Yields Document.IsRegular (endStatement (readStatements bound read.1) read.1 read.2) :=
      fun read regular => regular_endStatement regular (ih regular) read.2
    dsimp only
    split
    · exact yields_ok.mpr before
    · exact .ite (ih before _) <| .ite ((regular_readAssignment before _ _).bind later) <|
        .ite ((regular_readArrayHeader before _).bind later) <|
        .ite ((regular_readTableHeader before _).bind later) <|
        .ite (later (document, _) before) (yields_error _)

/-- No table that a document holds has a name twice. -/
theorem isRegular_of_read {text : Text} {table : Layer} (parsed : read text = .ok table) :
    IsRegular (.table table) := by
  simp only [read, bind, bind_eq_ok, pure, Except.pure, Except.ok.injEq] at parsed
  obtain ⟨document, statements, rfl⟩ := parsed
  have start : Document.IsRegular {} := IsRegular.empty
  exact regular_readStatements _ start _ document statements

end Toml

end Deadwood
