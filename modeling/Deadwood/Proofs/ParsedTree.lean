import Deadwood.Proofs.TreeWalk

/-!
# Trees of sources

What a rule finds when it applies is said here as a relation, without a depth and
without the alternatives that did not apply, so that a property of trees is
carried through the reading of a source by one induction.  In the tree of a
source no template is the value of an attribute without braces around it: the
grammar has no such attribute, which is checked rule by rule.
-/

namespace Deadwood.Script

/-! ## What a rule finds -/

section

variable {Symbol : Type} {grammar : Symbol → Rule Symbol}

/-- A rule can lead from one place to another.  The steps that look ahead are only known to stay in place. -/
inductive Reads (grammar : Symbol → Rule Symbol) : Rule Symbol → Progress → Progress → Prop where
  | lexeme {lexeme progress} (width : Nat) (fits : lexeme.width progress.cursor.rest = some width) :
      Reads grammar (.lexeme lexeme) progress (progress.pass width)
  | templateChars {progress} (width : Nat) :
      Reads grammar .templateChars progress { progress with cursor := progress.cursor.advanceTail width }
  | markupText {progress} (width : Nat) :
      Reads grammar .markupText progress { progress with cursor := progress.cursor.advanceTail width }
  | symbol {symbol progress next} (inner : Reads grammar (grammar symbol) progress next) :
      Reads grammar (.symbol symbol) progress next
  | seq_nil {progress} : Reads grammar (.seq []) progress progress
  | seq_cons {rule rules progress middle next} (first : Reads grammar rule progress middle)
      (rest : Reads grammar (.seq rules) middle next) : Reads grammar (.seq (rule :: rules)) progress next
  | alt {rule rules progress next} (member : rule ∈ rules) (inner : Reads grammar rule progress next) :
      Reads grammar (.alt rules) progress next
  | many_stop {rule progress} : Reads grammar (.many rule) progress progress
  | many_step {rule progress middle next} (first : Reads grammar rule progress middle)
      (rest : Reads grammar (.many rule) middle next) : Reads grammar (.many rule) progress next
  | without {rule progress} : Reads grammar (.unless rule) progress progress
  | ahead {rule progress} : Reads grammar (.ahead rule) progress progress
  | lastIs {kinds progress} : Reads grammar (.lastIs kinds) progress progress
  | lineEnd {afterExpression signature progress} :
      Reads grammar (.lineEnd afterExpression signature) progress progress
  | node {kind rule progress next} (inner : Reads grammar rule { progress.settle with nodes := [] } next) :
      Reads grammar (.node kind rule) progress { next with
        nodes := .mk kind none progress.settle.cursor.offset next.cursor.tailOffset next.nodes.reverse ::
          progress.settle.nodes }
  | extend {kind base rule progress last before first next} (nodes : progress.nodes = last :: before)
      (same : first = last ∨ ∃ label, first = last.withLabel label)
      (inner : Reads grammar rule { progress with nodes := [first] } next) :
      Reads grammar (.extend kind base rule) progress { next with
        nodes := .mk kind none last.start next.cursor.tailOffset next.nodes.reverse :: before }
  | label {label rule progress next last before} (inner : Reads grammar rule progress next)
      (nodes : next.nodes = last :: before) :
      Reads grammar (.label label rule) progress { next with nodes := last.withLabel label :: before }

theorem reads_of_passTail {progress next : Progress} {width : Nat} (passed : progress.passTail width = some next) :
    next = { progress with cursor := progress.cursor.advanceTail width } := by
  rw [Progress.passTail] at passed
  split at passed
  · cases passed
  · exact (Option.some.inj passed).symm

theorem reads_of_recognize {depth : Nat} {rule : Rule Symbol} {progress next : Progress}
    (found : recognize grammar depth rule progress = some next) : Reads grammar rule progress next := by
  induction depth generalizing rule progress next with
  | zero => cases found
  | succ depth ih =>
    cases rule with
    | lexeme lexeme =>
      rw [recognize] at found
      obtain ⟨width, fits, rfl⟩ := Option.map_eq_some_iff.mp found
      exact .lexeme width fits
    | templateChars =>
      rw [recognize] at found
      rw [reads_of_passTail found]
      exact .templateChars _
    | markupText =>
      rw [recognize] at found
      rw [reads_of_passTail found]
      exact .markupText _
    | symbol symbol =>
      rw [recognize] at found
      exact .symbol (ih found)
    | seq rules =>
      cases rules with
      | nil =>
        rw [recognize] at found
        cases found
        exact .seq_nil
      | cons rule rules =>
        rw [recognize] at found
        split at found
        case h_1 middle first => exact .seq_cons (ih first) (ih found)
        case h_2 => cases found
    | alt rules =>
      cases rules with
      | nil => cases found
      | cons rule rules =>
        rw [recognize] at found
        split at found
        case h_1 middle first =>
          cases found
          exact .alt List.mem_cons_self (ih first)
        case h_2 =>
          have later := ih found
          cases later with
          | alt member inner => exact .alt (List.mem_cons_of_mem _ member) inner
    | many rule =>
      rw [recognize] at found
      split at found
      case h_1 middle first =>
        split at found
        · exact .many_step (ih first) (ih found)
        · cases found
          exact .many_stop
      case h_2 =>
        cases found
        exact .many_stop
    | «unless» rule =>
      rw [recognize] at found
      split at found
      case h_1 => cases found
      case h_2 =>
        cases found
        exact .without
    | ahead rule =>
      rw [recognize] at found
      split at found
      case h_1 =>
        cases found
        exact .ahead
      case h_2 => cases found
    | node kind rule =>
      rw [recognize] at found
      split at found
      case h_1 middle inner =>
        cases found
        exact .node (ih inner)
      case h_2 => cases found
    | extend kind base rule =>
      rw [recognize] at found
      split at found
      case h_1 => cases found
      case h_2 last before nodes =>
        dsimp only at found
        split at found
        case h_1 middle inner =>
          cases found
          refine .extend nodes ?_ (ih inner)
          cases base with
          | none => exact .inl rfl
          | some label => exact .inr ⟨label, rfl⟩
        case h_2 => cases found
    | label label rule =>
      rw [recognize] at found
      split at found
      case h_1 middle inner =>
        split at found
        case h_1 last before nodes =>
          cases found
          exact .label (ih inner) nodes
        case h_2 => cases found
      case h_2 => cases found
    | lastIs kinds =>
      rw [recognize] at found
      split at found
      case h_1 =>
        split at found
        · cases found
          exact .lastIs
        · cases found
      case h_2 => cases found
    | lineEnd afterExpression signature =>
      rw [recognize] at found
      split at found
      · cases found
        exact .lineEnd
      · cases found

end

/-! ## The end of a reading -/

section

variable {keeps : Progress → Prop}

theorem statements_keeps {dialect : Dialect} {depth bound : Nat} {progress : Progress}
    (statement : ∀ {before after}, Reads (grammar dialect) (.symbol .statement) before after →
      keeps before → keeps after)
    (fault : ∀ {before}, keeps before → keeps (passFault before)) (start : keeps progress) :
    keeps (statements dialect depth bound progress) := by
  induction bound generalizing progress with
  | zero => exact start
  | succ bound ih =>
    rw [statements]
    split
    · exact start
    · split
      case h_1 next found => exact ih (statement (reads_of_recognize found) start)
      case h_2 => exact ih (fault start)

/-- What every step of the reading of a source keeps holds where the reading ends. -/
theorem parse_keeps (dialect : Dialect) (source : List Char) (begin : keeps ⟨Cursor.begin source, []⟩)
    (opening : ∀ {before after}, Reads (grammar dialect) (Clause.leaf .other .hashLine) before after →
      keeps before → keeps after)
    (statement : ∀ {before after}, Reads (grammar dialect) (.symbol .statement) before after →
      keeps before → keeps after)
    (fault : ∀ {before}, keeps before → keeps (passFault before)) :
    ∃ last, keeps last ∧ parse dialect source = .mk .program none 0 source.length last.settle.nodes.reverse := by
  refine ⟨_, statements_keeps statement fault ?_, rfl⟩
  cases opened : recognize (grammar dialect) (depthFor source.length) (Clause.leaf .other .hashLine)
      ⟨Cursor.begin source, []⟩ with
  | none => exact begin
  | some next => exact opening (reads_of_recognize opened) begin

end

/-! ## Comments between lexemes -/

/-- A leaf that stands for a comment. -/
def Node.IsComment (node : Node) : Prop := node.kind = .comment ∧ node.children = []

theorem Cursor.isComment_of_pass (place : TriviaPlace) (offset : Nat) (comments : List Node) (text : List Char)
    (before : ∀ node ∈ comments, node.IsComment) : ∀ node ∈ (pass place offset comments text).2.2, node.IsComment := by
  fun_induction pass place offset comments text <;> simp_all [Node.IsComment]

theorem Cursor.isComment_of_after (offset : Nat) (text : List Char) :
    ∀ node ∈ (after offset text).comments, node.IsComment := by
  apply isComment_of_pass
  intro node member
  cases member

/-! ## Attributes without a bare template -/

namespace Node

/-- What holds at every node of a tree holds at its root and in every tree below. -/
theorem forall_nodes_mk {holds : Node → Prop} (kind : Kind) (label : Option Label) (start stop : Nat)
    (children : List Node) : (∀ node ∈ (mk kind label start stop children).nodes, holds node) ↔
      holds (mk kind label start stop children) ∧ ∀ child ∈ children, ∀ node ∈ child.nodes, holds node := by
  simp only [nodes_mk, List.forall_mem_cons, List.mem_flatMap, forall_exists_index, and_imp]
  apply and_congr Iff.rfl
  constructor
  · intro all child member node below
    exact all node child member below
  · intro all node child member below
    exact all child member node below

theorem enclosed_mk (kind : Kind) (label : Option Label) (start stop : Nat) (children : List Node) :
    (mk kind label start stop children).Enclosed ↔
      (∀ value ∈ (mk kind label start stop children).value?, value.kind ≠ .template) ∧
        ∀ child ∈ children, child.Enclosed :=
  forall_nodes_mk kind label start stop children

/-- It suffices that an attribute does not close with a template. -/
theorem enclosed_of_last {kind : Kind} {label : Option Label} {start stop : Nat} {children : List Node}
    (last : kind = .markupAttribute → ∀ value ∈ children.getLast?, value.kind ≠ .template)
    (below : ∀ child ∈ children, child.Enclosed) : (mk kind label start stop children).Enclosed := by
  rw [enclosed_mk]
  refine ⟨?_, below⟩
  intro value isValue
  rw [value?] at isValue
  split at isValue
  case isTrue isAttribute =>
    apply last (eq_of_beq isAttribute)
    rw [List.getLast?_tail] at isValue
    split at isValue
    · cases isValue
    · exact isValue
  case isFalse => cases isValue

theorem IsComment.enclosed {node : Node} (comment : node.IsComment) : node.Enclosed := by
  obtain ⟨kind, label, start, stop, children⟩ := node
  obtain ⟨rfl, rfl⟩ := comment
  apply enclosed_of_last
  · intro isAttribute
    cases isAttribute
  · intro child member
    cases member

@[simp]
theorem kind_withLabel (node : Node) (label : Label) : (node.withLabel label).kind = node.kind := by
  cases node
  rfl

theorem Enclosed.withLabel {node : Node} (enclosed : node.Enclosed) (label : Label) :
    (node.withLabel label).Enclosed := by
  obtain ⟨kind, old, start, stop, children⟩ := node
  rw [enclosed_mk] at enclosed
  exact (enclosed_mk ..).mpr enclosed

end Node

namespace Rule

mutual

/-- What the rule finds last is no template; if it finds nothing, this is still so of what was found before. -/
def endsWithoutTemplate : Rule Symbol → Bool
  | .node kind _ | .extend kind _ _ => kind != .template
  | .seq rules | .alt rules => allEndWithoutTemplate rules
  | .many rule | .label _ rule => endsWithoutTemplate rule
  | .symbol name => name == .markup
  | _ => true

/-- Each of some rules finds no template last. -/
def allEndWithoutTemplate : List (Rule Symbol) → Bool
  | [] => true
  | rule :: rules => endsWithoutTemplate rule && allEndWithoutTemplate rules

end

mutual

/-- In every attribute that the rule finds, a template is enclosed. -/
def enclosesTemplates : Rule Symbol → Bool
  | .node kind rule => (kind != .markupAttribute || endsWithoutTemplate rule) && enclosesTemplates rule
  | .extend kind _ rule => kind != .markupAttribute && enclosesTemplates rule
  | .seq rules | .alt rules => allEncloseTemplates rules
  | .many rule | .label _ rule => enclosesTemplates rule
  | _ => true

/-- Each of some rules encloses the templates of attributes. -/
def allEncloseTemplates : List (Rule Symbol) → Bool
  | [] => true
  | rule :: rules => enclosesTemplates rule && allEncloseTemplates rules

end

theorem endsWithoutTemplate_of_mem {rule : Rule Symbol} {rules : List (Rule Symbol)} (member : rule ∈ rules)
    (all : allEndWithoutTemplate rules = true) : rule.endsWithoutTemplate = true := by
  induction member with
  | head => exact (Bool.and_eq_true_iff.mp all).1
  | tail _ _ ih => exact ih (Bool.and_eq_true_iff.mp all).2

theorem enclosesTemplates_of_mem {rule : Rule Symbol} {rules : List (Rule Symbol)} (member : rule ∈ rules)
    (all : allEncloseTemplates rules = true) : rule.enclosesTemplates = true := by
  induction member with
  | head => exact (Bool.and_eq_true_iff.mp all).1
  | tail _ _ ih => exact ih (Bool.and_eq_true_iff.mp all).2

end Rule

theorem endsWithoutTemplate_markup (dialect : Dialect) :
    (grammar dialect .markup).endsWithoutTemplate = true := rfl

theorem enclosesTemplates_grammar (dialect : Dialect) (symbol : Symbol) :
    (grammar dialect symbol).enclosesTemplates = true := by
  cases symbol <;> (try cases ‹Place›) <;> cases dialect <;> rfl

/-! ## The reading of a source -/

/-- The nodes found so far enclose their templates, and nothing but comments stands before the next lexeme. -/
structure Progress.Tidy (progress : Progress) : Prop where
  comments : ∀ node ∈ progress.cursor.comments, node.IsComment
  nodes : ∀ node ∈ progress.nodes, node.Enclosed

/-- The last node found, if there is one, is no template. -/
def Progress.EndsWithoutTemplate (progress : Progress) : Prop :=
  ∀ last ∈ progress.nodes.head?, last.kind ≠ .template

namespace Progress.Tidy

variable {progress : Progress} (tidy : progress.Tidy)
include tidy

theorem settle : progress.settle.Tidy where
  comments := by
    intro node member
    cases member
  nodes := by
    intro node member
    rcases List.mem_append.mp member with comment | found
    · exact (tidy.comments node comment).enclosed
    · exact tidy.nodes node found

theorem pass (width : Nat) : (progress.pass width).Tidy where
  comments := Cursor.isComment_of_after _ _
  nodes := tidy.settle.nodes

theorem advanceTail (width : Nat) : Tidy { progress with cursor := progress.cursor.advanceTail width } where
  comments := Cursor.isComment_of_after _ _
  nodes := tidy.nodes

/-- Comments are no templates. -/
theorem endsWithoutTemplate_pass (ends : progress.EndsWithoutTemplate) (width : Nat) :
    (progress.pass width).EndsWithoutTemplate := by
  intro last member
  have head : last ∈ (progress.cursor.comments ++ progress.nodes).head? := member
  rw [List.head?_append] at head
  cases first : progress.cursor.comments.head? with
  | none =>
    rw [first] at head
    exact ends last head
  | some comment =>
    rw [first] at head
    cases head
    have isComment := tidy.comments last (List.mem_of_mem_head? first)
    rw [isComment.1]
    decide

end Progress.Tidy

/-- Reading keeps the nodes in order, rule by rule. -/
theorem Reads.tidy {dialect : Dialect} {rule : Rule Symbol} {progress next : Progress}
    (reads : Reads (grammar dialect) rule progress next) (encloses : rule.enclosesTemplates = true)
    (tidy : progress.Tidy) :
    next.Tidy ∧ (rule.endsWithoutTemplate = true → progress.EndsWithoutTemplate → next.EndsWithoutTemplate) := by
  induction reads with
  | lexeme width => exact ⟨tidy.pass width, fun _ ends => tidy.endsWithoutTemplate_pass ends width⟩
  | templateChars width | markupText width => exact ⟨tidy.advanceTail width, fun _ ends => ends⟩
  | seq_nil | many_stop | without | ahead | lastIs | lineEnd => exact ⟨tidy, fun _ ends => ends⟩
  | symbol inner ih =>
    obtain ⟨after, ends⟩ := ih (enclosesTemplates_grammar dialect _) tidy
    refine ⟨after, ?_⟩
    intro isMarkup
    cases eq_of_beq isMarkup
    exact ends (endsWithoutTemplate_markup dialect)
  | seq_cons first rest ihFirst ihRest =>
    obtain ⟨one, others⟩ := Bool.and_eq_true_iff.mp encloses
    obtain ⟨between, endsFirst⟩ := ihFirst one tidy
    obtain ⟨after, endsRest⟩ := ihRest others between
    refine ⟨after, ?_⟩
    intro ends before
    obtain ⟨endsOne, endsOthers⟩ := Bool.and_eq_true_iff.mp ends
    exact endsRest endsOthers (endsFirst endsOne before)
  | alt member inner ih =>
    obtain ⟨after, ends⟩ := ih (Rule.enclosesTemplates_of_mem member encloses) tidy
    exact ⟨after, fun all => ends (Rule.endsWithoutTemplate_of_mem member all)⟩
  | many_step first rest ihFirst ihRest =>
    obtain ⟨between, endsFirst⟩ := ihFirst encloses tidy
    obtain ⟨after, endsRest⟩ := ihRest encloses between
    exact ⟨after, fun ends before => endsRest ends (endsFirst ends before)⟩
  | @node kind rule progress next inner ih =>
    obtain ⟨here, below⟩ := Bool.and_eq_true_iff.mp encloses
    obtain ⟨after, ends⟩ := ih below ⟨tidy.settle.comments, List.forall_mem_nil _⟩
    have found : (Node.mk kind none progress.settle.cursor.offset next.cursor.tailOffset
        next.nodes.reverse).Enclosed := by
      apply Node.enclosed_of_last
      · rintro rfl
        rw [List.getLast?_reverse]
        apply ends here
        intro last member
        cases member
      · simpa using after.nodes
    refine ⟨⟨after.comments, List.forall_mem_cons.mpr ⟨found, tidy.settle.nodes⟩⟩, ?_⟩
    intro other before last isLast
    cases isLast
    exact bne_iff_ne.mp other
  | @extend kind base rule progress last before first next nodes same inner ih =>
    obtain ⟨other, below⟩ := Bool.and_eq_true_iff.mp encloses
    have enclosed := List.forall_mem_cons.mp (nodes ▸ tidy.nodes)
    have labelled : first.Enclosed := by
      rcases same with rfl | ⟨label, rfl⟩
      · exact enclosed.1
      · exact enclosed.1.withLabel label
    obtain ⟨after, -⟩ := ih below ⟨tidy.comments, List.forall_mem_singleton.mpr labelled⟩
    have found : (Node.mk kind none last.start next.cursor.tailOffset next.nodes.reverse).Enclosed := by
      apply Node.enclosed_of_last
      · intro isAttribute
        exact absurd isAttribute (bne_iff_ne.mp other)
      · simpa using after.nodes
    refine ⟨⟨after.comments, List.forall_mem_cons.mpr ⟨found, enclosed.2⟩⟩, ?_⟩
    intro other before last isLast
    cases isLast
    exact bne_iff_ne.mp other
  | @label label rule progress next last before inner nodes ih =>
    obtain ⟨after, ends⟩ := ih encloses tidy
    have enclosed := List.forall_mem_cons.mp (nodes ▸ after.nodes)
    refine ⟨⟨after.comments, List.forall_mem_cons.mpr ⟨enclosed.1.withLabel label, enclosed.2⟩⟩, ?_⟩
    intro check start last isLast
    cases isLast
    rw [Node.kind_withLabel]
    exact ends check start _ (by rw [nodes]; rfl)

theorem tidy_passFault {progress : Progress} (tidy : progress.Tidy) : (passFault progress).Tidy where
  comments := Cursor.isComment_of_after _ _
  nodes := by
    refine List.forall_mem_cons.mpr ⟨?_, tidy.settle.nodes⟩
    apply Node.enclosed_of_last
    · intro isAttribute
      cases isAttribute
    · intro child member
      cases member

/-- In the tree of a source, a template that is the value of an attribute stands in braces. -/
theorem enclosed_parse (dialect : Dialect) (source : List Char) : (parse dialect source).Enclosed := by
  have begin : Progress.Tidy ⟨Cursor.begin source, []⟩ := ⟨Cursor.isComment_of_after _ _, List.forall_mem_nil _⟩
  obtain ⟨last, tidy, isTree⟩ := parse_keeps dialect source begin
    (fun reads before => (reads.tidy rfl before).1) (fun reads before => (reads.tidy rfl before).1) tidy_passFault
  rw [isTree]
  apply Node.enclosed_of_last
  · intro isAttribute
    cases isAttribute
  · simpa using tidy.settle.nodes

/-! ## The references of a source -/

theorem chars?_ofChars (source : List Char) : (Text.ofChars source).chars? = some source := by
  induction source with
  | nil => rfl
  | cons c rest ih =>
    rw [Text.chars?, Text.ofChars] at ih
    simp [Text.chars?, Text.ofChars, Codepoint.char?, ih]

/-- The reference that a script at a path makes. -/
def referenceFrom (path : Text) (found : Site × Text) : Reference :=
  { origin := path, text := found.2, site := found.1 }

theorem extract_of_fault {path : Text} {source : List Char}
    (fault : (parse (Dialect.ofPath path) source).hasFault = true) :
    extract path (Text.ofChars source) =
      .error (.unparsable path (Dialect.ofPath path).name "source contains syntax errors") := by
  simp only [extract, chars?_ofChars, fault, if_true]
  rfl

theorem extract_of_faultless {path : Text} {source : List Char}
    (faultless : (parse (Dialect.ofPath path) source).hasFault = false) :
    extract path (Text.ofChars source) =
      .ok ((references (Dialect.ofPath path) source (parse (Dialect.ofPath path) source)).map
        (referenceFrom path)) := by
  simp only [extract, chars?_ofChars, faultless, if_false, Bool.false_eq_true]
  rfl

/-- A script whose tree is free of faults gives the references that stand at the nodes of the tree, each as often as it
stands there; one with a fault anywhere gives none. -/
theorem extract_collects (path : Text) (source : List Char) :
    let dialect := Dialect.ofPath path
    let tree := parse dialect source
    ((¬∃ node ∈ tree.nodes, node.kind = .fault ∨ node.kind = .missing) →
      ∃ found, extract path (Text.ofChars source) = .ok found ∧ found.Perm
        ((tree.nodes.flatMap fun node => node.siteReferences source dialect).map (referenceFrom path))) ∧
    ((∃ node ∈ tree.nodes, node.kind = .fault ∨ node.kind = .missing) →
      extract path (Text.ofChars source) =
        .error (.unparsable path dialect.name "source contains syntax errors")) ∧
    ∀ (any : Dialect) (other : Node), other.Enclosed →
      (references any source other).Perm (other.nodes.flatMap fun node => node.siteReferences source any) := by
  intro dialect tree
  refine ⟨?_, ?_, ?_⟩
  · intro faultless
    rw [← Node.hasFault_iff, Bool.not_eq_true] at faultless
    have all := references_perm source dialect (enclosed_parse dialect source)
    exact ⟨_, extract_of_faultless faultless, all.map _⟩
  · intro fault
    exact extract_of_fault ((Node.hasFault_iff tree).mpr fault)
  · intro any other enclosed
    exact references_perm source any enclosed

set_option maxRecDepth 100000 in
/-- Three references of an element: in a hole of a template, in the template around it, and among the children. -/
theorem extract_collects_nested :
    ∃ found, extract "a.tsx" "<a b=\x7b\x60c.css$\x7bimport('m')\x7d\x60\x7d>\x7b() => import('n')\x7d</a>;" =
        .ok found ∧
      found.Perm [⟨"a.tsx", "c.css", .assetAttribute⟩, ⟨"a.tsx", "m", .dynamicImport⟩,
        ⟨"a.tsx", "n", .dynamicImport⟩] := by
  let source := "<a b=\x7b\x60c.css$\x7bimport('m')\x7d\x60\x7d>\x7b() => import('n')\x7d</a>;".toList
  have faultless : ¬∃ node ∈ (parse (Dialect.ofPath "a.tsx") source).nodes,
      node.kind = .fault ∨ node.kind = .missing := by
    rw [← Node.hasFault_iff]
    decide +kernel
  have sites : ((parse (Dialect.ofPath "a.tsx") source).nodes.flatMap fun node =>
      node.siteReferences source (Dialect.ofPath "a.tsx")).map (referenceFrom "a.tsx") =
        [⟨"a.tsx", "c.css", .assetAttribute⟩, ⟨"a.tsx", "m", .dynamicImport⟩, ⟨"a.tsx", "n", .dynamicImport⟩] := by
    decide +kernel
  have found := (extract_collects "a.tsx" source).1 faultless
  rwa [sites] at found

end Deadwood.Script
