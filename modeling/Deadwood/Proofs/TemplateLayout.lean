import Deadwood.Proofs.ParsedTree

/-!
# Where templates stand

A template spans a text in backticks, and its holes stand between the two
backticks one behind the other.  That every template in the tree of a source
stands so is read off the grammar: the reading of a source never goes back, and
the rule of a template opens and closes with a backtick and finds its holes on
the way.
-/

namespace Deadwood.Script

/-! ## Nodes in a row -/

/-- The holes of a template. -/
def Node.holes (node : Node) : List Node := node.children.filter (·.kind == .substitution)

/-- Nodes that stand one behind the other between two places; neighbours may touch. -/
inductive Laid : Nat → List Node → Nat → Prop where
  | nil {start stop : Nat} (forward : start ≤ stop) : Laid start [] stop
  | cons {start stop : Nat} {node : Node} {nodes : List Node} (behind : start ≤ node.start)
      (forward : node.start ≤ node.stop) (rest : Laid node.stop nodes stop) : Laid start (node :: nodes) stop

namespace Laid

variable {start stop : Nat} {nodes : List Node}

theorem le (laid : Laid start nodes stop) : start ≤ stop := by
  induction laid with
  | nil forward => exact forward
  | cons behind forward _ ih => exact Nat.le_trans behind (Nat.le_trans forward ih)

theorem inside (laid : Laid start nodes stop) {node : Node} (member : node ∈ nodes) :
    start ≤ node.start ∧ node.start ≤ node.stop ∧ node.stop ≤ stop := by
  induction laid with
  | nil => cases member
  | cons behind forward rest ih =>
    rcases List.mem_cons.mp member with rfl | later
    · exact ⟨behind, forward, rest.le⟩
    · have bounds := ih later
      exact ⟨by omega, bounds.2⟩

theorem ordered (laid : Laid start nodes stop) : nodes.Pairwise fun first second => first.stop ≤ second.start := by
  induction laid with
  | nil => exact .nil
  | cons _ _ rest ih => exact .cons (fun node member => (rest.inside member).1) ih

theorem of_pairwise (forward : start ≤ stop) (ordered : nodes.Pairwise fun first second => first.stop ≤ second.start)
    (inside : ∀ node ∈ nodes, start ≤ node.start ∧ node.start ≤ node.stop ∧ node.stop ≤ stop) :
    Laid start nodes stop := by
  induction ordered generalizing start with
  | nil => exact .nil forward
  | cons first _ ih =>
    obtain ⟨here, later⟩ := List.forall_mem_cons.mp inside
    refine .cons here.1 here.2.1 (ih here.2.2 ?_)
    intro node member
    exact ⟨first node member, (later node member).2⟩

theorem mono {further : Nat} (laid : Laid start nodes stop) (le : stop ≤ further) : Laid start nodes further := by
  induction laid with
  | nil forward => exact .nil (Nat.le_trans forward le)
  | cons behind forward _ ih => exact .cons behind forward (ih le)

theorem concat {node : Node} (laid : Laid start nodes stop) (behind : stop ≤ node.start)
    (forward : node.start ≤ node.stop) : Laid start (nodes ++ [node]) node.stop := by
  induction laid with
  | nil before => exact .cons (Nat.le_trans before behind) forward (.nil (Nat.le_refl _))
  | cons before inner _ ih => exact .cons before inner (ih behind)

end Laid

/-- A node that spans a text in backticks, with its holes in order, apart from each other and between the backticks. -/
structure Node.SpansTemplate (source : List Char) (node : Node) : Prop where
  opened : source[node.start]? = some '\x60'
  closed : source[node.stop - 1]? = some '\x60'
  two : node.start + 1 < node.stop
  ordered : node.holes.Pairwise fun first second => first.stop ≤ second.start
  inside : ∀ hole ∈ node.holes, node.start < hole.start ∧ hole.start ≤ hole.stop ∧ hole.stop < node.stop

theorem Node.SpansTemplate.laid {source : List Char} {node : Node} (spans : node.SpansTemplate source) :
    Laid (node.start + 1) node.holes (node.stop - 1) := by
  have two := spans.two
  apply Laid.of_pairwise (by omega) spans.ordered
  intro hole member
  have inside := spans.inside hole member
  omega

theorem Node.SpansTemplate.of_laid {source : List Char} {node : Node} (opened : source[node.start]? = some '\x60')
    (closed : source[node.stop - 1]? = some '\x60') (two : node.start + 1 < node.stop)
    (laid : Laid (node.start + 1) node.holes (node.stop - 1)) : node.SpansTemplate source where
  opened := opened
  closed := closed
  two := two
  ordered := laid.ordered
  inside := by
    intro hole member
    have inside := laid.inside member
    omega

/-! ## Reading never goes back -/

/-- A text is what a source holds from an offset on, which is not before another. -/
def StandsAt (source : List Char) (least offset : Nat) (text : List Char) : Prop :=
  text = source.drop offset ∧ least ≤ offset

theorem StandsAt.drop {source text : List Char} {least offset : Nat} (stands : StandsAt source least offset text)
    (width : Nat) : StandsAt source least (offset + width) (text.drop width) := by
  obtain ⟨rfl, le⟩ := stands
  exact ⟨List.drop_drop, Nat.le_add_right_of_le le⟩

/-- In a block comment, the text from the front of the comment on stands in the source as well: it is what is left if
the comment never closes. -/
def TriviaPlace.StandsIn (source : List Char) (least : Nat) : TriviaPlace → Prop
  | .block start whole => StandsAt source least start whole
  | _ => True

namespace Cursor

theorem standsAt_pass {source : List Char} {least : Nat} (place : TriviaPlace) (offset : Nat) (comments : List Node)
    (text : List Char) (stands : StandsAt source least offset text) (inside : place.StandsIn source least) :
    StandsAt source least (pass place offset comments text).2.1 (pass place offset comments text).1 := by
  fun_induction pass place offset comments text with
  | case1 | case5 | case6 => exact stands
  | case2 _ _ _ ih => exact ih (stands.drop 2) trivial
  | case3 _ _ _ ih => exact ih (stands.drop 2) stands
  | case4 _ _ _ _ _ _ _ ih | case7 _ _ _ _ _ _ ih | case8 _ _ _ _ _ _ ih => exact ih (stands.drop 1) trivial
  -- The comment never closes, so the text from its front on is what is left.
  | case9 => exact inside
  | case10 _ _ _ _ _ ih => exact ih (stands.drop 2) trivial
  | case11 _ _ _ _ _ _ _ ih => exact ih (stands.drop 1) inside

/-- A cursor stands at places of a source, with nothing but comments between the two. -/
structure Faces (source : List Char) (cursor : Cursor) : Prop where
  tail : cursor.tail = source.drop cursor.tailOffset
  rest : StandsAt source cursor.tailOffset cursor.offset cursor.rest
  comments : ∀ node ∈ cursor.comments, node.IsComment

theorem faces_after (source : List Char) (tailOffset : Nat) :
    (after tailOffset (source.drop tailOffset)).Faces source where
  tail := rfl
  rest := standsAt_pass .between tailOffset [] _ ⟨rfl, Nat.le_refl _⟩ trivial
  comments := isComment_of_after _ _

namespace Faces

variable {source : List Char} {cursor : Cursor} (faces : cursor.Faces source)
include faces

theorem advance (width : Nat) : (cursor.advance width).Faces source := by
  rw [Cursor.advance, faces.rest.1, List.drop_drop]
  exact faces_after source _

theorem advanceTail (width : Nat) : (cursor.advanceTail width).Faces source := by
  rw [Cursor.advanceTail, faces.tail, List.drop_drop]
  exact faces_after source _

theorem settle {nodes : List Node} : (Progress.settle ⟨cursor, nodes⟩).cursor.Faces source where
  tail := faces.tail
  rest := faces.rest
  comments := List.forall_mem_nil _

end Faces

end Cursor

section

variable {Symbol : Type} {grammar : Symbol → Rule Symbol} {rule : Rule Symbol} {source : List Char}
  {progress next : Progress}

/-- No rule leads back or off the source. -/
theorem Reads.faces (reads : Reads grammar rule progress next) (faces : progress.cursor.Faces source) :
    next.cursor.Faces source ∧ progress.cursor.tailOffset ≤ next.cursor.tailOffset := by
  induction reads with
  | lexeme width => exact ⟨faces.advance width, Nat.le_add_right_of_le faces.rest.2⟩
  | templateChars width | markupText width => exact ⟨faces.advanceTail width, Nat.le_add_right _ _⟩
  | seq_nil | many_stop | without | ahead | lastIs | lineEnd => exact ⟨faces, Nat.le_refl _⟩
  | symbol _ ih | alt _ _ ih | extend _ _ _ ih | label _ _ ih => exact ih faces
  | node _ ih => exact ih faces.settle
  | seq_cons _ _ ihFirst ihRest | many_step _ _ ihFirst ihRest =>
    obtain ⟨between, first⟩ := ihFirst faces
    obtain ⟨after, rest⟩ := ihRest between
    exact ⟨after, Nat.le_trans first rest⟩

/-- What each use of a rule keeps is kept when the rule is used as often as it applies. -/
theorem Reads.many_keeps (keeps : Progress → Prop)
    (step : ∀ {before after : Progress}, Reads grammar rule before after → keeps before → keeps after)
    (reads : Reads grammar (.many rule) progress next) (start : keeps progress) : keeps next := by
  -- The induction is on the reading as a whole, so the repeated rule is told apart from the others by an equation.
  generalize isMany : Rule.many rule = many at reads
  induction reads with
  | many_stop => exact start
  | many_step first _ _ ihRest =>
    cases isMany
    exact ihRest (step first start) rfl
  | _ => cases isMany

end

/-! ## The rule of a template -/

namespace Rule

/-- The rule looks for a backtick. -/
def isBacktick : Rule Symbol → Bool
  | .lexeme (.mark text _) => text == ['\x60']
  | _ => false

/-- The rule looks for characters and holes between backticks. -/
def isTemplateBody : Rule Symbol → Bool
  | .seq [first, .many (.alt [.templateChars, .node .substitution (.seq (.lexeme _ :: _))]), last] =>
    first.isBacktick && last.isBacktick
  | _ => false

mutual

/-- Every template that the rule finds stands in backticks. -/
def delimitsTemplates : Rule Symbol → Bool
  | .node kind rule => (kind != .template || isTemplateBody rule) && delimitsTemplates rule
  | .extend kind _ rule => kind != .template && delimitsTemplates rule
  | .seq rules | .alt rules => allDelimitTemplates rules
  | .many rule | .label _ rule => delimitsTemplates rule
  | _ => true

/-- Each of some rules finds templates in backticks only. -/
def allDelimitTemplates : List (Rule Symbol) → Bool
  | [] => true
  | rule :: rules => delimitsTemplates rule && allDelimitTemplates rules

end

theorem delimitsTemplates_of_mem {rule : Rule Symbol} {rules : List (Rule Symbol)} (member : rule ∈ rules)
    (all : allDelimitTemplates rules = true) : rule.delimitsTemplates = true := by
  induction member with
  | head => exact (Bool.and_eq_true_iff.mp all).1
  | tail _ _ ih => exact ih (Bool.and_eq_true_iff.mp all).2

end Rule

theorem delimitsTemplates_grammar (dialect : Dialect) (symbol : Symbol) :
    (grammar dialect symbol).delimitsTemplates = true := by
  cases symbol <;> (try cases ‹Place›) <;> cases dialect <;> rfl

section

variable {grammar : Symbol → Rule Symbol} {rule : Rule Symbol} {source : List Char} {progress next : Progress}
  {start : Nat}

theorem Reads.backtick (reads : Reads grammar rule progress next) (isBacktick : rule.isBacktick = true)
    (faces : progress.cursor.Faces source) :
    source[progress.cursor.offset]? = some '\x60' ∧ next = progress.pass 1 := by
  cases reads with
  | @lexeme lexeme _ width fits =>
    cases lexeme with
    | mark text notBefore =>
      cases eq_of_beq isBacktick
      rw [Lexeme.width] at fits
      split at fits
      case isTrue front =>
        have isWidth : width = 1 := by
          split at fits
          case h_1 => exact (Option.some.inj fits).symm
          case h_2 =>
            split at fits
            · cases fits
            · exact (Option.some.inj fits).symm
        obtain ⟨more, isRest⟩ := List.isPrefixOf_iff_prefix.mp front
        rw [faces.rest.1] at isRest
        have first : (source.drop progress.cursor.offset)[0]? = source[progress.cursor.offset]? := List.getElem?_drop
        rw [← isRest] at first
        exact ⟨first.symm, by rw [isWidth]⟩
      case isFalse => cases fits
    | _ => cases isBacktick
  | _ => cases isBacktick

/-- The holes found so far stand one behind the other. -/
def Progress.LaidFrom (start : Nat) (progress : Progress) : Prop :=
  Laid start (progress.nodes.reverse.filter (·.kind == .substitution)) progress.cursor.tailOffset

/-- Comments are no holes. -/
theorem Cursor.Faces.holes_comments {cursor : Cursor} (faces : cursor.Faces source) (nodes : List Node) :
    (cursor.comments ++ nodes).reverse.filter (·.kind == .substitution) =
      nodes.reverse.filter (·.kind == .substitution) := by
  rw [List.reverse_append, List.filter_append, List.append_right_eq_self, List.filter_eq_nil_iff]
  intro node member
  rw [(faces.comments node (List.mem_reverse.mp member)).1]
  decide

theorem Progress.LaidFrom.pass (laid : progress.LaidFrom start) (faces : progress.cursor.Faces source) (width : Nat) :
    (progress.pass width).LaidFrom start := by
  rw [LaidFrom, Progress.pass, faces.holes_comments]
  exact laid.mono (Nat.le_add_right_of_le faces.rest.2)

/-- A hole is found behind the ones before it. -/
theorem Reads.laidFrom_hole {lexeme : Lexeme} {rules : List (Rule Symbol)}
    (reads : Reads grammar (.node .substitution (.seq (.lexeme lexeme :: rules))) progress next)
    (faces : progress.cursor.Faces source) (laid : progress.LaidFrom start) : next.LaidFrom start := by
  cases reads with
  | @node _ _ _ next inner =>
    cases inner with
    | seq_cons first rest =>
      cases first with
      | lexeme width =>
        have forward := (rest.faces (faces.settle.advance width)).2
        rw [Progress.LaidFrom, List.reverse_cons, List.filter_append, Progress.settle, faces.holes_comments]
        exact laid.concat faces.rest.2 (Nat.le_trans (Nat.le_add_right _ width) forward)

theorem Reads.laidFrom_templateBody {lexeme : Lexeme} {rules : List (Rule Symbol)}
    (reads : Reads grammar (.many (.alt [.templateChars, .node .substitution (.seq (.lexeme lexeme :: rules))]))
      progress next) (faces : progress.cursor.Faces source) (laid : progress.LaidFrom start) :
    next.cursor.Faces source ∧ next.LaidFrom start := by
  refine reads.many_keeps (fun place => place.cursor.Faces source ∧ place.LaidFrom start) ?_ ⟨faces, laid⟩
  intro before after step kept
  refine ⟨(step.faces kept.1).1, ?_⟩
  cases step with
  | alt member inner =>
    rcases List.mem_pair.mp member with rfl | rfl
    · cases inner with
      | templateChars width => exact kept.2.mono (Nat.le_add_right _ _)
    · exact inner.laidFrom_hole kept.1 kept.2

/-- What the rule of a template reads is a text in backticks with holes between them. -/
theorem Reads.spansTemplate (reads : Reads grammar rule { progress.settle with nodes := [] } next)
    (isBody : rule.isTemplateBody = true) (faces : progress.cursor.Faces source) :
    (Node.mk .template none progress.settle.cursor.offset next.cursor.tailOffset next.nodes.reverse).SpansTemplate
      source := by
  unfold Rule.isTemplateBody at isBody
  split at isBody
  case h_1 first lexeme rules last =>
    obtain ⟨opens, closes⟩ := Bool.and_eq_true_iff.mp isBody
    cases reads with
    | seq_cons opening others =>
      obtain ⟨opened, rfl⟩ := opening.backtick opens faces.settle
      cases others with
      | seq_cons between ending =>
        obtain ⟨facing, laid⟩ := between.laidFrom_templateBody (faces.settle.advance 1) (.nil (Nat.le_refl _))
        cases ending with
        | seq_cons closing nothing =>
          obtain ⟨closed, rfl⟩ := closing.backtick closes facing
          cases nothing
          -- The node reaches from the opening backtick to just behind the closing one.
          have apart := Nat.le_trans laid.le facing.rest.2
          refine .of_laid opened closed (Nat.lt_succ_of_le apart) ?_
          rw [Node.holes, Node.children_mk, Progress.pass, facing.holes_comments]
          exact laid.mono facing.rest.2
  case h_2 => cases isBody

end

/-! ## The templates of a source -/

namespace Node

/-- Every template of a tree spans a text in backticks. -/
def HoldsTemplates (source : List Char) (tree : Node) : Prop :=
  ∀ node ∈ tree.nodes, node.kind = .template → node.SpansTemplate source

variable {source : List Char}

theorem holdsTemplates_mk {kind : Kind} {label : Option Label} {start stop : Nat} {children : List Node} :
    (mk kind label start stop children).HoldsTemplates source ↔
      (kind = .template → (mk kind label start stop children).SpansTemplate source) ∧
        ∀ child ∈ children, child.HoldsTemplates source :=
  forall_nodes_mk kind label start stop children

theorem holdsTemplates_of_ne {kind : Kind} {label : Option Label} {start stop : Nat} {children : List Node}
    (other : kind ≠ .template) (below : ∀ child ∈ children, child.HoldsTemplates source) :
    (mk kind label start stop children).HoldsTemplates source :=
  holdsTemplates_mk.mpr ⟨fun isTemplate => absurd isTemplate other, below⟩

theorem IsComment.holdsTemplates {node : Node} (comment : node.IsComment) : node.HoldsTemplates source := by
  obtain ⟨kind, label, start, stop, children⟩ := node
  obtain ⟨rfl, rfl⟩ := comment
  exact holdsTemplates_of_ne (by decide) (List.forall_mem_nil _)

/-- Where a node stands does not depend on its label. -/
theorem HoldsTemplates.withLabel {node : Node} (holds : node.HoldsTemplates source) (label : Label) :
    (node.withLabel label).HoldsTemplates source := by
  obtain ⟨kind, old, start, stop, children⟩ := node
  obtain ⟨here, below⟩ := holdsTemplates_mk.mp holds
  refine holdsTemplates_mk.mpr ⟨?_, below⟩
  intro isTemplate
  obtain ⟨opened, closed, two, ordered, inside⟩ := here isTemplate
  exact ⟨opened, closed, two, ordered, inside⟩

end Node

/-- The reading of a source has come to a place of it, and the templates found on the way stand in backticks. -/
structure Progress.OnWay (source : List Char) (progress : Progress) : Prop where
  faces : progress.cursor.Faces source
  nodes : ∀ node ∈ progress.nodes, node.HoldsTemplates source

namespace Progress.OnWay

variable {source : List Char} {progress : Progress} (onWay : progress.OnWay source)
include onWay

theorem settle : progress.settle.OnWay source where
  faces := onWay.faces.settle
  nodes := by
    intro node member
    rcases List.mem_append.mp member with comment | found
    · exact (onWay.faces.comments node comment).holdsTemplates
    · exact onWay.nodes node found

theorem pass (width : Nat) : (progress.pass width).OnWay source where
  faces := onWay.faces.advance width
  nodes := onWay.settle.nodes

theorem advanceTail (width : Nat) : OnWay source { progress with cursor := progress.cursor.advanceTail width } where
  faces := onWay.faces.advanceTail width
  nodes := onWay.nodes

end Progress.OnWay

/-- Rule by rule, reading finds templates in backticks only. -/
theorem Reads.onWay {dialect : Dialect} {rule : Rule Symbol} {source : List Char} {progress next : Progress}
    (reads : Reads (grammar dialect) rule progress next) (delimits : rule.delimitsTemplates = true)
    (onWay : progress.OnWay source) : next.OnWay source := by
  induction reads with
  | lexeme width => exact onWay.pass width
  | templateChars width | markupText width => exact onWay.advanceTail width
  | seq_nil | many_stop | without | ahead | lastIs | lineEnd => exact onWay
  | symbol _ ih => exact ih (delimitsTemplates_grammar dialect _) onWay
  | seq_cons _ _ ihFirst ihRest =>
    obtain ⟨one, others⟩ := Bool.and_eq_true_iff.mp delimits
    exact ihRest others (ihFirst one onWay)
  | alt member _ ih => exact ih (Rule.delimitsTemplates_of_mem member delimits) onWay
  | many_step _ _ ihFirst ihRest => exact ihRest delimits (ihFirst delimits onWay)
  | @node kind rule progress next inner ih =>
    obtain ⟨here, below⟩ := Bool.and_eq_true_iff.mp delimits
    have after := ih below ⟨onWay.settle.faces, List.forall_mem_nil _⟩
    refine ⟨after.faces, List.forall_mem_cons.mpr ⟨Node.holdsTemplates_mk.mpr ⟨?_, ?_⟩, onWay.settle.nodes⟩⟩
    · rintro rfl
      exact inner.spansTemplate here onWay.faces
    · simpa using after.nodes
  | @extend kind base rule progress last before first next nodes same inner ih =>
    obtain ⟨other, below⟩ := Bool.and_eq_true_iff.mp delimits
    have found := List.forall_mem_cons.mp (nodes ▸ onWay.nodes)
    have labelled : first.HoldsTemplates source := by
      rcases same with rfl | ⟨label, rfl⟩
      · exact found.1
      · exact found.1.withLabel label
    have after := ih below ⟨onWay.faces, List.forall_mem_singleton.mpr labelled⟩
    refine ⟨after.faces, List.forall_mem_cons.mpr ⟨?_, found.2⟩⟩
    exact Node.holdsTemplates_of_ne (bne_iff_ne.mp other) (by simpa using after.nodes)
  | @label label rule progress next last before inner nodes ih =>
    have after := ih delimits onWay
    have found := List.forall_mem_cons.mp (nodes ▸ after.nodes)
    exact ⟨after.faces, List.forall_mem_cons.mpr ⟨found.1.withLabel label, found.2⟩⟩

theorem onWay_passFault {source : List Char} {progress : Progress} (onWay : progress.OnWay source) :
    (passFault progress).OnWay source where
  faces := onWay.settle.faces.advance _
  nodes := List.forall_mem_cons.mpr
    ⟨Node.holdsTemplates_of_ne (by decide) (List.forall_mem_nil _), onWay.settle.nodes⟩

/-- Every template in the tree of a source, also one in a hole of another, spans a text in backticks. -/
theorem holdsTemplates_parse (dialect : Dialect) (source : List Char) :
    (parse dialect source).HoldsTemplates source := by
  have begin : Progress.OnWay source ⟨Cursor.begin source, []⟩ :=
    ⟨Cursor.faces_after source 0, List.forall_mem_nil _⟩
  obtain ⟨last, onWay, isTree⟩ := parse_keeps dialect source begin
    (fun reads before => reads.onWay rfl before) (fun reads before => reads.onWay rfl before) onWay_passFault
  rw [isTree]
  exact Node.holdsTemplates_of_ne (by decide) (by simpa using onWay.settle.nodes)

end Deadwood.Script
