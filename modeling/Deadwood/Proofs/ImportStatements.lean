import Deadwood.Proofs.Recognition

/-!
# Import and export statements

The usual forms of imports and re-exports are read up to their semicolon, in
either dialect and whatever follows, and whatever their sources hold: what stands
between two quotes is never taken for a comment, a hole or markup.  Up to the
quote the text of a form is known, so its recognition is a matter of evaluation;
so is what follows the second quote.
-/

namespace Deadwood.Script

/-! ## Strings -/

/-- What can stand in a string as it is: the visible characters of ASCII and the space, apart from quotes and
the backslash. -/
def isWritable (c : Char) : Bool :=
  0x20 ≤ c.toNat && c.toNat ≤ 0x7E && c != '\x27' && c != '\x22' && c != '\\'

theorem quotedRestWidth_eq {quote : Char} {body : List Char} (isQuote : quote = '\x27' ∨ quote = '\x22')
    (writable : ∀ c ∈ body, isWritable c = true) (seen : Nat) (rest : List Char) :
    quotedRestWidth quote 0 seen (body ++ quote :: rest) = some (seen + body.length + 1) := by
  induction body generalizing seen with
  | nil => simp [quotedRestWidth]
  | cons c body ih =>
    obtain ⟨first, others⟩ := List.forall_mem_cons.mp writable
    simp only [isWritable, Bool.and_eq_true, decide_eq_true_eq, bne_iff_ne] at first
    obtain ⟨⟨⟨⟨low, -⟩, notSingle⟩, notDouble⟩, notBackslash⟩ := first
    have unclosed : c ≠ quote := by
      rcases isQuote with rfl | rfl
      · exact notSingle
      · exact notDouble
    have unbroken : (c == '\n' || c == '\r') = false := by
      rw [Bool.or_eq_false_iff, beq_eq_false_iff_ne, beq_eq_false_iff_ne]
      constructor
      · rintro rfl
        exact absurd low (by decide)
      · rintro rfl
        exact absurd low (by decide)
    rw [List.cons_append, quotedRestWidth]
    simp only [beq_iff_eq, unclosed, notBackslash, unbroken, if_false, Bool.false_eq_true]
    rw [ih others, List.length_cons]
    congr 1
    omega

/-- The place directly behind some characters, before the rest of a text. -/
def Progress.facing (offset : Nat) (text : List Char) (nodes : List Node) : Progress :=
  ⟨Cursor.after offset text, nodes⟩

/-- A place before a text, behind blanks of which nothing need be known. -/
def Progress.standing (tail : List Char) (tailOffset offset : Nat) (text : List Char) (nodes : List Node) :
    Progress :=
  ⟨⟨text, offset, tail, tailOffset, []⟩, nodes⟩

/-- The node of a string without escapes. -/
def stringNode (label : Option Label) (start : Nat) (body : List Char) : Node :=
  .mk .string label start (start + (body.length + 2)) []

section

variable {dialect : Dialect} {quote : Char} {body : List Char}
variable (tail : List Char) (tailOffset offset : Nat) (more : List Char) (nodes : List Node)

theorem ends_string (isQuote : quote = '\x27' ∨ quote = '\x22')
    (writable : ∀ c ∈ body, isWritable c = true) :
    Ends (grammar dialect) 2 Clause.string
      (.standing tail tailOffset offset (quote :: (body ++ quote :: more)) nodes)
      (some (.facing (offset + (body.length + 2)) more (stringNode none offset body :: nodes))) := by
  have opens : (quote == '\x22' || quote == '\x27') = true := by
    rcases isQuote with rfl | rfl
    · rfl
    · rfl
  have width : Lexeme.width .quoted (quote :: (body ++ quote :: more)) = some (body.length + 2) := by
    rw [Lexeme.width, quotedWidth, if_pos opens, quotedRestWidth_eq isQuote writable]
    congr 1
    omega
  have left : (quote :: (body ++ quote :: more)).drop (body.length + 2) = more := by
    rw [List.drop_succ_cons, List.drop_append]
    simp
  have read : Ends (grammar dialect) 1 (.lexeme .quoted)
      (.standing tail tailOffset offset (quote :: (body ++ quote :: more)) [])
      (some (.facing (offset + (body.length + 2)) more [])) := by
    intro depth
    simp only [Progress.standing, recognize, width, Option.map_some, Progress.pass, Cursor.advance, left]
    rfl
  apply Ends.weaken
  · apply Ends.node
    · exact read
    · rfl
  · decide
  · rfl

/-! ## The parts of statements -/

/-- What follows a semicolon does not matter to it. -/
theorem ends_semicolon (afterExpression signature : Bool) :
    Ends (grammar dialect) 2 (Clause.semicolon afterExpression signature) (.facing offset (';' :: more) nodes)
      (some (.facing (offset + 1) more nodes)) := by
  intro depth
  cases more with
  | nil => rfl
  | cons c rest => rfl

theorem ends_from (isQuote : quote = '\x27' ∨ quote = '\x22')
    (writable : ∀ c ∈ body, isWritable c = true) :
    Ends (grammar dialect) 6 Clause.from_
      (.facing offset (" from ".toList ++ quote :: (body ++ quote :: more)) nodes)
      (some (.facing (offset + 6 + (body.length + 2)) more
        (stringNode (some .source) (offset + 6) body :: nodes))) := by
  have keyword : Ends (grammar dialect) 1 (Clause.word "from")
      (.facing offset (" from ".toList ++ quote :: (body ++ quote :: more)) nodes)
      (some (.facing (offset + 5) (' ' :: quote :: (body ++ quote :: more)) nodes)) := fun _ => rfl
  have source : Ends (grammar dialect) 2 Clause.string
      (.facing (offset + 5) (' ' :: quote :: (body ++ quote :: more)) nodes)
      (some (.facing (offset + 6 + (body.length + 2)) more (stringNode none (offset + 6) body :: nodes))) := by
    rcases isQuote with rfl | rfl
    · exact ends_string _ _ _ more nodes (.inl rfl) writable
    · exact ends_string _ _ _ more nodes (.inr rfl) writable
  apply Ends.weaken
  · apply Ends.seq_cons keyword
    apply Ends.seq_cons source.label
    exact Ends.seq_nil
  · decide
  · rfl

/-- An import ends with its semicolon: no attributes stand before it. -/
theorem ends_close : Ends (grammar dialect) 8
    (.seq [Clause.opt (.seq [Clause.sameTypeLine .final, Clause.word "with", Clause.objectLiteral]),
      Clause.semicolon false false])
    (.facing offset (';' :: more) nodes) (some (.facing (offset + 1) more nodes)) := by
  have unattributed : Ends (grammar dialect) 5
      (Clause.opt (.seq [Clause.sameTypeLine .final, Clause.word "with", Clause.objectLiteral]))
      (.facing offset (';' :: more) nodes) (some (.facing offset (';' :: more) nodes)) := fun _ => rfl
  apply Ends.weaken
  · apply Ends.seq_cons unattributed
    apply Ends.seq_cons
    · exact ends_semicolon offset more nodes false false
    · exact Ends.seq_nil
  · decide
  · rfl

/-! ## Calls of dynamic imports -/

/-- The alternatives of a choice, in order. -/
def Rule.alternatives {Symbol : Type} : Rule Symbol → List (Rule Symbol)
  | .alt rules => rules
  | _ => []

/-- An operand is a chain if nothing else can begin where it stands. -/
theorem ends_operand {place : Place} {least enough : Nat} {progress next : Progress}
    (misses : Ends (grammar dialect) least (.alt (Clause.operand dialect place).alternatives.dropLast)
      progress none)
    (chained : Ends (grammar dialect) enough (Clause.chain place) progress (some next)) :
    Ends (grammar dialect) (max least (enough + 1) + 7) (.symbol (.operand place)) progress (some next) := by
  have split : Clause.operand dialect place =
      .alt ((Clause.operand dialect place).alternatives.dropLast ++ [Clause.chain place]) := by
    cases dialect with
    | plain => rfl
    | markup => rfl
  have few : (Clause.operand dialect place).alternatives.dropLast.length ≤ 6 := by
    cases dialect with
    | plain => exact Nat.le_refl 6
    | markup => exact Nat.le_succ 5
  apply Ends.weaken
  · apply Ends.symbol
    show Ends (grammar dialect) _ (Clause.operand dialect place) progress _
    rw [split]
    exact misses.alt_append chained.alt_first
  · omega
  · rfl

/-- A string before a closing parenthesis is an expression of its own. -/
theorem ends_argument (writable : ∀ c ∈ body, isWritable c = true) :
    Ends (grammar dialect) 80 (.symbol (.expression .inner))
      (.facing offset ('\x27' :: (body ++ '\x27' :: ')' :: ';' :: more)) nodes)
      (some (.facing (offset + (body.length + 2)) (')' :: ';' :: more) (stringNode none offset body :: nodes))) := by
  have misses : Ends (grammar dialect) 30 (.alt (Clause.operand dialect .inner).alternatives.dropLast)
      (.facing offset ('\x27' :: (body ++ '\x27' :: ')' :: ';' :: more)) nodes) none := by
    cases dialect with
    | plain => exact fun _ => rfl
    | markup => exact fun _ => rfl
  have string : Ends (grammar dialect) 4 (.symbol .primary)
      (.facing offset ('\x27' :: (body ++ '\x27' :: ')' :: ';' :: more)) nodes)
      (some (.facing (offset + (body.length + 2)) (')' :: ';' :: more) (stringNode none offset body :: nodes))) := by
    apply Ends.symbol
    apply Ends.alt_first
    exact ends_string _ _ offset _ nodes (.inl rfl) writable
  have alone : Ends (grammar dialect) 30 (.seq [Clause.suffixes .inner,
        Clause.opt (.seq [Clause.sameLine .inner, Clause.assignment .inner])])
      (.facing (offset + (body.length + 2)) (')' :: ';' :: more) (stringNode none offset body :: nodes))
      (some (.facing (offset + (body.length + 2)) (')' :: ';' :: more)
        (stringNode none offset body :: nodes))) := fun _ => rfl
  have ended : Ends (grammar dialect) 30
      (.seq [.many (.seq [Clause.sameLine .inner, Clause.continuation .inner])])
      (.facing (offset + (body.length + 2)) (')' :: ';' :: more) (stringNode none offset body :: nodes))
      (some (.facing (offset + (body.length + 2)) (')' :: ';' :: more)
        (stringNode none offset body :: nodes))) := fun _ => rfl
  apply Ends.weaken
  · apply Ends.symbol
    apply Ends.seq_cons
    · exact ends_operand misses (string.seq_cons alone)
    · exact ended
  · decide
  · rfl

theorem ends_arguments (writable : ∀ c ∈ body, isWritable c = true) :
    Ends (grammar dialect) 100 (.symbol .arguments)
      (.facing offset ('(' :: '\x27' :: (body ++ '\x27' :: ')' :: ';' :: more)) nodes)
      (some (.facing (offset + 1 + (body.length + 2) + 1) (';' :: more)
        (.mk .arguments none offset (offset + 1 + (body.length + 2) + 1)
          [stringNode none (offset + 1) body] :: nodes))) := by
  have opened : Ends (grammar dialect) 1 (Clause.mark "(")
      (.facing offset ('(' :: '\x27' :: (body ++ '\x27' :: ')' :: ';' :: more)) [])
      (some (.facing (offset + 1) ('\x27' :: (body ++ '\x27' :: ')' :: ';' :: more)) [])) := fun _ => rfl
  have unspread : Ends (grammar dialect) 5 Clause.spread
      (.facing (offset + 1) ('\x27' :: (body ++ '\x27' :: ')' :: ';' :: more)) []) none := fun _ => rfl
  have single : Ends (grammar dialect) 10
      (.seq [.many (.seq [Clause.mark ",",
        Clause.opt (.alt [Clause.spread, .symbol (.expression .inner)])])])
      (.facing (offset + 1 + (body.length + 2)) (')' :: ';' :: more) [stringNode none (offset + 1) body])
      (some (.facing (offset + 1 + (body.length + 2)) (')' :: ';' :: more)
        [stringNode none (offset + 1) body])) := fun _ => rfl
  have closed : Ends (grammar dialect) 5 (.seq [Clause.mark ")"])
      (.facing (offset + 1 + (body.length + 2)) (')' :: ';' :: more) [stringNode none (offset + 1) body])
      (some (.facing (offset + 1 + (body.length + 2) + 1) (';' :: more)
        [stringNode none (offset + 1) body])) := fun _ => rfl
  apply Ends.weaken
  · apply Ends.symbol
    apply Ends.node
    · apply Ends.seq_cons opened
      apply Ends.seq_cons
      · apply Ends.seq_cons
        · apply Ends.alt_first
          apply Ends.alt_next unspread
          apply Ends.alt_first
          exact ends_argument (offset + 1) more [] writable
        · exact single
      · exact closed
    · rfl
  · decide
  · rfl

/-- The node of a call that imports a module. -/
def importCall (start : Nat) (body : List Char) : Node :=
  .mk .call none start (start + 7 + (body.length + 2) + 1)
    [.mk .importWord (some .function) start (start + 6) [],
      .mk .arguments (some .arguments) (start + 6) (start + 7 + (body.length + 2) + 1)
        [stringNode none (start + 7) body]]

/-- Arguments behind the last node make a call of it. -/
theorem ends_called (word : Node) (writable : ∀ c ∈ body, isWritable c = true) :
    Ends (grammar dialect) 110 (.seq [Clause.sameLine .final, Clause.suffix])
      (.facing offset ('(' :: '\x27' :: (body ++ '\x27' :: ')' :: ';' :: more)) (word :: nodes))
      (some (.facing (offset + 1 + (body.length + 2) + 1) (';' :: more)
        (.mk .call none word.start (offset + 1 + (body.length + 2) + 1)
          [word.withLabel .function, .mk .arguments (some .arguments) offset (offset + 1 + (body.length + 2) + 1)
            [stringNode none (offset + 1) body]] :: nodes))) := by
  let text := '(' :: '\x27' :: (body ++ '\x27' :: ')' :: ';' :: more)
  have sameLine : Ends (grammar dialect) 3 (Clause.sameLine .final) (.facing offset text (word :: nodes))
      (some (.facing offset text (word :: nodes))) := fun _ => rfl
  have noMember : Ends (grammar dialect) 10 (.extend .member none
        (.seq [.alt [Clause.mark "?." "0123456789", Clause.mark "."],
          .alt [Clause.leaf .other (.name []), Clause.leaf .other .privateName]]))
      (.facing offset text (word :: nodes)) none := fun _ => rfl
  have direct : Ends (grammar dialect) 5 (Clause.opt (Clause.mark "?."))
      (.facing offset text [word.withLabel .function])
      (some (.facing offset text [word.withLabel .function])) := fun _ => rfl
  have untyped : Ends (grammar dialect) 8 (Clause.opt (.symbol .typeArguments))
      (.facing offset text [word.withLabel .function])
      (some (.facing offset text [word.withLabel .function])) := fun _ => rfl
  have given : Ends (grammar dialect) _ _ _ _ := ends_arguments offset more [word.withLabel .function] writable
  apply Ends.weaken
  · apply Ends.seq_cons sameLine
    apply Ends.seq_cons
    · apply Ends.alt_next noMember
      apply Ends.alt_first
      apply Ends.extend
      · apply Ends.seq_cons direct
        apply Ends.seq_cons untyped
        apply Ends.seq_cons given.label
        exact Ends.seq_nil
      · rfl
    · exact Ends.seq_nil
  · decide
  · rfl

theorem ends_importCall (writable : ∀ c ∈ body, isWritable c = true) :
    Ends (grammar dialect) 150 (.symbol (.expression .final))
      (.facing offset (" import(".toList ++ '\x27' :: (body ++ '\x27' :: ')' :: ';' :: more)) nodes)
      (some (.facing (offset + 8 + (body.length + 2) + 1) (';' :: more)
        (importCall (offset + 1) body :: nodes))) := by
  let text := '\x27' :: (body ++ '\x27' :: ')' :: ';' :: more)
  let word : Node := .mk .importWord none (offset + 1) (offset + 7) []
  let last := Progress.facing (offset + 8 + (body.length + 2) + 1) (';' :: more)
    (importCall (offset + 1) body :: nodes)
  have misses : Ends (grammar dialect) 30 (.alt (Clause.operand dialect .final).alternatives.dropLast)
      (.facing offset (" import(".toList ++ text) nodes) none := by
    cases dialect with
    | plain => exact fun _ => rfl
    | markup => exact fun _ => rfl
  have keyword : Ends (grammar dialect) 40 (.symbol .primary)
      (.facing offset (" import(".toList ++ text) nodes)
      (some (.facing (offset + 7) ('(' :: text) (word :: nodes))) := by
    cases dialect with
    | plain => exact fun _ => rfl
    | markup => exact fun _ => rfl
  have called : Ends (grammar dialect) 110 (.seq [Clause.sameLine .final, Clause.suffix])
      (.facing (offset + 7) ('(' :: text) (word :: nodes)) (some last) :=
    ends_called (offset + 7) more nodes word writable
  have finished : Ends (grammar dialect) 30 (Clause.suffixes .final) last (some last) := fun _ => rfl
  have unassigned : Ends (grammar dialect) 20
      (.seq [Clause.opt (.seq [Clause.sameLine .final, Clause.assignment .final])]) last (some last) :=
    fun _ => rfl
  have ended : Ends (grammar dialect) 20
      (.seq [.many (.seq [Clause.sameLine .final, Clause.continuation .final])]) last (some last) :=
    fun _ => rfl
  have chained : Ends (grammar dialect) 120 (Clause.chain .final)
      (.facing offset (" import(".toList ++ text) nodes) (some last) := by
    apply Ends.weaken
    · apply Ends.seq_cons keyword
      apply Ends.seq_cons
      · apply Ends.many_step called
        · simp only [Progress.facing, Cursor.after, last]
          omega
        · exact finished
      · exact unassigned
    · decide
    · rfl
  apply Ends.weaken
  · apply Ends.symbol
    apply Ends.seq_cons
    · exact ends_operand misses chained
    · exact ended
  · decide
  · rfl

end

/-! ## Statements that refer to a module -/

/-- The forms in which a script refers to a module. -/
inductive ImportForm where
  /-- Written as `import 's';`. -/
  | effects
  /-- Written as `import x from "s";`. -/
  | value
  /-- Written as `import type { T } from 's';`. -/
  | types
  /-- Written as `export * from 's';`. -/
  | exportAll
  /-- Written as `export { a } from 's';`. -/
  | exportNames
  /-- Written as `const v = import('s');`. -/
  | dynamic
  deriving DecidableEq

namespace ImportForm

/-- What a form puts before the quoted source. -/
def opening : ImportForm → List Char
  | effects => "import ".toList
  | value => "import x from ".toList
  | types => "import type \x7b T \x7d from ".toList
  | exportAll => "export * from ".toList
  | exportNames => "export \x7b a \x7d from ".toList
  | dynamic => "const v = import(".toList

/-- The quote on either side of the source. -/
def quote : ImportForm → Char
  | value => '\x22'
  | _ => '\x27'

/-- What a form puts behind the quoted source. -/
def closing : ImportForm → List Char
  | dynamic => ");".toList
  | _ => ";".toList

/-- The names that a form declares or passes on. -/
def names (start : Nat) : ImportForm → List Node
  | effects | exportAll => []
  | value => [.mk .other none (start + 7) (start + 8) [.mk .identifier none (start + 7) (start + 8) []]]
  | types => [.mk .other none (start + 12) (start + 17)
      [.mk .other none (start + 12) (start + 17) [.mk .identifier none (start + 14) (start + 15) []]]]
  | exportNames => [.mk .other none (start + 7) (start + 12) [.mk .identifier none (start + 9) (start + 10) []]]
  | dynamic => [.mk .identifier none (start + 6) (start + 7) []]

/-- The kind of statement that a form is. -/
def kind : ImportForm → Kind
  | effects | value | types => .importStatement
  | exportAll | exportNames => .exportStatement
  | dynamic => .other

/-- The node of a form that is written from a place on. -/
def tree (form : ImportForm) (start : Nat) (body : List Char) : Node :=
  let inner := start + form.opening.length
  .mk form.kind none start (inner + (body.length + 2) + form.closing.length) (form.names start ++
    [if form = dynamic then importCall (start + 10) body else stringNode (some .source) inner body])

end ImportForm

/-- The parts of a rule that makes one node of a sequence. -/
def Rule.parts {Symbol : Type} : Rule Symbol → List (Rule Symbol)
  | .node _ (.seq rules) => rules
  | _ => []

/-- What the grammar asks for at a place in a statement. -/
def partAt (statement : Clause) (place : Nat) : Clause := statement.parts.getD place (.alt [])

section

variable {dialect : Dialect} {text : List Char} {least stop : Nat} {found : List Node}
variable (tail : List Char) (tailOffset offset : Nat) (more : List Char) (nodes : List Node)

/-- The word of an import stands first, and its semicolon last. -/
theorem ends_import (inner : Ends (grammar dialect) least (partAt Clause.importStatement 1)
      (.facing (offset + 6) (' ' :: text) []) (some (.facing stop (';' :: more) found))) :
    Ends (grammar dialect) (least + 20) (.symbol .statement)
      (.standing tail tailOffset offset ("import ".toList ++ text) nodes)
      (some (.facing (stop + 1) more (.mk .importStatement none offset (stop + 1) found.reverse :: nodes))) := by
  have keyword : Ends (grammar dialect) 1 (Clause.word "import")
      (.standing tail tailOffset offset ("import ".toList ++ text) [])
      (some (.facing (offset + 6) (' ' :: text) [])) := fun _ => rfl
  apply Ends.weaken
  · apply Ends.symbol
    apply Ends.alt_first
    apply Ends.symbol
    apply Ends.node
    · apply Ends.seq_cons keyword
      exact inner.seq_cons (ends_close stop more found)
    · rfl
  · omega
  · rfl

/-- The word of an export stands first; what is exported begins in the same line. -/
theorem ends_export
    (sameLine : Ends (grammar dialect) 3 (Clause.sameLine .final) (.facing (offset + 6) (' ' :: text) [])
      (some (.facing (offset + 6) (' ' :: text) [])))
    (inner : Ends (grammar dialect) least (partAt Clause.exportStatement 3)
      (.facing (offset + 6) (' ' :: text) []) (some (.facing stop more found))) :
    Ends (grammar dialect) (least + 20) (.symbol .statement)
      (.standing tail tailOffset offset ("export ".toList ++ text) nodes)
      (some (.facing stop more (.mk .exportStatement none offset stop found.reverse :: nodes))) := by
  have noImport : Ends (grammar dialect) 5 (.symbol .importStatement)
      (.standing tail tailOffset offset ("export ".toList ++ text) nodes) none := fun _ => rfl
  have undecorated : Ends (grammar dialect) 5 (.many (.symbol .decorator))
      (.standing tail tailOffset offset ("export ".toList ++ text) [])
      (some (.standing tail tailOffset offset ("export ".toList ++ text) [])) := fun _ => rfl
  have keyword : Ends (grammar dialect) 1 (Clause.word "export")
      (.standing tail tailOffset offset ("export ".toList ++ text) [])
      (some (.facing (offset + 6) (' ' :: text) [])) := fun _ => rfl
  apply Ends.weaken
  · apply Ends.symbol
    apply Ends.alt_next noImport
    apply Ends.alt_first
    apply Ends.symbol
    apply Ends.node
    · apply Ends.seq_cons undecorated
      apply Ends.seq_cons keyword
      apply Ends.seq_cons sameLine
      apply Ends.seq_cons inner
      exact Ends.seq_nil
    · rfl
  · omega
  · rfl

end

section

variable {dialect : Dialect} {body : List Char}

/-- A form is read from a place up to its semicolon. -/
def ReadsForm (dialect : Dialect) (form : ImportForm) (body : List Char) : Prop :=
  ∀ (tail : List Char) (tailOffset offset : Nat) (more : List Char) (nodes : List Node),
    Ends (grammar dialect) 200 (.symbol .statement)
      (.standing tail tailOffset offset
        (form.opening ++ form.quote :: (body ++ form.quote :: (form.closing ++ more))) nodes)
      (some (.facing (offset + form.opening.length + (body.length + 2) + form.closing.length) more
        (form.tree offset body :: nodes)))

theorem readsForm_effects (writable : ∀ c ∈ body, isWritable c = true) : ReadsForm dialect .effects body := by
  intro tail tailOffset offset more nodes
  let text := '\x27' :: (body ++ '\x27' :: ';' :: more)
  have untyped : Ends (grammar dialect) 5 (Clause.words ["type", "typeof"])
      (.facing (offset + 6) (' ' :: text) []) none := fun _ => rfl
  have source : Ends (grammar dialect) 2 Clause.string (.facing (offset + 6) (' ' :: text) [])
      (some (.facing (offset + 7 + (body.length + 2)) (';' :: more)
        [stringNode none (offset + 7) body])) := ends_string _ _ _ _ [] (.inl rfl) writable
  apply Ends.weaken
  · apply ends_import
    apply Ends.alt_next
    · exact untyped.seq_miss
    · apply Ends.alt_first
      apply Ends.alt_first
      exact source.label
  · decide
  · rfl

theorem readsForm_value (writable : ∀ c ∈ body, isWritable c = true) : ReadsForm dialect .value body := by
  intro tail tailOffset offset more nodes
  let text := '\x22' :: (body ++ '\x22' :: ';' :: more)
  have untyped : Ends (grammar dialect) 5 (Clause.words ["type", "typeof"])
      (.facing (offset + 6) (" x from ".toList ++ text) []) none := fun _ => rfl
  have unquoted : Ends (grammar dialect) 5 (.label .source Clause.string)
      (.facing (offset + 6) (" x from ".toList ++ text) []) none := fun _ => rfl
  have named : Ends (grammar dialect) 20 Clause.importClause
      (.facing (offset + 6) (" x from ".toList ++ text) [])
      (some (.facing (offset + 8) (" from ".toList ++ text) (ImportForm.value.names offset))) := fun _ => rfl
  apply Ends.weaken
  · apply ends_import
    apply Ends.alt_next
    · exact untyped.seq_miss
    · apply Ends.alt_first
      apply Ends.alt_next unquoted
      apply Ends.alt_first
      apply Ends.seq_cons named
      apply Ends.seq_cons
      · exact ends_from _ _ _ (.inr rfl) writable
      · exact Ends.seq_nil
  · decide
  · rfl

theorem readsForm_types (writable : ∀ c ∈ body, isWritable c = true) : ReadsForm dialect .types body := by
  intro tail tailOffset offset more nodes
  let text := '\x27' :: (body ++ '\x27' :: ';' :: more)
  have typed : Ends (grammar dialect) 5 (Clause.words ["type", "typeof"])
      (.facing (offset + 6) (" type \x7b T \x7d from ".toList ++ text) [])
      (some (.facing (offset + 11) (" \x7b T \x7d from ".toList ++ text) [])) := fun _ => rfl
  have unquoted : Ends (grammar dialect) 5 (.label .source Clause.string)
      (.facing (offset + 11) (" \x7b T \x7d from ".toList ++ text) []) none := fun _ => rfl
  have named : Ends (grammar dialect) 20 Clause.importClause
      (.facing (offset + 11) (" \x7b T \x7d from ".toList ++ text) [])
      (some (.facing (offset + 17) (" from ".toList ++ text) (ImportForm.types.names offset))) := fun _ => rfl
  apply Ends.weaken
  · apply ends_import
    apply Ends.alt_first
    apply Ends.seq_cons typed
    apply Ends.seq_cons
    · apply Ends.alt_next unquoted
      apply Ends.alt_first
      apply Ends.seq_cons named
      apply Ends.seq_cons
      · exact ends_from _ _ _ (.inl rfl) writable
      · exact Ends.seq_nil
    · exact Ends.seq_nil
  · decide
  · rfl

theorem readsForm_exportAll (writable : ∀ c ∈ body, isWritable c = true) :
    ReadsForm dialect .exportAll body := by
  intro tail tailOffset offset more nodes
  let text := '\x27' :: (body ++ '\x27' :: ';' :: more)
  have sameLine : Ends (grammar dialect) 3 (Clause.sameLine .final)
      (.facing (offset + 6) (" * from ".toList ++ text) [])
      (some (.facing (offset + 6) (" * from ".toList ++ text) [])) := fun _ => rfl
  have star : Ends (grammar dialect) 1 (Clause.mark "*") (.facing (offset + 6) (" * from ".toList ++ text) [])
      (some (.facing (offset + 8) (" from ".toList ++ text) [])) := fun _ => rfl
  have unnamed : Ends (grammar dialect) 5 (Clause.opt (.seq [Clause.word "as", Clause.moduleName]))
      (.facing (offset + 8) (" from ".toList ++ text) [])
      (some (.facing (offset + 8) (" from ".toList ++ text) [])) := fun _ => rfl
  apply Ends.weaken
  · apply ends_export _ _ _ _ _ sameLine
    apply Ends.alt_first
    apply Ends.seq_cons star
    apply Ends.seq_cons unnamed
    apply Ends.seq_cons
    · exact ends_from _ _ _ (.inl rfl) writable
    · apply Ends.seq_cons
      · exact ends_semicolon _ more _ _ _
      · exact Ends.seq_nil
  · decide
  · rfl

theorem readsForm_exportNames (writable : ∀ c ∈ body, isWritable c = true) :
    ReadsForm dialect .exportNames body := by
  intro tail tailOffset offset more nodes
  let text := '\x27' :: (body ++ '\x27' :: ';' :: more)
  have sameLine : Ends (grammar dialect) 3 (Clause.sameLine .final)
      (.facing (offset + 6) (" \x7b a \x7d from ".toList ++ text) [])
      (some (.facing (offset + 6) (" \x7b a \x7d from ".toList ++ text) [])) := fun _ => rfl
  have unstarred : Ends (grammar dialect) 5 (Clause.mark "*")
      (.facing (offset + 6) (" \x7b a \x7d from ".toList ++ text) []) none := fun _ => rfl
  have untyped : Ends (grammar dialect) 5 (Clause.opt (Clause.word "type"))
      (.facing (offset + 6) (" \x7b a \x7d from ".toList ++ text) [])
      (some (.facing (offset + 6) (" \x7b a \x7d from ".toList ++ text) [])) := fun _ => rfl
  have named : Ends (grammar dialect) 20 Clause.specifiers
      (.facing (offset + 6) (" \x7b a \x7d from ".toList ++ text) [])
      (some (.facing (offset + 12) (" from ".toList ++ text) (ImportForm.exportNames.names offset))) := fun _ => rfl
  apply Ends.weaken
  · apply ends_export _ _ _ _ _ sameLine
    apply Ends.alt_next
    · exact unstarred.seq_miss
    · apply Ends.alt_first
      apply Ends.seq_cons untyped
      apply Ends.seq_cons named
      apply Ends.seq_cons
      · apply Ends.alt_first
        exact ends_from _ _ _ (.inl rfl) writable
      · apply Ends.seq_cons
        · exact ends_semicolon _ more _ _ _
        · exact Ends.seq_nil
  · decide
  · rfl

theorem readsForm_dynamic (writable : ∀ c ∈ body, isWritable c = true) : ReadsForm dialect .dynamic body := by
  intro tail tailOffset offset more nodes
  let text := '\x27' :: (body ++ '\x27' :: ')' :: ';' :: more)
  let names := ImportForm.dynamic.names offset
  have noImport : Ends (grammar dialect) 5 (.symbol .importStatement)
      (.standing tail tailOffset offset ("const v = import(".toList ++ text) nodes) none := fun _ => rfl
  have noExport : Ends (grammar dialect) 10 (.symbol .exportStatement)
      (.standing tail tailOffset offset ("const v = import(".toList ++ text) nodes) none := fun _ => rfl
  have noEnum : Ends (grammar dialect) 10 Clause.enumDeclaration
      (.standing tail tailOffset offset ("const v = import(".toList ++ text) nodes) none := fun _ => rfl
  have keyword : Ends (grammar dialect) 5 (Clause.words ["let", "const", "var"])
      (.standing tail tailOffset offset ("const v = import(".toList ++ text) [])
      (some (.facing (offset + 5) (" v = import(".toList ++ text) [])) := fun _ => rfl
  have named : Ends (grammar dialect) 30
      (.alt [.seq [Clause.name, Clause.mark "!", Clause.typing .final],
        .seq [.alt [.symbol .destructuring, Clause.name ["enum"]], Clause.opt (Clause.typing .final)]])
      (.facing (offset + 5) (" v = import(".toList ++ text) [])
      (some (.facing (offset + 7) (" = import(".toList ++ text) names)) := fun _ => rfl
  have equals : Ends (grammar dialect) 1 Clause.equals (.facing (offset + 7) (" = import(".toList ++ text) names)
      (some (.facing (offset + 9) (" import(".toList ++ text) names)) := fun _ => rfl
  have single : Ends (grammar dialect) 5 (.seq [Clause.mark ",", .symbol .declarators])
      (.facing (offset + 17 + (body.length + 2) + 1) (';' :: more) (importCall (offset + 10) body :: names))
      none := fun _ => rfl
  apply Ends.weaken
  · apply Ends.symbol
    apply Ends.alt_next noImport
    apply Ends.alt_next noExport
    apply Ends.alt_first
    apply Ends.symbol
    apply Ends.alt_next noEnum
    apply Ends.alt_first
    apply Ends.node
    · apply Ends.seq_cons keyword
      apply Ends.seq_cons
      · apply Ends.symbol
        apply Ends.seq_cons named
        apply Ends.seq_cons
        · apply Ends.alt_first
          apply Ends.seq_cons
          · apply Ends.seq_cons equals
            apply Ends.seq_cons
            · exact ends_importCall _ more _ writable
            · exact Ends.seq_nil
          · apply Ends.seq_cons
            · apply Ends.alt_next single
              apply Ends.alt_first
              exact ends_semicolon _ more _ _ _
            · exact Ends.seq_nil
        · exact Ends.seq_nil
      · exact Ends.seq_nil
    · rfl
  · decide
  · rfl

theorem readsForm (form : ImportForm) (writable : ∀ c ∈ body, isWritable c = true) :
    ReadsForm dialect form body := by
  cases form with
  | effects => exact readsForm_effects writable
  | value => exact readsForm_value writable
  | types => exact readsForm_types writable
  | exportAll => exact readsForm_exportAll writable
  | exportNames => exact readsForm_exportNames writable
  | dynamic => exact readsForm_dynamic writable

end

end Deadwood.Script
