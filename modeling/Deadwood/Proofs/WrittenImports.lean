import Deadwood.Proofs.ImportStatements
import Deadwood.Proofs.ParsedTree

/-!
# Written imports

Imports and re-exports that are written one on a line are read back: each line
gives one reference, of the kind of its form and with its source as the text.
-/

namespace Deadwood.Script

/-! ## One form -/

namespace ImportForm

/-- The site of the reference that a form makes. -/
def site : ImportForm → Site
  | dynamic => .dynamicImport
  | _ => .staticImport

variable (form : ImportForm) (start : Nat) (body : List Char)

theorem hasFault_tree : (form.tree start body).hasFault = false := by
  cases form <;> rfl

theorem sites_tree (source : List Char) (dialect : Dialect) :
    ((form.tree start body).nodes.flatMap fun node => node.siteReferences source dialect) =
      [(form.site, Text.ofChars (stringValue source (stringNode none (start + form.opening.length) body)))] := by
  cases dialect <;> cases form <;> rfl

end ImportForm

theorem stringValue_stringNode (front body back : List Char) (quote : Char) :
    stringValue (front ++ quote :: (body ++ quote :: back)) (stringNode none front.length body) = body := by
  have taken : (body ++ quote :: back).take (body.length + 1) = body ++ [quote] := by
    rw [List.take_append, List.take_of_length_le (Nat.le_succ _), Nat.add_sub_cancel_left]
    rfl
  simp [stringValue, stringNode, Node.text, Node.start, Node.stop, taken]

theorem pass_breaks (breaks offset : Nat) (text : List Char) :
    Cursor.pass .between offset [] (List.replicate breaks '\n' ++ text) =
      Cursor.pass .between (offset + breaks) [] text := by
  induction breaks generalizing offset with
  | zero => rfl
  | succ breaks ih =>
    have rest := ih (offset + 1)
    rwa [Nat.add_assoc, Nat.add_comm 1] at rest

/-- Behind the last line nothing but line breaks is left. -/
theorem facing_breaks (breaks offset : Nat) (nodes : List Node) :
    Progress.facing offset (List.replicate breaks '\n') nodes =
      .standing (List.replicate breaks '\n') offset (offset + breaks) [] nodes := by
  have passed := pass_breaks breaks offset []
  rw [List.append_nil] at passed
  rw [Progress.facing, Cursor.after, passed]
  rfl

/-! ## Lines -/

/-- An import or re-export as it is written, with a source that needs no escapes. -/
structure WrittenImport where
  form : ImportForm
  source : List Char
  writable : ∀ c ∈ source, isWritable c = true

namespace WrittenImport

/-- The line of an import. -/
def line (written : WrittenImport) : List Char :=
  written.form.opening ++ written.form.quote :: (written.source ++ written.form.quote :: written.form.closing)

/-- What the line of an import refers to. -/
def reference (written : WrittenImport) : Site × Text := (written.form.site, Text.ofChars written.source)

/-- The node of an import that is written from a place on. -/
def tree (start : Nat) (written : WrittenImport) : Node := written.form.tree start written.source

theorem line_append (written : WrittenImport) (more : List Char) : written.line ++ more =
    written.form.opening ++ written.form.quote ::
      (written.source ++ written.form.quote :: (written.form.closing ++ more)) := by
  simp [line]

theorem length_line (written : WrittenImport) : written.line.length =
    written.form.opening.length + (written.source.length + 2) + written.form.closing.length := by
  simp only [line, List.length_append, List.length_cons]
  omega

theorem sites_tree (written : WrittenImport) (front back : List Char) (dialect : Dialect) :
    ((written.tree front.length).nodes.flatMap fun node =>
      node.siteReferences (front ++ (written.line ++ back)) dialect) = [written.reference] := by
  rw [tree, ImportForm.sites_tree, line_append, ← List.append_assoc, ← List.length_append, stringValue_stringNode,
    reference]

/-- Before the line of an import, line breaks are passed over. -/
theorem facing_line (written : WrittenImport) (breaks offset : Nat) (more : List Char) (nodes : List Node) :
    Progress.facing offset (List.replicate breaks '\n' ++ (written.line ++ more)) nodes =
      .standing (List.replicate breaks '\n' ++ (written.line ++ more)) offset (offset + breaks) (written.line ++ more)
        nodes := by
  have begins : Cursor.pass .between (offset + breaks) [] (written.line ++ more) =
      (written.line ++ more, offset + breaks, []) := by
    obtain ⟨form, source, writable⟩ := written
    cases form <;> rfl
  rw [Progress.facing, Cursor.after, pass_breaks, begins]
  rfl

theorem statements_line (written : WrittenImport) (dialect : Dialect) {depth : Nat} (deep : 200 ≤ depth)
    (bound breaks offset : Nat) (more : List Char) (nodes : List Node) :
    statements dialect depth (bound + 1)
        (.facing offset (List.replicate breaks '\n' ++ (written.line ++ more)) nodes) =
      statements dialect depth bound
        (.facing (offset + breaks + written.line.length) more (written.tree (offset + breaks) :: nodes)) := by
  have begun : (written.line ++ more).isEmpty = false := by
    simp [line]
  have reads : ReadsForm dialect written.form written.source := readsForm written.form written.writable
  have read := reads (List.replicate breaks '\n' ++ (written.line ++ more)) offset (offset + breaks) more nodes
  rw [← line_append, Nat.add_assoc _ written.form.opening.length, Nat.add_assoc, ← length_line] at read
  obtain ⟨deeper, rfl⟩ := Nat.exists_eq_add_of_le' deep
  rw [facing_line, statements, if_neg, read deeper]
  · rfl
  · rw [Progress.standing, Cursor.atEnd, begun]
    exact Bool.false_ne_true

end WrittenImport

/-! ## Scripts -/

/-- The imports of a script, each with the number of line breaks before it, as they are written. -/
def scriptText (lines : List (Nat × WrittenImport)) : List Char :=
  lines.flatMap fun entry => List.replicate entry.1 '\n' ++ entry.2.line

/-- The nodes of the imports of a script that is written from a place on. -/
def scriptTrees : Nat → List (Nat × WrittenImport) → List Node
  | _, [] => []
  | offset, (breaks, written) :: lines =>
    written.tree (offset + breaks) :: scriptTrees (offset + breaks + written.line.length) lines

theorem scriptText_cons (breaks : Nat) (written : WrittenImport) (lines : List (Nat × WrittenImport)) :
    scriptText ((breaks, written) :: lines) = List.replicate breaks '\n' ++ (written.line ++ scriptText lines) := by
  rw [scriptText, List.flatMap_cons, List.append_assoc]
  rfl

theorem statements_script (dialect : Dialect) {depth : Nat} (deep : 200 ≤ depth) (lines : List (Nat × WrittenImport))
    {bound : Nat} (room : lines.length ≤ bound) (offset ending : Nat) (nodes : List Node) :
    statements dialect depth bound (.facing offset (scriptText lines ++ List.replicate ending '\n') nodes) =
      .facing (offset + (scriptText lines).length) (List.replicate ending '\n')
        ((scriptTrees offset lines).reverse ++ nodes) := by
  induction lines generalizing bound offset nodes with
  | nil =>
    show statements dialect depth bound (.facing offset (List.replicate ending '\n') nodes) =
      .facing offset (List.replicate ending '\n') nodes
    rw [facing_breaks]
    cases bound with
    | zero => rfl
    | succ bound => rfl
  | cons entry lines ih =>
    obtain ⟨breaks, written⟩ := entry
    cases bound with
    | zero => exact absurd room (Nat.not_succ_le_zero lines.length)
    | succ bound =>
      have step := written.statements_line dialect deep bound breaks offset
        (scriptText lines ++ List.replicate ending '\n') nodes
      rw [ih (Nat.le_of_succ_le_succ room)] at step
      simp only [scriptText_cons, scriptTrees, List.append_assoc, List.length_append, List.length_replicate,
        List.reverse_cons, List.singleton_append, step, Nat.add_assoc]

theorem length_le_scriptText (lines : List (Nat × WrittenImport)) : lines.length ≤ (scriptText lines).length := by
  induction lines with
  | nil => exact Nat.le_refl 0
  | cons entry lines ih =>
    obtain ⟨breaks, written⟩ := entry
    simp only [scriptText_cons, List.length_cons, List.length_append, List.length_replicate, written.length_line]
    omega

/-- No script of imports begins with a line for the shell. -/
theorem hashLine_script (dialect : Dialect) (lines : List (Nat × WrittenImport)) (ending : Nat) :
    Ends (grammar dialect) 2 (Clause.leaf .other .hashLine)
      (.facing 0 (scriptText lines ++ List.replicate ending '\n') []) none := by
  cases lines with
  | nil =>
    show Ends _ _ _ (.facing 0 (List.replicate ending '\n') []) _
    rw [facing_breaks]
    exact fun _ => rfl
  | cons entry lines =>
    obtain ⟨breaks, form, source, writable⟩ := entry
    rw [scriptText_cons, List.append_assoc, List.append_assoc, WrittenImport.facing_line]
    cases form <;> exact fun _ => rfl

theorem parse_script (dialect : Dialect) (lines : List (Nat × WrittenImport)) (ending : Nat) :
    parse dialect (scriptText lines ++ List.replicate ending '\n') =
      .mk .program none 0 (scriptText lines ++ List.replicate ending '\n').length (scriptTrees 0 lines) := by
  generalize whole : scriptText lines ++ List.replicate ending '\n' = source
  have deep : 200 ≤ depthFor source.length := by
    rw [depthFor]
    omega
  have room : lines.length ≤ source.length := by
    rw [← whole, List.length_append]
    exact Nat.le_trans (length_le_scriptText lines) (Nat.le_add_right _ _)
  have opened : (recognize (grammar dialect) (depthFor source.length) (Clause.leaf .other .hashLine)
      (.facing 0 source [])).getD (.facing 0 source []) = .facing 0 source [] := by
    obtain ⟨deeper, deepEnough⟩ := Nat.exists_eq_add_of_le' (Nat.le_trans (by decide : 2 ≤ 200) deep)
    rw [deepEnough, ← whole, hashLine_script dialect lines ending deeper, Option.getD_none]
  have read := statements_script dialect deep lines room 0 ending []
  rw [whole, facing_breaks, ← opened] at read
  rw [parse]
  simp only [Progress.facing] at read
  simp only [Cursor.begin, read]
  simp [Progress.standing, Progress.settle]

theorem anyHasFault_scriptTrees (offset : Nat) (lines : List (Nat × WrittenImport)) :
    Node.anyHasFault (scriptTrees offset lines) = false := by
  induction lines generalizing offset with
  | nil => rfl
  | cons entry lines ih =>
    rw [scriptTrees, Node.anyHasFault, ih, WrittenImport.tree, ImportForm.hasFault_tree]
    rfl

/-- Each line is read back as what it refers to; `front` and `back` are the text around the lines. -/
theorem sites_scriptTrees (dialect : Dialect) (lines : List (Nat × WrittenImport)) (front back : List Char) :
    ((scriptTrees front.length lines).flatMap fun tree => tree.nodes.flatMap fun node =>
      node.siteReferences (front ++ (scriptText lines ++ back)) dialect) =
        (lines.map Prod.snd).map WrittenImport.reference := by
  induction lines generalizing front with
  | nil => rfl
  | cons entry lines ih =>
    obtain ⟨breaks, written⟩ := entry
    have before := written.sites_tree (front ++ List.replicate breaks '\n') (scriptText lines ++ back) dialect
    have behind := ih (front ++ List.replicate breaks '\n' ++ written.line)
    simp only [List.append_assoc, List.length_append, List.length_replicate] at before behind
    simp only [scriptTrees, scriptText_cons, List.append_assoc, List.flatMap_cons, before, List.map_cons,
      Nat.add_assoc, behind, List.singleton_append]

/-! ## Reading back -/

/-- Imports written one on a line, with line breaks behind the last one. -/
def writtenScript (written : List WrittenImport) (ending : Nat) : List Char :=
  List.intercalate ['\n'] (written.map WrittenImport.line) ++ List.replicate ending '\n'

/-- The lines of a script with the line breaks before them: none before the first, one before each other. -/
def scriptLines : List WrittenImport → List (Nat × WrittenImport)
  | [] => []
  | first :: rest => (0, first) :: rest.map (Prod.mk 1)

theorem map_snd_scriptLines (written : List WrittenImport) : (scriptLines written).map Prod.snd = written := by
  cases written with
  | nil => rfl
  | cons first rest => simp [scriptLines, Function.comp_def]

theorem scriptText_scriptLines (written : List WrittenImport) :
    scriptText (scriptLines written) = List.intercalate ['\n'] (written.map WrittenImport.line) := by
  cases written with
  | nil => rfl
  | cons first rest =>
    rw [scriptLines, scriptText_cons, List.map_cons]
    induction rest generalizing first with
    | nil => simp [scriptText]
    | cons second rest ih =>
      rw [List.map_cons, scriptText_cons, List.map_cons, List.intercalate_cons_cons, List.append_assoc, ← ih]
      rfl

/-- Nothing stands at the root of a tree itself. -/
theorem sites_program (source : List Char) (dialect : Dialect) (stop : Nat) (trees : List Node) :
    ((Node.mk .program none 0 stop trees).nodes.flatMap fun node => node.siteReferences source dialect) =
      trees.flatMap fun tree => tree.nodes.flatMap fun node => node.siteReferences source dialect := by
  have nothing : (Node.mk .program none 0 stop trees).siteReferences source dialect = [] := by
    cases dialect <;> rfl
  rw [Node.nodes_mk, List.flatMap_cons, nothing, List.nil_append, List.flatMap_assoc]

/-- Reading a script undoes the writing of imports: each line gives one reference, and there are no others. -/
theorem extract_written (path : Text) (written : List WrittenImport) (ending : Nat) :
    ∃ found, extract path (Text.ofChars (writtenScript written ending)) = .ok found ∧
      found.Perm (written.map fun entry =>
        { origin := path, text := Text.ofChars entry.source, site := entry.form.site }) := by
  let dialect := Dialect.ofPath path
  let source := writtenScript written ending
  have whole : source = scriptText (scriptLines written) ++ List.replicate ending '\n' := by
    rw [scriptText_scriptLines]
    rfl
  have parsed : parse dialect source = .mk .program none 0 source.length (scriptTrees 0 (scriptLines written)) := by
    rw [whole, parse_script]
  have faultless : (parse dialect source).hasFault = false := by
    rw [parsed, Node.hasFault, anyHasFault_scriptTrees]
    rfl
  have sites : ((parse dialect source).nodes.flatMap fun node => node.siteReferences source dialect) =
      written.map WrittenImport.reference := by
    have lines := sites_scriptTrees dialect (scriptLines written) [] (List.replicate ending '\n')
    rw [List.nil_append, ← whole, map_snd_scriptLines] at lines
    rw [parsed, sites_program]
    exact lines
  have found := (references_perm source dialect (enclosed_parse dialect source)).map (referenceFrom path)
  rw [sites, List.map_map] at found
  exact ⟨_, extract_of_faultless faultless, found⟩

/-- Sources that look like comments, holes, calls and markup are taken as they are. -/
theorem extract_written_disguised :
    ∃ found, extract "a.tsx" "import '//';\nimport x from \"/*\";\nconst v = import('$\x7bimport(<a>');\n" = .ok found ∧
      found.Perm [⟨"a.tsx", "//", .staticImport⟩, ⟨"a.tsx", "/*", .staticImport⟩,
        ⟨"a.tsx", "$\x7bimport(<a>", .dynamicImport⟩] :=
  extract_written "a.tsx" [⟨.effects, "//".toList, List.all_eq_true.mp rfl⟩,
    ⟨.value, "/*".toList, List.all_eq_true.mp rfl⟩,
    ⟨.dynamic, "$\x7bimport(<a>".toList, List.all_eq_true.mp rfl⟩] 1

end Deadwood.Script
