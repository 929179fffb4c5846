import Deadwood.Proofs.Discovery
import Deadwood.Proofs.Display
import Deadwood.Proofs.ParsedTree
import Deadwood.Proofs.Unused

/-!
# Text files

A file that is there is read, whatever its bytes are: stretches that are no text
become marks, and every line ends in a line feed.  So the text of a scanned
script can always be encoded, and text that is written as UTF-8 is read back up to
its line ends.
-/

namespace Deadwood

/-! ## Line ends -/

namespace Text

/-- The occurrences of a text, from the left, are replaced; `skip` code points belong to the last of them. -/
def replaceFrom (old new : Text) : Nat → Text → Text
  | _, [] => []
  | skip + 1, _ :: rest => replaceFrom old new skip rest
  | 0, c :: rest =>
    if startsWith (c :: rest) old then new ++ replaceFrom old new (old.length - 1) rest
    else c :: replaceFrom old new 0 rest

/-- One text put in place of another throughout. -/
def replaceAll (text old new : Text) : Text := replaceFrom old new 0 text

theorem replaceFrom_skip (old new front rest : Text) :
    replaceFrom old new front.length (front ++ rest) = replaceAll rest old new := by
  induction front with
  | nil => rfl
  | cons c front ih => rw [List.length_cons, List.cons_append, replaceFrom, ih]

theorem replaceAll_append {old : Text} (nonempty : old ≠ []) (new rest : Text) :
    replaceAll (old ++ rest) old new = new ++ replaceAll rest old new := by
  obtain ⟨c, more, rfl⟩ := List.exists_cons_of_ne_nil nonempty
  have found : startsWith (c :: (more ++ rest)) (c :: more) = true := startsWith_iff.mpr ⟨rest, rfl⟩
  rw [replaceAll, List.cons_append, replaceFrom, if_pos found]
  exact congrArg (new ++ ·) (replaceFrom_skip (c :: more) new more rest)

theorem replaceAll_cons {old : Text} {c : Codepoint} {rest : Text}
    (absent : ¬ old <+: c :: rest) (new : Text) :
    replaceAll (c :: rest) old new = c :: replaceAll rest old new := by
  rw [replaceAll, replaceFrom, startsWith_eq_false.mpr absent]
  rfl

end Text

namespace Encoding

variable {text rest : Text} {c : Codepoint}

/-- Each pair of a carriage return and a line feed, and then each carriage return left, replaced. -/
def replaceReturns (text : Text) : Text := (text.replaceAll "\r\n" "\n").replaceAll "\r" "\n"

theorem replaceReturns_pair (rest : Text) :
    replaceReturns (Codepoint.char '\r' :: Codepoint.char '\n' :: rest) =
      Codepoint.char '\n' :: replaceReturns rest := by
  have pair := Text.replaceAll_append (show ("\r\n" : Text) ≠ [] by decide) "\n" rest
  have feed : ¬ ("\r" : Text) <+: Codepoint.char '\n' :: rest.replaceAll "\r\n" "\n" := by
    intro starts
    cases (List.cons_prefix_cons.mp starts).1
  exact (congrArg (Text.replaceAll · "\r" "\n") pair).trans (Text.replaceAll_cons feed "\n")

theorem replaceReturns_alone (alone : rest.head? ≠ some (Codepoint.char '\n')) :
    replaceReturns (Codepoint.char '\r' :: rest) = Codepoint.char '\n' :: replaceReturns rest := by
  have other : ¬ ("\r\n" : Text) <+: Codepoint.char '\r' :: rest := by
    intro starts
    obtain ⟨more, rfl⟩ := (List.cons_prefix_cons.mp starts).2
    exact alone rfl
  have single := Text.replaceAll_append (show ("\r" : Text) ≠ [] by decide) "\n" (rest.replaceAll "\r\n" "\n")
  exact (congrArg (Text.replaceAll · "\r" "\n") (Text.replaceAll_cons other "\n")).trans single

theorem replaceReturns_other (other : c ≠ Codepoint.char '\r') :
    replaceReturns (c :: rest) = c :: replaceReturns rest := by
  have differ (rest more : Text) : ¬ Codepoint.char '\r' :: more <+: c :: rest := by
    intro starts
    exact other (List.cons_prefix_cons.mp starts).1.symm
  exact (congrArg (Text.replaceAll · "\r" "\n") (Text.replaceAll_cons (differ rest _) "\n")).trans
    (Text.replaceAll_cons (differ _ []) "\n")

theorem unifyLinesFrom_eq (found text : Text) :
    unifyLinesFrom found text = found.reverse ++ replaceReturns text := by
  fun_induction unifyLinesFrom found text with
  | case1 found => exact (List.append_nil _).symm
  | case2 found rest ih =>
    rw [ih, replaceReturns_pair, List.reverse_cons, List.append_assoc]
    rfl
  | case3 found d more other ih =>
    rw [ih, replaceReturns_alone (by simpa using other), List.reverse_cons, List.append_assoc]
    rfl
  | case4 found ih =>
    rw [ih, replaceReturns_alone (by simp), List.reverse_cons, List.append_assoc]
    rfl
  | case5 found c rest other ih =>
    rw [ih, replaceReturns_other other, List.reverse_cons, List.append_assoc]
    rfl

/-- Line ends become line feeds as if those of two code points were replaced first. -/
theorem unifyLines_eq (text : Text) : unifyLines text = replaceReturns text :=
  unifyLinesFrom_eq [] text

theorem mem_unifyLinesFrom {found : Text} (member : c ∈ unifyLinesFrom found text) :
    c ∈ found ∨ c = Codepoint.char '\n' ∨ c ∈ text ∧ c ≠ Codepoint.char '\r' := by
  fun_induction unifyLinesFrom found text with
  | case1 found => exact .inl (List.mem_reverse.mp member)
  | case2 _ _ ih | case3 _ _ _ _ ih | case4 _ ih =>
    have reached := ih member
    simp only [List.mem_cons] at reached ⊢
    tauto
  | case5 found d rest other ih =>
    have reached := ih member
    simp only [List.mem_cons] at reached ⊢
    rcases reached with (rfl | before) | rest
    · exact .inr (.inr ⟨.inl rfl, other⟩)
    · exact .inl before
    · tauto

theorem return_not_mem_unifyLines (text : Text) : Codepoint.char '\r' ∉ unifyLines text := by
  intro member
  simpa using mem_unifyLinesFrom member

theorem hasSurrogate_unifyLines (free : text.hasSurrogate = false) :
    (unifyLines text).hasSurrogate = false := by
  rw [Text.hasSurrogate, List.any_eq_false] at free ⊢
  intro c member
  rcases mem_unifyLinesFrom member with none | rfl | ⟨inside, -⟩
  · cases none
  · exact Bool.false_ne_true
  · exact free c inside

theorem unifyLines_of_free (free : Codepoint.char '\r' ∉ text) : unifyLines text = text := by
  rw [unifyLines_eq]
  induction text with
  | nil => rfl
  | cons c rest ih =>
    obtain ⟨other, others⟩ := List.ne_and_not_mem_of_not_mem_cons free
    rw [replaceReturns_other other.symm, ih others]

end Encoding

/-! ## Files -/

namespace Discovery

open Encoding

variable {tree : FileTree} {root : Path.Parsed} {settings : Settings} {sources : Discovery}

theorem return_not_mem_textOf (bytes : Bytes) : Codepoint.char '\r' ∉ textOf bytes :=
  return_not_mem_unifyLines _

theorem hasSurrogate_textOf (bytes : Bytes) : (textOf bytes).hasSurrogate = false :=
  hasSurrogate_unifyLines (hasSurrogate_decodeUtf8 (fun _ => rfl) bytes)

theorem textOf_utf8 (cs : List Char) : textOf (utf8 cs) = replaceReturns (Text.ofChars cs) := by
  rw [textOf, decodeUtf8_utf8, unifyLines_eq]

theorem readText_eq {path : Path.Parsed} {bytes : Bytes} (stored : tree.content path = .ok bytes) :
    tree.readText path = .ok (textOf bytes) := by
  rw [FileTree.readText, stored]
  rfl

/-- The text of a source is that of the bytes of its file. -/
theorem text_of_scan (ran : (scan tree root settings).result = .ok sources) {source : Source}
    (member : source ∈ sources.scripts ++ sources.stylesheets) : ∃ bytes, source.text = textOf bytes := by
  have finds := scan_finds ran
  have reads : Reads tree root settings.maxBytes source.path source.text := by
    rcases List.mem_append.mp member with script | stylesheet
    · exact ((finds.scripts source).mp script).2
    · exact ((finds.stylesheets source).mp stylesheet).2
  obtain ⟨bytes, -, -, -, -, text⟩ := readSource_text (readSource_eq_ok.mpr reads)
  exact ⟨bytes, text⟩

end Discovery

/-- A text that can be encoded is not refused for its encoding. -/
theorem Script.extract_ne_encodingReason (path : Text) (source : List Char) (place name : Text)
    (position : Nat) (run : Text) :
    extract path (Text.ofChars source) ≠ .error (.unparsable place name (encodingReason position run)) := by
  cases fault : (parse (Dialect.ofPath path) source).hasFault with
  | false =>
    rw [extract_of_faultless fault]
    intro same
    cases same
  | true =>
    rw [extract_of_fault fault]
    intro same
    injection same with same
    injection same with _ _ reason
    cases congrArg List.head? reason

/-- Every file that is there is read, as text that can be encoded and has no carriage returns.  So no script of
a scan is refused for its encoding.  Text in UTF-8 is read as it was written, with the pairs of a carriage return
and a line feed, and then the carriage returns left, replaced by line feeds. -/
theorem Discovery.scanned_text_encodable :
    (∀ (tree : FileTree) path bytes, tree.content path = .ok bytes → ∃ text, tree.readText path = .ok text ∧
      Codepoint.char '\r' ∉ text ∧ text.hasSurrogate = false) ∧
    (∀ tree root settings sources, (scan tree root settings).result = .ok sources →
      (∀ source ∈ sources.scripts ++ sources.stylesheets,
        Codepoint.char '\r' ∉ source.text ∧ source.text.hasSurrogate = false) ∧
      ∀ source ∈ sources.scripts, (∃ chars, source.text.chars? = some chars) ∧
        ∀ place name position run, Script.extract source.path source.text ≠
          .error (.unparsable place name (Script.encodingReason position run))) ∧
    ∀ text : Text, text.hasSurrogate = false → ∃ cs, text = Text.ofChars cs ∧
      ∀ (tree : FileTree) path, tree.content path = .ok (cs.flatMap String.utf8EncodeChar) →
        tree.readText path = .ok ((text.replaceAll "\r\n" "\n").replaceAll "\r" "\n") := by
  refine ⟨?_, ?_, ?_⟩
  · intro tree path bytes stored
    exact ⟨textOf bytes, readText_eq stored, return_not_mem_textOf bytes, hasSurrogate_textOf bytes⟩
  · intro tree root settings sources ran
    refine ⟨?_, ?_⟩
    · intro source member
      obtain ⟨bytes, text⟩ := text_of_scan ran member
      rw [text]
      exact ⟨return_not_mem_textOf bytes, hasSurrogate_textOf bytes⟩
    · intro source member
      obtain ⟨bytes, text⟩ := text_of_scan ran (List.mem_append_left _ member)
      obtain ⟨chars, written⟩ := Text.exists_ofChars (hasSurrogate_textOf bytes)
      rw [text, written]
      exact ⟨⟨chars, Script.chars?_ofChars chars⟩, Script.extract_ne_encodingReason source.path chars⟩
  · intro text free
    obtain ⟨cs, rfl⟩ := Text.exists_ofChars free
    refine ⟨cs, rfl, ?_⟩
    intro tree path stored
    rw [← Encoding.utf8_eq] at stored
    rw [readText_eq stored, textOf_utf8]
    rfl

namespace Discovery

open Analysis (sampleTree sampleRoot sampleRun sampleRun_ended ended)

/-- A script with a stray byte and carriage returns at the ends of its lines. -/
def strayTree : FileTree := sampleTree "a\u00ff\r\nb\r" []

set_option maxRecDepth 100000 in
theorem sampleRun_stray : sampleRun strayTree [] (ended fun _ sources _ _ => sources.scripts) =
    some (some [⟨"src/main.ts", "a\ufffd\nb\n"⟩]) := by
  simp only [sampleRun, Analysis.run, Analysis.ledgerOf, scan, select, Settings.ignoredSuffixes,
    Text.sortedSet, Text.mergeSort_eq_insertionSort]
  decide +kernel

/-- The stray byte is marked, and the script is not refused for it; without that byte the text is read back. -/
theorem scanned_text_encodable_stray :
    (∃ settings sources source, (scan strayTree (strayTree.resolve sampleRoot) settings).result = .ok sources ∧
      source ∈ sources.scripts ∧ source.text = "a\ufffd\nb\n" ∧ source.text.hasSurrogate = false ∧
      ∀ place name position run, Script.extract source.path source.text ≠
        .error (.unparsable place name (Script.encodingReason position run))) ∧
    (sampleTree "a\r\nb\r" []).readText ⟨1, ["p", "src", "main.ts"].map Text.ofString⟩ = .ok "a\nb\n" := by
  obtain ⟨-, scans, back⟩ := scanned_text_encodable
  refine ⟨?_, ?_⟩
  · obtain ⟨settings, sources, -, -, -, scanned, -, scripts⟩ := sampleRun_ended sampleRun_stray
    obtain ⟨texts, branches⟩ := scans _ _ _ _ scanned
    have member : (⟨"src/main.ts", "a\ufffd\nb\n"⟩ : Source) ∈ sources.scripts := by simp [scripts]
    exact ⟨settings, sources, _, scanned, member, rfl, (texts _ (List.mem_append_left _ member)).2,
      (branches _ member).2⟩
  · obtain ⟨cs, written, read⟩ := back "a\r\nb\r" rfl
    obtain rfl : "a\r\nb\r".toList = cs :=
      List.map_injective_iff.mpr (fun _ _ => Codepoint.char.inj) written
    exact read _ _ rfl

end Discovery

end Deadwood
