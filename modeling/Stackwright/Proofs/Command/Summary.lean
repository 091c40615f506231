import Stackwright.Command.Summary
import Stackwright.Proofs.Program.Nesting
import Stackwright.Proofs.Program.NoLoss

/-!
# The number of functions of a program

The summary counts the lines that declare a function.  It counts characters of a text, so it is
right because of how programs are printed: the lines inside of a function are empty or start with
a tab, whatever strings stand in it, and the lines around functions start otherwise.  The canonical
form of a program has the same lines but for the imports, and so it has the same number.

Main results:

- Theorem `Func.exists_lines`: the lines of a printed function.
- Theorem `functionCount_canonicalize`: when the canonical form of a text declares as many
  functions as the text.
- Theorem `functionCount_print`: a printed file declares its functions and no others.
-/

namespace Stackwright
namespace Command

open Program

/-! ## Counting lines -/

/-- Whether a line declares a function. -/
def declares (line : List Char) : Bool :=
  ['f', 'u', 'n', 'c', ' '].isPrefixOf line

/-- The functions of a text are counted by its lines. -/
theorem functionCount_eq (source : List Char) :
    functionCount source = (Text.lines source).countP declares :=
  List.countP_eq_length_filter.symm

/-- A line declares a function if it starts like one. -/
theorem declares_iff {line : List Char} :
    declares line = true ↔ ∃ rest, line = ['f', 'u', 'n', 'c', ' '] ++ rest := by
  rw [declares, List.isPrefixOf_iff_prefix]
  exact exists_congr fun _ => eq_comm

theorem declares_of_head? {line : List Char} {c : Char} (h : line.head? = some c) (hc : c ≠ 'f') :
    declares line = false := by
  rw [← Bool.not_eq_true, declares_iff]
  rintro ⟨rest, rfl⟩
  exact hc (Option.some.inj h).symm

/-- The start of an import block declares no function. -/
theorem declares_of_opensImports {line : List Char} (h : opensImports line = true) :
    declares line = false := by
  rw [← Bool.not_eq_true]
  intro hline
  obtain ⟨rest, rfl⟩ := declares_iff.1 hline
  rw [List.cons_append, opensImports_cons (by decide) (by decide)] at h
  cases h

theorem declares_of_closesImports {line : List Char} (h : closesImports line = true) :
    declares line = false := by
  rw [← Bool.not_eq_true]
  intro hline
  obtain ⟨rest, rfl⟩ := declares_iff.1 hline
  rw [List.cons_append, closesImports_cons (by decide) (by decide)] at h
  cases h

/-- A line that declares a function when its end is trimmed does so before. -/
theorem declares_of_trimEnd {line : List Char} (h : declares (Text.trimEnd line) = true) :
    declares line = true := by
  rw [declares, List.isPrefixOf_iff_prefix] at h ⊢
  exact h.trans (Text.trimEnd_prefix line)

/-! ## Canonical form -/

/-- Lines with text declare the same functions, if they still do so with their ends trimmed. -/
theorem countP_textLines {lines : List (List Char)}
    (h : ∀ line ∈ lines, declares line = true → declares (Text.trimEnd line) = true) :
    (textLines lines).countP declares = lines.countP declares := by
  have hempty : ∀ line : List Char, (declares line && !line.isEmpty) = declares line := by
    intro line
    cases line <;> simp [declares]
  rw [textLines, List.countP_filter]
  simp only [hempty, List.countP_map]
  refine List.countP_congr fun line hline => ?_
  exact ⟨declares_of_trimEnd, h line hline⟩

/-- The canonical form of a text declares as many functions as the text, if no declaration stands
in the import block and each of them is more than the word. -/
theorem functionCount_canonicalize {source out : List Char} (h : canonicalize source = .ok out)
    (htrim : ∀ line ∈ Text.lines source, declares line = true →
      declares (Text.trimEnd line) = true)
    (hblock : ∀ b : ImportBlock, b.Splits (Text.lines source) → ∀ line ∈ b.entries,
      declares line = false) :
    functionCount out = functionCount source := by
  obtain ⟨code, hcode, -, hlines⟩ := lines_canonicalize h
  have hout : functionCount out
      = (textLines (pruneImports (Text.lines source) (Text.lines code))).countP declares := by
    rw [functionCount_eq, ← textLines_settle, ← hlines]
    refine (countP_textLines fun line hline hdeclares => ?_).symm
    rw [hlines] at hline
    obtain ⟨raw, -, rfl⟩ := List.mem_map.1 ((settle_sublist _).subset hline)
    rwa [Text.trimEnd_idem]
  rw [hout, functionCount_eq, ← countP_textLines htrim, pruneImports]
  cases hfind : ImportBlock.find? (Text.lines source) with
  | none => rfl
  | some b =>
      have hsplits := ImportBlock.find?_eq_some_iff.1 hfind
      obtain ⟨kept, hkept, hdrop⟩ := b.exists_kept (Text.lines code)
      have hnone : ∀ line ∈ b.opening :: b.entries ++ [b.closing], declares line = false := by
        rw [List.forall_mem_append, List.forall_mem_cons, List.forall_mem_singleton]
        exact ⟨⟨declares_of_opensImports hsplits.opening, hblock b hsplits⟩,
          declares_of_closesImports hsplits.closing⟩
      -- What stands between the lines around the block does not count.
      have haround : ∀ middle : List (List Char), (∀ line ∈ middle, declares line = false) →
          (textLines (b.before ++ middle ++ b.after)).countP declares
            = (textLines b.before).countP declares + (textLines b.after).countP declares := by
        intro middle hmiddle
        have hzero : (textLines middle).countP declares = 0 := by
          rw [countP_textLines fun line hline hdeclares => ?_, List.countP_eq_zero]
          · intro line hline
            simp [hmiddle line hline]
          · rw [hmiddle line hline] at hdeclares
            cases hdeclares
        rw [textLines_append, textLines_append, List.countP_append, List.countP_append, hzero,
          Nat.add_zero]
      have hsource : Text.lines source
          = b.before ++ (b.opening :: b.entries ++ [b.closing]) ++ b.after := by
        rw [hsplits.eq]
        simp
      simp only
      rw [textLines_tighten, hdrop, haround kept fun line hline => hnone line (hkept.subset hline),
        hsource, haround _ hnone]

/-! ## The lines of a function -/

/-- The lines of a function: those of its comment, its header, those of its body and the brace
that closes it. -/
structure FuncLines where
  doc : List (List Char)
  header : List Char
  body : List (List Char)

namespace FuncLines

def all (l : FuncLines) : List (List Char) :=
  l.doc ++ l.header :: (l.body ++ [['\x7d']])

/-- The lines that a function is printed on. -/
structure Of (l : FuncLines) (f : Func) : Prop where
  text : ∃ text, f.print = .ok text ∧ Text.lines text = l.all
  doc_length : l.doc.length = f.doc.length
  doc : ∀ line ∈ l.doc, line.head? = some '/'
  header : ['f', 'u', 'n', 'c', ' '] ++ f.name.toList ++ ['(', ')'] <+: l.header
  body : ∀ line ∈ l.body, line = [] ∨ line.head? = some '\t'

variable {l : FuncLines} {f : Func}

theorem Of.declares_header (h : l.Of f) : declares l.header = true := by
  obtain ⟨rest, hrest⟩ := h.header
  exact declares_iff.2 ⟨f.name.toList ++ ['(', ')'] ++ rest, by rw [← hrest]; simp⟩

/-- The header is the only line of a function that declares one. -/
theorem Of.declares_eq_false (h : l.Of f) {line : List Char} (hline : line ∈ l.doc ++ l.body) :
    declares line = false := by
  rcases List.mem_append.1 hline with hline | hline
  · exact declares_of_head? (h.doc line hline) (by decide)
  · rcases h.body line hline with rfl | hhead
    · rfl
    · exact declares_of_head? hhead (by decide)

/-- Of the lines of a function one declares a function: its header. -/
theorem Of.countP_all (h : l.Of f) : l.all.countP declares = 1 := by
  have hdoc : l.doc.countP declares = 0 :=
    List.countP_eq_zero.2 fun line hline => by
      simp [h.declares_eq_false (List.mem_append_left _ hline)]
  have hbody : l.body.countP declares = 0 :=
    List.countP_eq_zero.2 fun line hline => by
      simp [h.declares_eq_false (List.mem_append_right _ hline)]
  have hbrace : [['\x7d']].countP declares = 0 := rfl
  rw [all, List.countP_append, List.countP_cons_of_pos h.declares_header, List.countP_append, hdoc,
    hbody, hbrace]

/-- Trimming leaves of a header what declares the function. -/
theorem Of.trimEnd_declares (h : l.Of f) {line : List Char} (hline : line ∈ l.all)
    (hdeclares : declares line = true) : declares (Text.trimEnd line) = true := by
  have hheader : line = l.header := by
    by_contra hne
    have hmem : line ∈ l.doc ++ l.body ∨ line = ['\x7d'] := by
      simp only [all, List.mem_append, List.mem_cons, List.not_mem_nil, or_false] at hline ⊢
      tauto
    rcases hmem with hmem | rfl
    · rw [h.declares_eq_false hmem] at hdeclares
      cases hdeclares
    · cases hdeclares
  obtain ⟨rest, hrest⟩ := h.header
  have hshape : line = ['f', 'u', 'n', 'c', ' '] ++ f.name.toList ++ '(' :: ')' :: rest := by
    rw [hheader, ← hrest]
    simp
  rw [hshape, Text.trimEnd_append (by decide), declares_iff]
  exact ⟨_, List.append_assoc _ _ _⟩

end FuncLines

theorem newline_notMem_layoutResults {results : List TypeExpr}
    (h : results.all TypeExpr.wellFormed = true) :
    '\n' ∉ layoutResults (results.map TypeExpr.layout) := by
  rw [List.all_eq_true] at h
  have htypes : ∀ t ∈ results, '\n' ∉ t.layout :=
    fun t ht => newline_notMem_of_tight (TypeExpr.tight_layout (h t ht))
  match results, htypes with
  | [], _ => exact List.not_mem_nil
  | [t], htypes => simpa [layoutResults] using htypes t List.mem_cons_self
  | t :: u :: rest, htypes =>
      have hlist : '\n' ∉ commaSeparated ((t :: u :: rest).map TypeExpr.layout) :=
        notMem_commaSeparated (by decide) (by decide) (by simpa using htypes)
      simpa [layoutResults] using hlist

/-- The lines of a printed function, in front of every text.  None of them opens an import block. -/
theorem Func.exists_lines {f : Func} (h : f.wellFormed = true)
    (hdoc : ∀ line ∈ f.doc, '\n' ∉ line.toList) :
    ∃ l : FuncLines, l.Of f ∧
      (∀ s, Text.lines (f.layout .source ++ s) = l.all ++ Text.lines s) ∧
      ∀ line ∈ l.all, opensImports line = false := by
  have hparts := h
  simp only [Func.wellFormed, Bool.and_eq_true] at hparts
  obtain ⟨⟨hname, hresults⟩, hbody⟩ := hparts
  obtain ⟨doc, hdocLines, hlength, hslash⟩ := exists_printComments hdoc
  obtain ⟨text, body, htext, hbodyLines, hspec⟩ := Stmt.exists_bodyLines hbody
  let header := f.signature ++ [' ', '\x7b']
  have hheader : '\n' ∉ header := by
    have hword := newline_notMem_of_tight (tight_name hname)
    have htypes := newline_notMem_layoutResults hresults
    simp [header, Func.signature, hword, htypes]
  have hlines : ∀ s, Text.lines (f.layout .source ++ s)
      = (FuncLines.mk doc header body).all ++ Text.lines s := by
    intro s
    have hlayout : f.layout .source ++ s = f.doc.flatMap printComment ++ (header
        ++ (f.body.flatMap (Stmt.lineLayout .source 1) ++ ['\n']) ++ '\x7d' :: '\n' :: s) := by
      simp [Func.layout, layoutBlock, header, newline, Ink.source]
    have hbrace : Text.lines ('\x7d' :: '\n' :: s) = ['\x7d'] :: Text.lines s :=
      Text.lines_line (show '\n' ∉ ['\x7d'] by decide) (by decide) s
    rw [hlayout, htext, hdocLines, List.append_assoc, List.cons_append,
      Text.lines_line hheader (by simp [header]), hbodyLines, hbrace]
    simp [FuncLines.all]
  refine ⟨⟨doc, header, body⟩, ⟨⟨_, (f.print_eq_ok_iff _).2 ⟨h, rfl⟩, ?_⟩, hlength, hslash, ?_,
    fun line hline => (hspec line hline).1⟩, hlines, ?_⟩
  · simpa using hlines []
  · exact ⟨layoutResults (f.results.map TypeExpr.layout) ++ [' ', '\x7b'], by
      simp [header, Func.signature]⟩
  · intro line hline
    simp only [FuncLines.all, List.mem_append, List.mem_cons, List.not_mem_nil, or_false] at hline
    rcases hline with hline | rfl | hline | rfl
    · exact opensImports_of_head? (hslash line hline) (by decide) (by decide)
    · exact opensImports_of_head? (c := 'f') rfl (by decide) (by decide)
    · exact (hspec line hline).2
    · decide

/-! ## The lines of a file -/

/-- The lines of functions, each after an empty line. -/
theorem exists_funcLines {funcs : List Func} (h : funcs.all Func.wellFormed = true)
    (hdoc : ∀ f ∈ funcs, ∀ line ∈ f.doc, '\n' ∉ line.toList) :
    ∃ sections : List FuncLines, List.Forall₂ FuncLines.Of sections funcs ∧
      Text.lines (funcsLayout .source funcs) = sections.flatMap (fun l => [] :: l.all) ∧
      ∀ line ∈ sections.flatMap (fun l => [] :: l.all), opensImports line = false := by
  induction funcs with
  | nil => exact ⟨[], .nil, rfl, by simp⟩
  | cons f rest ih =>
      rw [List.all_cons, Bool.and_eq_true] at h
      obtain ⟨hf, hrest⟩ := List.forall_mem_cons.1 hdoc
      obtain ⟨l, hl, hlines, hopens⟩ := Func.exists_lines h.1 hf
      obtain ⟨sections, hsections, hmore, hmoreOpens⟩ := ih h.2 hrest
      refine ⟨l :: sections, .cons hl hsections, ?_, ?_⟩
      · have htext : funcsLayout .source (f :: rest)
            = '\n' :: (f.layout .source ++ funcsLayout .source rest) := rfl
        rw [htext, Text.lines_newline, hlines, hmore]
        rfl
      · rw [List.flatMap_cons, List.forall_mem_append, List.forall_mem_cons]
        exact ⟨⟨by decide, hopens⟩, hmoreOpens⟩

/-- The headers of functions are the only lines that declare one. -/
theorem countP_funcLines {sections : List FuncLines} {funcs : List Func}
    (h : List.Forall₂ FuncLines.Of sections funcs) :
    (sections.flatMap fun l => [] :: l.all).countP declares = funcs.length := by
  induction h with
  | nil => rfl
  | cons hl _ ih =>
      rw [List.flatMap_cons, List.countP_append, List.countP_cons_of_neg (by decide), hl.countP_all,
        ih, List.length_cons, Nat.add_comm]

/-- A line that declares a function does so without the blanks at its end. -/
theorem trimEnd_declares_of_mem {sections : List FuncLines} {funcs : List Func}
    (h : List.Forall₂ FuncLines.Of sections funcs) {line : List Char}
    (hline : line ∈ sections.flatMap fun l => [] :: l.all) (hdeclares : declares line = true) :
    declares (Text.trimEnd line) = true := by
  have hof : ∀ l ∈ sections, ∃ f, l.Of f :=
    forall_mem_of_forall₂ h.flip fun f _ l hl => ⟨f, hl⟩
  obtain ⟨l, hl, hmem⟩ := List.mem_flatMap.1 hline
  obtain ⟨f, hf⟩ := hof l hl
  rcases List.mem_cons.1 hmem with rfl | hmem
  · cases hdeclares
  · exact hf.trimEnd_declares hmem hdeclares

/-- No line of an import block declares a function. -/
theorem declares_of_mem_importEntries {groups : List (List String)} {line : List Char}
    (h : line ∈ importEntries .source groups) : declares line = false := by
  rcases mem_importEntries h with rfl | ⟨path, -, rfl⟩
  · rfl
  · exact declares_of_head? (c := '\t') rfl (by decide)

/-- The lines of a file above its functions.  None of them declares one. -/
theorem exists_frontLines {f : File} (h : isIdentifier f.package.toList = true)
    (hcomments : f.CommentsOnLines) (root : String) (s : List Char) :
    ∃ front, Text.lines (f.frontLayout .source
        ++ (importsLayout .source (importGroups root f.packages) ++ s)) = front ++ Text.lines s ∧
      (∀ line ∈ front, declares line = false) ∧
      (importGroups root f.packages = [] → ∀ line ∈ front, opensImports line = false) := by
  have hslash : ∀ line : List Char, line.head? = some '/' →
      declares line = false ∧ opensImports line = false := fun line hline =>
    ⟨declares_of_head? hline (by decide), opensImports_of_head? hline (by decide) (by decide)⟩
  obtain ⟨front, hfront, -, hspec⟩ := f.lines_frontLayout .source h
    (fun line => declares line = false ∧ opensImports line = false) (by decide)
    ⟨declares_of_head? (c := 'p') rfl (by decide),
      opensImports_of_head? (c := 'p') rfl (by decide) (by decide)⟩
    (lines_printComments hcomments.1 hslash)
    (importsLayout .source (importGroups root f.packages) ++ s)
  rw [hfront]
  by_cases hgroups : importGroups root f.packages = []
  · rw [hgroups]
    exact ⟨front, rfl, fun line hline => (hspec line hline).1,
      fun _ line hline => (hspec line hline).2⟩
  · rw [lines_importsLayout isLine_importLine_source hgroups, ← List.append_assoc]
    refine ⟨_, rfl, fun line hline => ?_, fun hnil => absurd hnil hgroups⟩
    simp only [importLines, List.mem_append, List.mem_cons, List.not_mem_nil, or_false] at hline
    rcases hline with hline | rfl | rfl | hline | rfl
    · exact (hspec line hline).1
    · rfl
    · rfl
    · exact declares_of_mem_importEntries hline
    · rfl

/-- A printed file consists of lines that declare nothing and of the lines of its functions.  If it
imports nothing, no line opens an import block. -/
theorem exists_sections {f : File} (h : f.wellFormed = true) (hcomments : f.CommentsOnLines)
    (root : String) :
    ∃ front sections, Text.lines (f.layout .source root)
        = front ++ sections.flatMap (fun l => [] :: l.all) ∧
      (∀ line ∈ front, declares line = false) ∧ List.Forall₂ FuncLines.Of sections f.funcs ∧
      (importGroups root f.packages = [] →
        ∀ line ∈ Text.lines (f.layout .source root), opensImports line = false) := by
  rw [File.wellFormed, Bool.and_eq_true] at h
  obtain ⟨sections, hsections, hfuncs, hopens⟩ := exists_funcLines h.2 hcomments.2
  obtain ⟨front, hfront, hdeclares, hfrontOpens⟩ :=
    exists_frontLines h.1 hcomments root (funcsLayout .source f.funcs)
  rw [File.layout, List.append_assoc, hfront, hfuncs]
  refine ⟨front, sections, rfl, hdeclares, hsections, fun hgroups => ?_⟩
  rw [List.forall_mem_append]
  exact ⟨hfrontOpens hgroups, hopens⟩

/-- No line of the import block of a printed file declares a function. -/
theorem declares_of_mem_entries {f : File} (h : f.wellFormed = true)
    (hcomments : f.CommentsOnLines) {root : String} {b : ImportBlock}
    (hb : b.Splits (Text.lines (f.layout .source root))) :
    ∀ line ∈ b.entries, declares line = false := by
  by_cases hgroups : importGroups root f.packages = []
  · obtain ⟨-, -, -, -, -, hopens⟩ := exists_sections h hcomments root
    have hnone := hopens hgroups b.opening (by simp [hb.eq])
    rw [hb.opening] at hnone
    cases hnone
  · rw [File.wellFormed, Bool.and_eq_true] at h
    obtain ⟨before, -, -, hfind⟩ := File.find?_lines_layout h.1 hcomments hgroups
    rw [ImportBlock.find?_eq_some_iff.2 hb, Option.some.injEq] at hfind
    rw [hfind]
    exact fun line hline => declares_of_mem_importEntries hline

/-! ## The number of functions -/

/-- A printed file consists of lines that declare nothing and of the lines of its functions.
Between the header of a function and the brace that closes it, every line is empty or starts with
a tab.  So the text declares as many functions as the file has, and so does its canonical form. -/
theorem functionCount_print {f : File} (hcomments : f.CommentsOnLines) {root : String}
    {text : List Char} (h : f.print root = .ok text) :
    (∃ front sections, Text.lines text = front ++ sections.flatMap (fun l => [] :: l.all) ∧
      (∀ line ∈ front, declares line = false) ∧ List.Forall₂ FuncLines.Of sections f.funcs) ∧
    functionCount text = f.funcs.length ∧
    ∃ out, canonicalize text = .ok out ∧ functionCount out = f.funcs.length := by
  obtain ⟨hwell, rfl⟩ := (f.print_eq_ok_iff root text).1 h
  obtain ⟨front, sections, hlines, hdeclares, hsections, -⟩ := exists_sections hwell hcomments root
  have hcount : functionCount (f.layout .source root) = f.funcs.length := by
    have hzero : front.countP declares = 0 :=
      List.countP_eq_zero.2 fun line hline => by simp [hdeclares line hline]
    rw [functionCount_eq, hlines, List.countP_append, hzero, countP_funcLines hsections,
      Nat.zero_add]
  have hcanonical : ∃ out, canonicalize (f.layout .source root) = .ok out := by
    rw [canonicalize, f.blank_layout hwell hcomments root]
    exact ⟨_, rfl⟩
  have htrim : ∀ line ∈ Text.lines (f.layout .source root), declares line = true →
      declares (Text.trimEnd line) = true := by
    intro line hline hdeclared
    rw [hlines] at hline
    rcases List.mem_append.1 hline with hline | hline
    · rw [hdeclares line hline] at hdeclared
      cases hdeclared
    · exact trimEnd_declares_of_mem hsections hline hdeclared
  obtain ⟨out, hout⟩ := hcanonical
  refine ⟨⟨front, sections, hlines, hdeclares, hsections⟩, hcount, out, hout, ?_⟩
  rw [functionCount_canonicalize hout htrim fun b hb => declares_of_mem_entries hwell hcomments hb,
    hcount]

/-- A file with one function, a comment and a string that look like more of them. -/
def chattyFile : File where
  header := ["func none() \x7b"]
  package := "main"
  funcs :=
    [{ doc := ["func none() \x7b"]
       name := "main"
       results := []
       body := [.expr (.packageCall .log "Println" [.string "\nfunc none() \x7b"]), .blank] }]

/-- One function is counted. -/
theorem functionCount_print_chattyFile :
    ∃ text out, chattyFile.print "example.com/api" = .ok text ∧ functionCount text = 1 ∧
      canonicalize text = .ok out ∧ functionCount out = 1 := by
  have hprint : chattyFile.print "example.com/api"
      = .ok (chattyFile.layout .source "example.com/api") :=
    (File.print_eq_ok_iff _ _ _).2 ⟨by decide, rfl⟩
  have hcomments : chattyFile.CommentsOnLines := ⟨by decide, by decide⟩
  obtain ⟨-, hcount, out, hout, hcountOut⟩ := functionCount_print hcomments hprint
  exact ⟨_, out, hprint, hcount, hout, hcountOut⟩

end Command
end Stackwright
