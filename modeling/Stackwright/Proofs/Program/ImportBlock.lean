import Stackwright.Program.Canonical
import Stackwright.Proofs.Program.Mentions
import Stackwright.Proofs.Text.Blank

/-!
# The import block of a printed file

The lines of a printed file are those of its comment and package clause, of its
imports and of its functions.  The import block is found where it stands, because
no line before it opens one.

Main results:

- Theorem `ImportBlock.find?_eq_some`: where the import block of a text is found.
- Theorem `File.find?_lines_layout`: the import block of a printed file.
- Theorem `File.print_imports`: the imports of a printed file are the packages
  that its code refers to.
-/

namespace Stackwright
namespace Program

/-! ## Lines -/

/-- A line that is cut out of a text as it is. -/
def IsLine (line : List Char) : Prop :=
  '\n' ∉ line ∧ line.getLast? ≠ some '\r'

/-- Lines in front of a text are cut out as they are. -/
theorem lines_unlines_append {lines : List (List Char)} (h : ∀ line ∈ lines, IsLine line)
    (s : List Char) : Text.lines (unlines lines ++ s) = lines ++ Text.lines s := by
  induction lines with
  | nil => rfl
  | cons line rest ih =>
      have hline := h line List.mem_cons_self
      have htext : unlines (line :: rest) ++ s = line ++ '\n' :: (unlines rest ++ s) := by
        simp [unlines]
      rw [htext, Text.lines_line hline.1 hline.2, ih fun l hl => h l (List.mem_cons_of_mem _ hl)]
      rfl

theorem unlines_cons (line : List Char) (rest : List (List Char)) :
    unlines (line :: rest) = line ++ '\n' :: unlines rest := by
  simp [unlines]

theorem unlines_append (a b : List (List Char)) : unlines (a ++ b) = unlines a ++ unlines b := by
  simp [unlines]

/-- Empty lines between groups of lines. -/
theorem unlines_intercalate (groups : List (List (List Char))) :
    unlines ([[]].intercalate groups) = ['\n'].intercalate (groups.map unlines) := by
  induction groups with
  | nil => rfl
  | cons group rest ih =>
      cases rest with
      | nil => simp [List.intercalate]
      | cons other rest =>
          have hleft : [[]].intercalate (group :: other :: rest)
              = group ++ [] :: [[]].intercalate (other :: rest) := rfl
          have hright : ['\n'].intercalate ((group :: other :: rest).map unlines)
              = unlines group ++ '\n' :: ['\n'].intercalate ((other :: rest).map unlines) := rfl
          rw [hleft, hright, unlines_append, ← ih]
          rfl

/-! ## Finding the block -/

/-- The first import block of a text is found if no line before it opens one and no line in it
closes one. -/
theorem ImportBlock.find?_eq_some {before entries after : List (List Char)}
    {opening closing : List Char} (hbefore : ∀ line ∈ before, opensImports line = false)
    (hopening : opensImports opening = true)
    (hentries : ∀ line ∈ entries, closesImports line = false)
    (hclosing : closesImports closing = true) :
    find? (before ++ opening :: (entries ++ closing :: after))
      = some { before, opening, entries, closing, after } := by
  have hskip : ∀ line ∈ before, (!opensImports line) = true := by
    intro line hline
    rw [hbefore line hline]
    rfl
  have hpass : ∀ line ∈ entries, (!closesImports line) = true := by
    intro line hline
    rw [hentries line hline]
    rfl
  rw [find?, List.dropWhile_append_of_pos hskip, List.takeWhile_append_of_pos hskip,
    List.dropWhile_cons_of_neg (by simp [hopening]),
    List.takeWhile_cons_of_neg (by simp [hopening])]
  simp only
  rw [List.dropWhile_append_of_pos hpass, List.takeWhile_append_of_pos hpass,
    List.dropWhile_cons_of_neg (by simp [hclosing]),
    List.takeWhile_cons_of_neg (by simp [hclosing])]
  simp

/-- A line that starts with another character does not open an import block. -/
theorem opensImports_cons {c : Char} (hblank : Text.isBlank c = false) (hc : c ≠ 'i')
    (line : List Char) : opensImports (c :: line) = false := by
  rw [opensImports, beq_eq_false_iff_ne]
  intro heq
  have hhead := Text.head?_trim hblank line
  rw [heq] at hhead
  exact hc (Option.some.inj hhead).symm

theorem opensImports_of_head? {c : Char} {line : List Char} (h : line.head? = some c)
    (hblank : Text.isBlank c = false) (hc : c ≠ 'i') : opensImports line = false := by
  obtain ⟨rest, rfl⟩ := List.head?_eq_some_iff.1 h
  exact opensImports_cons hblank hc rest

/-- A line that starts with another character does not close an import block. -/
theorem closesImports_cons {c : Char} (hblank : Text.isBlank c = false) (hc : c ≠ ')')
    (line : List Char) : closesImports (c :: line) = false := by
  rw [closesImports, beq_eq_false_iff_ne]
  intro heq
  have hhead := Text.head?_trim hblank line
  rw [heq] at hhead
  exact hc (Option.some.inj hhead).symm

/-! ## The lines of the block -/

/-- The line that opens the import block of a printed file. -/
def importOpening : List Char :=
  ['i', 'm', 'p', 'o', 'r', 't', ' ', '(']

/-- The line of an import. -/
def importLine (ink : Ink) (path : String) : List Char :=
  '\t' :: ink.string path.toList

/-- The lines of imports, with an empty line between groups. -/
def importEntries (ink : Ink) (groups : List (List String)) : List (List Char) :=
  [[]].intercalate (groups.map fun paths => paths.map (importLine ink))

/-- The lines of the import block, after an empty line. -/
def importLines (ink : Ink) (groups : List (List String)) : List (List Char) :=
  [] :: importOpening :: (importEntries ink groups ++ [[')']])

/-- The import block is laid out line by line. -/
theorem importsLayout_eq (ink : Ink) {groups : List (List String)} (h : groups ≠ []) :
    importsLayout ink groups = unlines (importLines ink groups) := by
  have hgroups : unlines (importEntries ink groups)
      = ['\n'].intercalate (groups.map fun paths => paths.flatMap (importLayout ink)) := by
    rw [importEntries, unlines_intercalate, List.map_map]
    congr 1
    apply List.map_congr_left
    intro paths _
    rw [Function.comp_apply, unlines, List.flatMap_map]
    rfl
  have happend : unlines (importLines ink groups)
      = '\n' :: importOpening ++ '\n' :: (unlines (importEntries ink groups) ++ [')', '\n']) := by
    simp [importLines, unlines]
  rw [happend, hgroups, importsLayout, if_neg (by simpa using h)]
  simp [importOpening]

theorem importEntries_cons_cons (ink : Ink) (paths other : List String)
    (rest : List (List String)) :
    importEntries ink (paths :: other :: rest)
      = paths.map (importLine ink) ++ [] :: importEntries ink (other :: rest) :=
  rfl

theorem importEntries_singleton (ink : Ink) (paths : List String) :
    importEntries ink [paths] = paths.map (importLine ink) := by
  simp [importEntries]

/-- A line among imports is empty or the line of one of them. -/
theorem mem_importEntries {ink : Ink} {groups : List (List String)} {line : List Char}
    (h : line ∈ importEntries ink groups) :
    line = [] ∨ ∃ path ∈ groups.flatten, line = importLine ink path := by
  have hpaths : ∀ paths : List String, line ∈ paths.map (importLine ink) →
      ∃ path ∈ paths, line = importLine ink path := by
    intro paths hline
    obtain ⟨path, hpath, heq⟩ := List.mem_map.1 hline
    exact ⟨path, hpath, heq.symm⟩
  induction groups with
  | nil => cases h
  | cons paths rest ih =>
      cases rest with
      | nil =>
          rw [importEntries_singleton] at h
          obtain ⟨path, hpath, heq⟩ := hpaths paths h
          exact .inr ⟨path, by simpa using hpath, heq⟩
      | cons other rest =>
          rw [importEntries_cons_cons, List.mem_append, List.mem_cons] at h
          rcases h with h | h | h
          · obtain ⟨path, hpath, heq⟩ := hpaths paths h
            exact .inr ⟨path, List.mem_append_left _ hpath, heq⟩
          · exact .inl h
          · refine (ih h).imp_right ?_
            rintro ⟨path, hpath, heq⟩
            exact ⟨path, List.mem_append_right _ hpath, heq⟩

/-- The lines of imports that are not empty are the imports, group by group. -/
theorem filter_importEntries (ink : Ink) (groups : List (List String)) :
    (importEntries ink groups).filter (!·.isEmpty) = groups.flatten.map (importLine ink) := by
  have hlines : ∀ paths : List String,
      (paths.map (importLine ink)).filter (!·.isEmpty) = paths.map (importLine ink) := by
    intro paths
    rw [List.filter_eq_self]
    intro line hline
    obtain ⟨path, -, rfl⟩ := List.mem_map.1 hline
    rfl
  induction groups with
  | nil => rfl
  | cons paths rest ih =>
      cases rest with
      | nil =>
          rw [importEntries_singleton, hlines]
          simp
      | cons other rest =>
          rw [importEntries_cons_cons, List.filter_append, hlines,
            List.filter_cons_of_neg (by simp), ih, ← List.map_append, ← List.flatten_cons]

/-- The number of lines does not depend on the ink. -/
theorem length_importEntries (ink ink' : Ink) (groups : List (List String)) :
    (importEntries ink groups).length = (importEntries ink' groups).length := by
  induction groups with
  | nil => rfl
  | cons paths rest ih =>
      cases rest with
      | nil => simp [importEntries_singleton]
      | cons other rest =>
          rw [importEntries_cons_cons, importEntries_cons_cons, List.length_append,
            List.length_append, List.length_cons, List.length_cons, ih, List.length_map,
            List.length_map]

theorem trim_importLine (path : String) :
    Text.trim (importLine .source path) = quote path.toList := by
  have hblank : ∀ c ∈ ['\t'], Text.isBlank c = true := List.all_eq_true.1 (by decide)
  have htab : Text.trim (['\t'] ++ quote path.toList) = Text.trim (quote path.toList) :=
    Text.trim_append hblank _
  refine htab.trans (Text.trim_eq_self (fun c hc => ?_) fun c hc => ?_)
  · cases hc
    decide
  · rw [getLast?_quote] at hc
    cases hc
    decide

theorem closesImports_importLine (path : String) :
    closesImports (importLine .source path) = false := by
  rw [closesImports, trim_importLine, beq_eq_false_iff_ne]
  intro heq
  cases heq

/-- No line of imports closes the block. -/
theorem closesImports_of_mem_importEntries {groups : List (List String)} {line : List Char}
    (h : line ∈ importEntries .source groups) : closesImports line = false := by
  rcases mem_importEntries h with rfl | ⟨path, -, rfl⟩
  · decide
  · exact closesImports_importLine path

theorem getLast?_importLine (path : String) : (importLine .source path).getLast? = some '"' := by
  simp [importLine, Ink.source, List.getLast?_cons, getLast?_quote]

theorem isLine_importLine_source (path : String) : IsLine (importLine .source path) := by
  constructor
  · intro hmem
    rcases List.mem_cons.1 hmem with hmem | hmem
    · cases hmem
    · exact newline_notMem_quote path.toList hmem
  · rw [getLast?_importLine]
    decide

theorem isLine_replicate {c : Char} (hline : c ≠ '\n') (hreturn : c ≠ '\r') (n : Nat) :
    IsLine (List.replicate n c) := by
  constructor
  · intro hmem
    exact hline (List.eq_of_mem_replicate hmem).symm
  · intro hlast
    exact hreturn (List.eq_of_mem_replicate (List.mem_of_getLast? hlast)).symm

theorem isLine_importLine_blank (path : String) : IsLine (importLine .blank path) := by
  have hblank : IsLine (Ink.blank.string path.toList) := isLine_replicate (by decide) (by decide) _
  constructor
  · intro hmem
    rcases List.mem_cons.1 hmem with hmem | hmem
    · cases hmem
    · exact hblank.1 hmem
  · rw [importLine, List.getLast?_cons]
    intro hlast
    cases hback : (Ink.blank.string path.toList).getLast? with
    | none => simp [hback] at hlast
    | some c =>
        rw [hback] at hlast
        exact hblank.2 (hback.trans hlast)

/-- The lines of the import block are cut out as they are. -/
theorem lines_importsLayout {ink : Ink} (hink : ∀ path, IsLine (importLine ink path))
    {groups : List (List String)} (h : groups ≠ []) (s : List Char) :
    Text.lines (importsLayout ink groups ++ s) = importLines ink groups ++ Text.lines s := by
  rw [importsLayout_eq ink h]
  refine lines_unlines_append (fun line hline => ?_) s
  simp only [importLines, List.mem_cons, List.mem_append, List.not_mem_nil, or_false] at hline
  rcases hline with rfl | rfl | hline | rfl
  · exact ⟨by decide, by decide⟩
  · exact ⟨by decide, by decide⟩
  · rcases mem_importEntries hline with rfl | ⟨path, -, rfl⟩
    · exact ⟨by decide, by decide⟩
    · exact hink path
  · exact ⟨by decide, by decide⟩

/-! ## The lines of a file -/

/-- Printed comments are a line each that starts with a slash. -/
theorem exists_printComments {comments : List String} (h : ∀ line ∈ comments, '\n' ∉ line.toList) :
    ∃ front, (∀ s, Text.lines (comments.flatMap printComment ++ s) = front ++ Text.lines s) ∧
      front.length = comments.length ∧ ∀ line ∈ front, line.head? = some '/' := by
  induction comments with
  | nil => exact ⟨[], fun _ => rfl, rfl, by simp⟩
  | cons comment rest ih =>
      obtain ⟨front, hfront, hlength, hslash⟩ :=
        ih fun line hline => h line (List.mem_cons_of_mem _ hline)
      have hbody : ∃ body, '\n' ∉ body ∧ printComment comment = '/' :: (body ++ ['\n']) := by
        rw [printComment]
        split
        · exact ⟨['/'], by decide, by decide⟩
        · refine ⟨'/' :: ' ' :: comment.toList, ?_, rfl⟩
          simpa using h comment List.mem_cons_self
      obtain ⟨body, hbody, hcomment⟩ := hbody
      obtain ⟨first, hfirst, -⟩ := Text.exists_lines_line hbody
      refine ⟨('/' :: first) :: front, fun s => ?_, by simp [hlength],
        List.forall_mem_cons.2 ⟨rfl, hslash⟩⟩
      have htext : (comment :: rest).flatMap printComment ++ s
          = '/' :: (body ++ '\n' :: (rest.flatMap printComment ++ s)) := by
        simp [hcomment]
      rw [htext, Text.lines_cons (by decide) fun h => absurd h (by decide), hfirst, hfront]
      rfl

/-- Printed comments in front of a text, with a test that lines with a slash pass. -/
theorem lines_printComments {header : List String} (h : ∀ line ∈ header, '\n' ∉ line.toList)
    {test : List Char → Prop} (htest : ∀ line, line.head? = some '/' → test line) (s : List Char) :
    ∃ front, Text.lines (header.flatMap printComment ++ s) = front ++ Text.lines s ∧
      front.length = header.length ∧ ∀ line ∈ front, test line := by
  obtain ⟨front, hfront, hlength, hslash⟩ := exists_printComments h
  exact ⟨front, hfront s, hlength, fun line hline => htest line (hslash line hline)⟩

/-- Blanked comments are a line each. -/
theorem lines_blankComments (header : List String) (s : List Char) :
    ∃ front, Text.lines (header.flatMap Ink.blank.comment ++ s) = front ++ Text.lines s ∧
      front.length = header.length := by
  refine ⟨header.map fun line => List.replicate ((printComment line).length - 1) ' ', ?_, by simp⟩
  rw [← lines_unlines_append _ s]
  · rw [unlines, List.flatMap_map]
    rfl
  · intro line hline
    obtain ⟨comment, -, rfl⟩ := List.mem_map.1 hline
    exact isLine_replicate (by decide) (by decide) _

namespace File

/-- The number of lines above the import block of a file. -/
def frontHeight (f : File) : Nat :=
  if f.header.isEmpty then 1 else f.header.length + 2

/-- The line of the package clause of a file. -/
def packageLine (f : File) : List Char :=
  ['p', 'a', 'c', 'k', 'a', 'g', 'e', ' '] ++ f.package.toList

theorem isLine_packageLine {f : File} (h : isIdentifier f.package.toList = true) :
    IsLine f.packageLine := by
  have hword : ∀ c ∈ ['p', 'a', 'c', 'k', 'a', 'g', 'e', ' '], isIdentChar c = true ∨ c = ' ' := by
    simp [isIdentChar]
  have hchars : ∀ c ∈ f.packageLine, isIdentChar c = true ∨ c = ' ' := by
    intro c hc
    rcases List.mem_append.1 hc with hc | hc
    · exact hword c hc
    · exact .inl (isIdentChar_of_mem h hc)
  constructor
  · intro hmem
    exact absurd (hchars _ hmem) (by decide)
  · intro hlast
    exact absurd (hchars _ (List.mem_of_getLast? hlast)) (by decide)

/-- The lines of a file above its import block, for comments that are a line each. -/
theorem lines_frontLayout (ink : Ink) {f : File} (h : isIdentifier f.package.toList = true)
    (test : List Char → Prop) (hempty : test []) (hpackage : test f.packageLine)
    (hcomments : ∀ s, ∃ front, Text.lines (f.header.flatMap ink.comment ++ s)
      = front ++ Text.lines s ∧ front.length = f.header.length ∧ ∀ line ∈ front, test line)
    (s : List Char) :
    ∃ front, Text.lines (f.frontLayout ink ++ s) = front ++ Text.lines s ∧
      front.length = f.frontHeight ∧ ∀ line ∈ front, test line := by
  have hline := isLine_packageLine h
  have hclause : Text.lines (f.packageLine ++ '\n' :: s) = f.packageLine :: Text.lines s :=
    Text.lines_line hline.1 hline.2 s
  have htext : f.frontLayout ink ++ s
      = headerLayout ink f.header ++ (f.packageLine ++ '\n' :: s) := by
    simp [frontLayout, packageLine]
  rw [htext, headerLayout, frontHeight]
  split
  · exact ⟨[f.packageLine], hclause, rfl, by simpa using hpackage⟩
  · obtain ⟨front, hfront, hlength, htest⟩ := hcomments ('\n' :: (f.packageLine ++ '\n' :: s))
    refine ⟨front ++ [[], f.packageLine], ?_, by simp [hlength], ?_⟩
    · rw [List.append_assoc, List.singleton_append, hfront, Text.lines_newline, hclause]
      simp
    · intro line hline
      simp only [List.mem_append, List.mem_cons, List.not_mem_nil, or_false] at hline
      rcases hline with hline | rfl | rfl
      · exact htest line hline
      · exact hempty
      · exact hpackage

/-- The import block of a printed file, between the lines above it and those of the functions. -/
theorem find?_lines_layout {f : File} (h : isIdentifier f.package.toList = true)
    (hcomments : f.CommentsOnLines) {root : String} (hne : importGroups root f.packages ≠ []) :
    ∃ before, before.length = f.frontHeight + 1 ∧
      Text.lines (f.layout .source root) = before ++ importOpening
        :: (importEntries .source (importGroups root f.packages)
          ++ [')'] :: Text.lines (funcsLayout .source f.funcs)) ∧
      ImportBlock.find? (Text.lines (f.layout .source root)) = some
        { before
          opening := importOpening
          entries := importEntries .source (importGroups root f.packages)
          closing := [')']
          after := Text.lines (funcsLayout .source f.funcs) } := by
  have hpackage : opensImports f.packageLine = false :=
    opensImports_cons (by decide) (by decide) _
  obtain ⟨front, hfront, hlength, hopens⟩ := lines_frontLayout .source h
    (opensImports · = false) (by decide) hpackage
    (lines_printComments hcomments.1 fun _ hline =>
      opensImports_of_head? hline (by decide) (by decide))
    (importsLayout .source (importGroups root f.packages) ++ funcsLayout .source f.funcs)
  have hlines : Text.lines (f.layout .source root) = front ++ [[]] ++ importOpening
      :: (importEntries .source (importGroups root f.packages)
        ++ [')'] :: Text.lines (funcsLayout .source f.funcs)) := by
    rw [layout, List.append_assoc, hfront, lines_importsLayout isLine_importLine_source hne]
    simp [importLines]
  refine ⟨front ++ [[]], by simp [hlength], hlines, ?_⟩
  rw [hlines]
  refine ImportBlock.find?_eq_some (fun line hline => ?_) (by decide)
    (fun line hline => closesImports_of_mem_importEntries hline) (by decide)
  rcases List.mem_append.1 hline with hline | hline
  · exact hopens line hline
  · rw [List.mem_singleton.1 hline]
    decide

/-- The code of the functions of a file stands after as many lines as their text. -/
theorem drop_lines_layout {f : File} (h : isIdentifier f.package.toList = true) {root : String}
    (hne : importGroups root f.packages ≠ []) :
    (Text.lines (f.layout .blank root)).drop
        (f.frontHeight + 1 + (importEntries .source (importGroups root f.packages)).length + 2)
      = Text.lines (funcsLayout .blank f.funcs) := by
  have hcomments : ∀ s, ∃ front, Text.lines (f.header.flatMap Ink.blank.comment ++ s)
      = front ++ Text.lines s ∧ front.length = f.header.length ∧ ∀ line ∈ front, True := by
    intro s
    obtain ⟨front, hfront, hlength⟩ := lines_blankComments f.header s
    exact ⟨front, hfront, hlength, fun _ _ => trivial⟩
  obtain ⟨front, hfront, hlength, -⟩ := lines_frontLayout .blank h (fun _ => True) trivial trivial
    hcomments
    (importsLayout .blank (importGroups root f.packages) ++ funcsLayout .blank f.funcs)
  rw [layout, List.append_assoc, hfront, lines_importsLayout isLine_importLine_blank hne,
    ← List.append_assoc]
  apply List.drop_left'
  rw [List.length_append, hlength, importLines]
  simp only [List.length_cons, List.length_append, List.length_nil,
    length_importEntries .blank .source]
  omega

end File

/-! ## Imports and references -/

/-- Lines list the imports of packages: first those of the standard library, then the others,
each path once and in ascending order. -/
def ListsImports (root : String) (packages : List Package) (lines : List (List Char)) : Prop :=
  ∃ standard api : List String,
    lines.filter (!·.isEmpty) = (standard ++ api).map (fun path => '\t' :: quote path.toList) ∧
      standard.Perm ((packages.filter Package.isStandard).map (Package.importPath root)) ∧
      api.Perm ((packages.filter (!·.isStandard)).map (Package.importPath root)) ∧
      standard.Pairwise (· < ·) ∧ api.Pairwise (· < ·) ∧ (standard ++ api).Nodup

theorem flatten_importGroups (root : String) (packages : List Package) :
    (importGroups root packages).flatten
      = importPaths root (packages.filter Package.isStandard)
        ++ importPaths root (packages.filter (!·.isStandard)) := by
  have hflatten : ∀ a b : List String, ([a, b].filter (!·.isEmpty)).flatten = a ++ b := by
    intro a b
    cases a <;> cases b <;> simp
  exact hflatten _ _

/-- The import groups hold the paths of the packages. -/
theorem flatten_importGroups_perm (root : String) (packages : List Package) :
    (importGroups root packages).flatten.Perm (packages.map (Package.importPath root)) := by
  have hperm := (importPaths_perm root (packages.filter Package.isStandard)).append
    (importPaths_perm root (packages.filter (!·.isStandard)))
  rw [← List.map_append] at hperm
  rw [flatten_importGroups]
  exact hperm.trans ((List.filter_append_perm Package.isStandard packages).map _)

theorem importGroups_ne_nil (root : String) {packages : List Package} (h : packages ≠ []) :
    importGroups root packages ≠ [] := by
  intro hnil
  have hperm := flatten_importGroups_perm root packages
  rw [hnil] at hperm
  exact h (List.map_eq_nil_iff.1 hperm.nil_eq.symm)

/-- The import block lists the imports of different packages. -/
theorem listsImports_importEntries (root : String) {packages : List Package}
    (h : packages.Nodup) :
    ListsImports root packages (importEntries .source (importGroups root packages)) := by
  refine ⟨_, _, ?_, importPaths_perm root _, importPaths_perm root _,
    importPaths_pairwise root (h.filter _), importPaths_pairwise root (h.filter _), ?_⟩
  · rw [filter_importEntries, flatten_importGroups]
    rfl
  · rw [← flatten_importGroups]
    exact (flatten_importGroups_perm root packages).nodup_iff.2 (nodup_map_importPath root h)

/-- Lines without a dot mention nothing. -/
theorem mentions_unlines {lines : List (List Char)} (h : ∀ line ∈ lines, '.' ∉ line) :
    Mentions (unlines lines) [] [] ∧ Cursor.fresh.after (unlines lines) = .fresh := by
  induction lines with
  | nil => exact ⟨.nil, rfl⟩
  | cons line rest ih =>
      obtain ⟨hrest, hafter⟩ := ih fun l hl => h l (List.mem_cons_of_mem _ hl)
      have htext : unlines (line :: rest) = line ++ '\n' :: unlines rest := by
        simp [unlines]
      rw [htext, Cursor.after_append_break (by decide)]
      exact ⟨.skip (h line List.mem_cons_self) (hrest.cons (by decide)) rfl, hafter⟩

/-- A line refers to a package exactly if the cursor finds its name. -/
theorem refersTo_name_iff (p : Package) (line : List Char) :
    refersTo p.name.toList line = true ↔ p.name.toList ∈ Cursor.fresh.names line :=
  Cursor.refersTo_iff_mem_names p.name_ne_nil p.isIdentChar_of_mem_name line

/-- The code of functions refers to each of their packages on some line. -/
theorem exists_refersTo {funcs : List Func} (h : funcs.all Func.wellFormed = true) {p : Package}
    (hp : p ∈ funcs.flatMap Func.packages) :
    ∃ line ∈ Text.lines (funcsLayout .blank funcs), refersTo p.name.toList line = true := by
  have hmem := (mentions_funcsLayout h).complete p hp
  rw [Cursor.names_eq_flatMap_lines] at hmem
  obtain ⟨line, hline, hname⟩ := List.mem_flatMap.1 hmem
  exact ⟨line, hline, (refersTo_name_iff p line).2 hname⟩

namespace File

/-- The code of a file mentions the packages of its functions. -/
theorem mentions_layout {f : File} (h : f.wellFormed = true) (root : String) :
    Mentions (f.layout .blank root) (f.funcs.flatMap Func.packages) f.bareNames := by
  rw [wellFormed, Bool.and_eq_true] at h
  have hheader : Mentions (headerLayout .blank f.header) [] [] ∧
      Cursor.fresh.after (headerLayout .blank f.header) = .fresh := by
    rw [headerLayout]
    split
    · exact ⟨.nil, rfl⟩
    · exact ⟨(mentions_comments f.header).1.concat (by decide),
        Cursor.after_append_break (by decide) _ _ []⟩
  have hclause : Mentions (f.packageLine ++ ['\n']) [] [] := by
    have hdot : '.' ∉ f.packageLine := by
      rw [packageLine, List.mem_append]
      exact not_or.2 ⟨by decide, dot_notMem_of_isIdentifier h.1⟩
    exact .skip hdot (.quiet (by decide) (by decide)) rfl
  have himports : Mentions (importsLayout .blank (importGroups root f.packages)) [] [] ∧
      Cursor.fresh.after (importsLayout .blank (importGroups root f.packages)) = .fresh := by
    by_cases hne : importGroups root f.packages = []
    · rw [hne]
      exact ⟨.nil, rfl⟩
    · rw [importsLayout_eq .blank hne]
      apply mentions_unlines
      intro line hline
      simp only [importLines, List.mem_cons, List.mem_append, List.not_mem_nil, or_false] at hline
      rcases hline with rfl | rfl | hline | rfl
      · decide
      · decide
      · rcases mem_importEntries hline with rfl | ⟨path, -, rfl⟩
        · decide
        · simp [importLine, Ink.blank]
      · decide
  have htext : f.layout .blank root = headerLayout .blank f.header ++ ((f.packageLine ++ ['\n'])
      ++ (importsLayout .blank (importGroups root f.packages) ++ funcsLayout .blank f.funcs)) := by
    simp [layout, frontLayout, packageLine]
  rw [htext]
  refine hheader.1.appendAfter hheader.2 (hclause.appendAfter ?_ (himports.1.appendAfter himports.2
    (mentions_funcsLayout h.2)))
  exact Cursor.after_append_break (by decide) _ _ []

/-- The imports of a printed file are the packages that its code refers to.  The import block
lists each package of the file once; the code after it refers to each of them; and a package that
the code refers to is one of them, unless a name that stands on its own is that of the package. -/
theorem print_imports {f : File} (hcomments : f.CommentsOnLines) {root : String}
    {text : List Char} (h : f.print root = .ok text) :
    ∃ code, blank text = .ok code ∧
      (f.packages ≠ [] → ∃ block, ImportBlock.find? (Text.lines text) = some block ∧
        ListsImports root f.packages block.entries ∧
        ∀ p ∈ f.packages, ∃ line ∈ (Text.lines code).drop
          (block.before.length + block.entries.length + 2), refersTo p.name.toList line = true) ∧
      (f.packages = [] → ∃ funcs, printFuncs f.funcs = .ok funcs ∧
        text = printHeader f.header ++ f.packageLine ++ ['\n'] ++ funcs) ∧
      ∀ p : Package, p.name ∉ f.bareNames → ∀ line ∈ Text.lines code,
        refersTo p.name.toList line = true → p ∈ f.packages := by
  obtain ⟨hwell, rfl⟩ := (print_eq_ok_iff root f text).1 h
  have hparts := hwell
  rw [wellFormed, Bool.and_eq_true] at hparts
  refine ⟨_, blank_layout hwell hcomments root, ?_, ?_, ?_⟩
  · intro hne
    have hgroups := importGroups_ne_nil root hne
    obtain ⟨before, hlength, -, hfind⟩ := find?_lines_layout hparts.1 hcomments hgroups
    refine ⟨_, hfind, listsImports_importEntries root f.nodup_packages, fun p hp => ?_⟩
    rw [hlength, drop_lines_layout hparts.1 hgroups]
    exact exists_refersTo hparts.2 (mem_packages.1 hp)
  · intro hnil
    refine ⟨funcsLayout .source f.funcs, (printFuncs_eq_ok_iff _ _).2 ⟨hparts.2, rfl⟩, ?_⟩
    have hgroups : importGroups root f.packages = [] := by
      simp [hnil, importGroups, importPaths]
    have hheader : headerLayout .source f.header = printHeader f.header := rfl
    rw [layout, hgroups, frontLayout, hheader, packageLine]
    simp [importsLayout]
  · intro p hbare line hline hrefers
    have hmem := List.mem_flatMap.2 ⟨line, hline, (refersTo_name_iff p line).1 hrefers⟩
    rw [← Cursor.names_eq_flatMap_lines] at hmem
    rcases (mentions_layout hwell root).sound p hmem with hused | hname
    · exact mem_packages.2 hused
    · exact absurd hname hbare

/-- A file that logs the text of a reference. -/
def logFile : File where
  header := ["Hello."]
  package := "main"
  funcs :=
    [{ name := "main"
       results := []
       body := [.expr (.packageCall .log "Println" [.string "os.Exit"])] }]

/-- Only the package of the call is imported, and not the one in the text. -/
theorem print_imports_logFile :
    ∃ text block, logFile.print "example.com/api" = .ok text ∧
      ImportBlock.find? (Text.lines text) = some block ∧
      ListsImports "example.com/api" [.log] block.entries := by
  have hprint : logFile.print "example.com/api" = .ok (logFile.layout .source "example.com/api") :=
    (print_eq_ok_iff _ _ _).2 ⟨by decide, rfl⟩
  have hcomments : logFile.CommentsOnLines := ⟨by decide, by decide⟩
  obtain ⟨code, -, hblock, -⟩ := print_imports hcomments hprint
  obtain ⟨block, hfind, hlists, -⟩ := hblock (by decide)
  exact ⟨_, block, hprint, hfind, hlists⟩

end File
end Program
end Stackwright
