import Stackwright.Dotenv
import Stackwright.Proofs.Dict
import Stackwright.Proofs.Text.Blank
import Stackwright.Proofs.Text.Lines
import Stackwright.Proofs.Text.Split

/-!
# How dotenv files are written

A setting is written as a key, an equals sign and a value in quotes.  White space may
stand around the equals sign and the word `export` in front of the key; between the
settings there may be blank lines and comments.  In double quotes a backslash hides the
quote and the backslash itself and stands for line ends, so every value can be written.

A line is read from both ends: what stands before its first equals sign is the key, and
a value ends at the last quote of its line.  So a setting is read back whatever its value
is, but a comment behind a value must not hold the quote.

Main results:

- Theorem `Glyph.unescape_text`: the characters that are written in double quotes are
  read back.
- Theorem `Target.Clear.readLine_eq`: what a line sets that starts with a key.
- Theorem `parse_written`: a written file sets its variables, and of two settings of a
  key the later one wins.
- Theorem `parse_commented_iff`: a comment behind a quoted value is no part of it
  exactly if the quote does not occur in the comment.
-/

namespace Stackwright
namespace Dotenv

/-! ## Written values -/

/-- A character of a value in double quotes, as it is written. -/
inductive Glyph where
  | plain (c : Char) (ne_backslash : c ≠ '\\') (ne_quote : c ≠ '"') (ne_newline : c ≠ '\n')
  | escaped (c : Char) (marked : c = '\\' ∨ c = '"')
  | newline
  | tab

namespace Glyph

/-- The characters that are written. -/
def text : Glyph → List Char
  | .plain c _ _ _ => [c]
  | .escaped c _ => ['\\', c]
  | .newline => ['\\', 'n']
  | .tab => ['\\', 't']

/-- The character that is meant. -/
def value : Glyph → Char
  | .plain c _ _ _ => c
  | .escaped c _ => c
  | .newline => '\n'
  | .tab => '\t'

/-- A way to write a character, which leaves a tab as it is. -/
def ofChar (c : Char) : Glyph :=
  if hmarked : c = '\\' ∨ c = '"' then .escaped c hmarked
  else if hnewline : c = '\n' then .newline
  else .plain c (fun h => hmarked (.inl h)) (fun h => hmarked (.inr h)) hnewline

/-- Every character can be written. -/
@[simp]
theorem value_ofChar (c : Char) : (ofChar c).value = c := by
  unfold ofChar
  split
  · rfl
  · split
    · rename_i hnewline
      exact hnewline.symm
    · rfl

theorem newline_notMem_text (g : Glyph) : '\n' ∉ g.text := by
  cases g with
  | plain c ne_backslash ne_quote ne_newline => simpa [text] using Ne.symm ne_newline
  | escaped c marked => rcases marked with rfl | rfl <;> decide
  | newline => decide
  | tab => decide

/-- A written character is read back, whatever follows. -/
theorem unescape_append (g : Glyph) (rest : List Char) :
    unescape (g.text ++ rest) = g.value :: unescape rest := by
  cases g with
  | plain c ne_backslash ne_quote ne_newline =>
      rw [text, List.singleton_append, unescape.eq_4 c rest (by simp [ne_backslash])
        (by simp [ne_backslash])]
      rfl
  | escaped c marked => rcases marked with rfl | rfl <;> rfl
  | newline => rfl
  | tab => rfl

/-- The characters that are written in double quotes are read back, whatever follows. -/
theorem unescape_text (glyphs : List Glyph) (rest : List Char) :
    unescape (glyphs.flatMap text ++ rest) = glyphs.map value ++ unescape rest := by
  induction glyphs with
  | nil => rfl
  | cons g glyphs ih =>
      rw [List.flatMap_cons, List.append_assoc, unescape_append, ih, List.map_cons,
        List.cons_append]

end Glyph

/-- A value in quotes, as it is written. -/
inductive Quoted where
  | single (run : List Char) (quote_notMem : '\'' ∉ run) (newline_notMem : '\n' ∉ run)
  | double (glyphs : List Glyph)

namespace Quoted

/-- The quote around a value. -/
def mark : Quoted → Char
  | .single _ _ _ => '\''
  | .double _ => '"'

/-- The characters between the quotes. -/
def body : Quoted → List Char
  | .single run _ _ => run
  | .double glyphs => glyphs.flatMap Glyph.text

/-- The value that is meant. -/
def value : Quoted → List Char
  | .single run _ _ => run
  | .double glyphs => glyphs.map Glyph.value

def text (q : Quoted) : List Char :=
  q.mark :: (q.body ++ [q.mark])

/-- How the characters between two quotes are read. -/
def decode : Quoted → List Char → List Char
  | .single _ _ _ => id
  | .double _ => unescape

theorem mark_eq (q : Quoted) : q.mark = '\'' ∨ q.mark = '"' := by
  cases q with
  | single run quote_notMem newline_notMem => exact .inl rfl
  | double glyphs => exact .inr rfl

theorem isBlank_mark (q : Quoted) : Text.isBlank q.mark = false := by
  rcases q.mark_eq with h | h <;> rw [h] <;> decide

theorem newline_notMem_text (q : Quoted) : '\n' ∉ q.text := by
  have hmark : '\n' ≠ q.mark := by
    rcases q.mark_eq with h | h <;> rw [h] <;> decide
  have hbody : '\n' ∉ q.body := by
    cases q with
    | single run quote_notMem newline_notMem => exact newline_notMem
    | double glyphs =>
        rw [body, List.mem_flatMap]
        rintro ⟨g, -, hg⟩
        exact g.newline_notMem_text hg
  simp [text, hmark, hbody]

theorem trim_text_append (q : Quoted) (back : List Char) :
    Text.trim (q.text ++ back) = q.text ++ Text.trimEnd back := by
  have hstart : Text.trimStart (q.mark :: q.body) = q.mark :: q.body := by
    refine Text.trimStart_eq_self fun c hc => ?_
    cases hc
    exact q.isBlank_mark
  have htext : ∀ s, q.text ++ s = q.mark :: q.body ++ q.mark :: s := by simp [text]
  rw [htext, Text.trim_append_cons q.isBlank_mark, hstart, htext]

theorem trim_text (q : Quoted) : Text.trim q.text = q.text := by
  have hback := q.trim_text_append []
  have hnil : Text.trimEnd [] = [] := rfl
  rwa [hnil, List.append_nil] at hback

/-- A value is read up to the last quote. -/
theorem readValue_eq (q : Quoted) (front : List Char) {back : List Char} (h : q.mark ∉ back) :
    readValue (q.mark :: (front ++ q.mark :: back)) = some (q.decode front) := by
  cases q with
  | single run quote_notMem newline_notMem =>
      simp only [mark] at h
      simp [mark, decode, readValue, Text.splitLast_append h]
  | double glyphs =>
      simp only [mark] at h
      simp [mark, decode, readValue, Text.splitLast_append h]

/-- What is written between the quotes is read as the value, whatever follows. -/
theorem decode_body_append (q : Quoted) (rest : List Char) :
    q.decode (q.body ++ rest) = q.value ++ q.decode rest := by
  cases q with
  | single run quote_notMem newline_notMem => rfl
  | double glyphs => exact Glyph.unescape_text glyphs rest

theorem decode_nil (q : Quoted) : q.decode [] = [] := by
  cases q with
  | single run quote_notMem newline_notMem => rfl
  | double glyphs => rfl

/-- Something between the quotes stands for something. -/
theorem decode_cons_ne_nil (q : Quoted) (c : Char) (rest : List Char) :
    q.decode (c :: rest) ≠ [] := by
  cases q with
  | single run quote_notMem newline_notMem => exact List.cons_ne_nil c rest
  | double glyphs =>
      change unescape (c :: rest) ≠ []
      unfold unescape
      split <;> simp_all

/-- Behind the text of a value, only another quote of its kind changes what is read. -/
theorem readValue_append_iff (q : Quoted) (back : List Char) :
    readValue (q.text ++ back) = some q.value ↔ q.mark ∉ back := by
  have hvalue : q.decode q.body = q.value := by
    have hbody := q.decode_body_append []
    rwa [List.append_nil, q.decode_nil, List.append_nil] at hbody
  have htext : q.text ++ back = q.mark :: (q.body ++ q.mark :: back) := by simp [text]
  rw [htext]
  constructor
  · intro hread hmem
    -- The last quote is one of `back`, so the value goes on behind its own quotes.
    obtain ⟨front, last, rfl, hlast⟩ := Text.exists_last hmem
    have hmore : readValue (q.mark :: (q.body ++ q.mark :: (front ++ q.mark :: last)))
        = some (q.value ++ q.decode (q.mark :: front)) := by
      have hsplit := q.readValue_eq (q.body ++ q.mark :: front) hlast
      rwa [q.decode_body_append, List.append_assoc, List.cons_append] at hsplit
    rw [hmore, Option.some.injEq, List.append_right_eq_self] at hread
    exact q.decode_cons_ne_nil _ _ hread
  · intro h
    rw [q.readValue_eq q.body h, hvalue]

end Quoted

/-! ## Written lines -/

/-- White space inside a line. -/
structure Gap where
  chars : List Char
  isBlank : ∀ c ∈ chars, Text.isBlank c = true
  newline_notMem : '\n' ∉ chars

/-- A key that a line can set. -/
structure IsKey (key : List Char) : Prop where
  trim_eq : Text.trim key = key
  equals_notMem : '=' ∉ key
  newline_notMem : '\n' ∉ key
  head?_ne : key.head? ≠ some '#'
  not_export : ¬ "export ".toList <+: key

/-- What is written before the equals sign of a setting. -/
structure Target where
  exported : Bool
  key : List Char
  isKey : IsKey key
  gap : Gap

namespace Target

/-- The key with the gap behind it. -/
def name (t : Target) : List Char :=
  t.key ++ t.gap.chars

def text (t : Target) : List Char :=
  (if t.exported then "export ".toList else []) ++ t.name

/-- A key that is the word `export` cannot be told from the word in front of a key if a space
follows it. -/
def Clear (t : Target) : Prop :=
  t.exported = false → t.key = "export".toList → t.gap.chars.head? ≠ some ' '

theorem equals_notMem_name (t : Target) : '=' ∉ t.name := by
  rw [name, List.mem_append]
  rintro (hkey | hgap)
  · exact t.isKey.equals_notMem hkey
  · exact absurd (t.gap.isBlank _ hgap) (by decide)

theorem newline_notMem_text (t : Target) : '\n' ∉ t.text := by
  have hname : '\n' ∉ t.name := by
    rw [name, List.mem_append]
    exact not_or.2 ⟨t.isKey.newline_notMem, t.gap.newline_notMem⟩
  rw [text, List.mem_append]
  refine not_or.2 ⟨?_, hname⟩
  split <;> decide

/-- The gap behind a key is trimmed. -/
theorem trim_name (t : Target) : Text.trim t.name = t.key := by
  rw [name, Text.trim_append_blanks t.gap.isBlank, t.isKey.trim_eq]

/-- A line starts with the word `export` only if it is written there. -/
theorem Clear.not_isPrefix {t : Target} (h : t.Clear) (hexported : t.exported = false)
    (rest : List Char) : ¬ "export ".toList <+: t.name ++ '=' :: rest := by
  rintro ⟨tail, htail⟩
  have hword : "export ".toList = "export".toList ++ [' '] := rfl
  have hspace : ¬ (t.key = "export".toList ∧ ∃ tail, t.gap.chars ++ '=' :: rest = ' ' :: tail) := by
    rintro ⟨hkey, tail, hgap⟩
    refine h hexported hkey ?_
    cases hchars : t.gap.chars with
    | nil => simp [hchars] at hgap
    | cons c chars => simpa [hchars] using (List.cons.inj (hchars ▸ hgap)).1
  rw [hword, name, List.append_assoc, List.append_assoc] at htail
  rcases List.append_eq_append_iff.1 htail with ⟨more, hkey, hmore⟩ | ⟨more, hmore, hgap⟩
  · -- The word ends inside the key, or with it.
    cases more with
    | nil => exact hspace ⟨by simpa using hkey, tail, hmore.symm⟩
    | cons c more =>
        obtain ⟨rfl, -⟩ := List.cons.inj hmore
        refine t.isKey.not_export ⟨more, ?_⟩
        rw [hkey, hword, List.append_assoc]
        rfl
  · -- The word goes on behind the key, where blanks and the equals sign stand.
    cases more with
    | nil => exact hspace ⟨by simpa using hmore.symm, tail, hgap⟩
    | cons c more =>
        have hc : c ∈ "export".toList := by
          rw [hmore]
          exact List.mem_append_right _ List.mem_cons_self
        have hplain : "export".toList.all (fun d => !Text.isBlank d && d != '=') = true := by decide
        have hc' := List.all_eq_true.1 hplain c hc
        cases hchars : t.gap.chars with
        | nil =>
            obtain ⟨rfl, -⟩ := List.cons.inj (hchars ▸ hgap)
            exact absurd hc' (by decide)
        | cons d chars =>
            obtain ⟨rfl, -⟩ := List.cons.inj (hchars ▸ hgap)
            have hd := t.gap.isBlank d (hchars ▸ List.mem_cons_self)
            simp [hd] at hc'

/-- How a line starts: with the key, less the gap behind an empty one, and with `export` in front
of it if that is written. -/
theorem Clear.front {t : Target} (h : t.Clear) (rest : List Char) :
    (Text.trimStart t.text ++ '=' :: rest).head? ≠ some '#' ∧
      ∃ name, (Text.stripLead "export ".toList (Text.trimStart t.text ++ '=' :: rest)).getD
          (Text.trimStart t.text ++ '=' :: rest) = name ++ '=' :: rest ∧
        Text.trim name = t.key ∧ '=' ∉ name := by
  cases hexported : t.exported with
  | true =>
      have hstart : Text.trimStart t.text = "export ".toList ++ t.name := by
        rw [text, hexported, if_pos rfl]
        exact Text.trimStart_eq_self (by simp [Text.isBlank])
      have hstrip : Text.stripLead "export ".toList ("export ".toList ++ (t.name ++ '=' :: rest))
          = some (t.name ++ '=' :: rest) := by
        rw [Text.stripLead, if_pos (by simp), List.drop_left]
      rw [hstart, List.append_assoc]
      exact ⟨by simp, t.name, by rw [hstrip]; rfl, t.trim_name, t.equals_notMem_name⟩
  | false =>
      have htext : t.text = t.name := by
        rw [text, hexported]
        rfl
      have hnone : ∀ {line}, ¬ "export ".toList <+: line →
          (Text.stripLead "export ".toList line).getD line = line := by
        intro line hline
        rw [Text.stripLead, if_neg (by rwa [List.isPrefixOf_iff_prefix])]
        rfl
      rw [htext]
      by_cases hkey : t.key = []
      · have hstart : Text.trimStart t.name = [] := by
          rw [name, hkey, List.nil_append]
          exact List.dropWhile_eq_nil_iff.2 t.gap.isBlank
        rw [hstart, List.nil_append]
        exact ⟨by simp, [], hnone (by simp), hkey.symm, List.not_mem_nil⟩
      · have hhead : ∀ s, (t.name ++ s).head? = t.key.head? := by
          intro s
          obtain ⟨c, key, hcons⟩ := List.exists_cons_of_ne_nil hkey
          rw [name, hcons]
          rfl
        have hstart : Text.trimStart t.name = t.name := by
          refine Text.trimStart_eq_self fun c hc => ?_
          rw [← List.append_nil t.name, hhead] at hc
          exact Text.isBlank_head_of_trim_eq t.isKey.trim_eq c hc
        rw [hstart, hhead]
        exact ⟨t.isKey.head?_ne, t.name, hnone (h.not_isPrefix hexported rest), t.trim_name,
          t.equals_notMem_name⟩

/-- What a line sets that starts with a key and an equals sign. -/
theorem Clear.readLine_eq {t : Target} (h : t.Clear) (number : Nat) {raw rest : List Char}
    (hraw : Text.trim raw = Text.trim (t.text ++ '=' :: rest)) :
    readLine number raw = match readValue (Text.trim rest) with
      | none => .error (.openQuote number)
      | some value => .ok (some (String.ofList t.key, String.ofList value)) := by
  obtain ⟨hhead, name, hname, hkey, hequals⟩ := h.front (Text.trimEnd rest)
  have hskip : ((Text.trimStart t.text ++ '=' :: Text.trimEnd rest).isEmpty
      || (Text.trimStart t.text ++ '=' :: Text.trimEnd rest).head? == some '#') = false := by
    rw [Bool.or_eq_false_iff, beq_eq_false_iff_ne]
    exact ⟨by simp, hhead⟩
  rw [readLine, hraw, Text.trim_append_cons (by decide)]
  simp only [hskip, hname, Text.splitFirst_append hequals, hkey, Text.trim_trimEnd]
  rfl

end Target

/-- A setting of a variable, with its value in double quotes. -/
structure Setting where
  target : Target
  /-- What stands between the equals sign and the value. -/
  gap : Gap
  value : List Glyph

namespace Setting

def text (s : Setting) : List Char :=
  s.target.text ++ '=' :: (s.gap.chars ++ (Quoted.double s.value).text)

/-- The variable and its value. -/
def pair (s : Setting) : String × String :=
  (String.ofList s.target.key, String.ofList (s.value.map Glyph.value))

end Setting

/-- A line of a dotenv file. -/
inductive Row where
  | setting (s : Setting)
  | blank (gap : Gap)
  | comment (indent : Gap) (text : List Char) (newline_notMem : '\n' ∉ text)

namespace Row

def text : Row → List Char
  | .setting s => s.text
  | .blank gap => gap.chars
  | .comment indent text _ => indent.chars ++ '#' :: text

/-- The variable that a line sets, if it sets one. -/
def pair : Row → Option (String × String)
  | .setting s => some s.pair
  | _ => none

/-- Whether the word `export` is told from a key. -/
def Clear : Row → Prop
  | .setting s => s.target.Clear
  | _ => True

theorem newline_notMem_text (row : Row) : '\n' ∉ row.text := by
  cases row with
  | setting s =>
      have htarget := s.target.newline_notMem_text
      have hvalue := (Quoted.double s.value).newline_notMem_text
      simp [text, Setting.text, htarget, hvalue, s.gap.newline_notMem]
  | blank gap => exact gap.newline_notMem
  | comment indent text newline_notMem =>
      simp [Row.text, indent.newline_notMem, newline_notMem]

/-- The text of a line becomes a line, up to white space at its ends. -/
theorem exists_lines_text (row : Row) (rest : List Char) :
    ∃ first, Text.lines (row.text ++ '\n' :: rest) = first :: Text.lines rest ∧
      Text.trim first = Text.trim row.text := by
  obtain ⟨first, hfirst, htext⟩ := Text.exists_lines_line row.newline_notMem_text
  refine ⟨first, hfirst rest, ?_⟩
  rcases htext with htext | htext
  · rw [htext]
  · rw [htext, Text.trim_append_blanks (by simp [Text.isBlank])]

/-- A line is read as it is written, also with other white space at its ends. -/
theorem Clear.readLine_eq {row : Row} (h : row.Clear) (number : Nat) {raw : List Char}
    (hraw : Text.trim raw = Text.trim row.text) : readLine number raw = .ok row.pair := by
  cases row with
  | setting s =>
      have hquoted : Text.trim (s.gap.chars ++ (Quoted.double s.value).text)
          = (Quoted.double s.value).text := by
        rw [Text.trim_append s.gap.isBlank]
        exact (Quoted.double s.value).trim_text
      have hvalue := ((Quoted.double s.value).readValue_append_iff []).2 List.not_mem_nil
      rw [List.append_nil] at hvalue
      rw [Target.Clear.readLine_eq h number hraw, hquoted, hvalue]
      rfl
  | blank gap =>
      rw [readLine, hraw, text, Text.trim_of_isBlank gap.isBlank]
      rfl
  | comment indent text newline_notMem =>
      have hstart : Text.trimStart indent.chars = [] := List.dropWhile_eq_nil_iff.2 indent.isBlank
      rw [readLine, hraw, Row.text, Text.trim_append_cons (by decide), hstart]
      rfl

end Row

/-! ## Written files -/

/-- The text of lines; the last one may end with a line feed or not. -/
def written (rows : List Row) (ended : Bool) : List Char :=
  ['\n'].intercalate (rows.map Row.text) ++ (if ended then ['\n'] else [])

theorem written_cons_cons (row next : Row) (rows : List Row) (ended : Bool) :
    written (row :: next :: rows) ended = row.text ++ '\n' :: written (next :: rows) ended := by
  simp [written, List.intercalate]

/-- A line that is read as a row sets what the row sets. -/
theorem readLines_cons {row : Row} (h : row.Clear) {raw : List Char}
    (hraw : Text.trim raw = Text.trim row.text) (vars : Dict String) (number : Nat)
    (lines : List (List Char)) :
    readLines vars number (raw :: lines)
      = readLines (row.pair.toList.foldl (fun d e => d.insert e.1 e.2) vars) (number + 1) lines := by
  rw [readLines, h.readLine_eq number hraw]
  cases row.pair with
  | none => rfl
  | some pair => rfl

/-- The lines of a written file set what they are written for, one after the other. -/
theorem readLines_written {rows : List Row} (h : ∀ row ∈ rows, row.Clear) (ended : Bool)
    (vars : Dict String) (number : Nat) :
    readLines vars number (Text.lines (written rows ended))
      = .ok ((rows.filterMap Row.pair).foldl (fun d e => d.insert e.1 e.2) vars) := by
  induction rows generalizing vars number with
  | nil => cases ended <;> rfl
  | cons row rows ih =>
      obtain ⟨hrow, hrows⟩ := List.forall_mem_cons.1 h
      have hpairs : (row :: rows).filterMap Row.pair
          = row.pair.toList ++ rows.filterMap Row.pair := by
        cases hpair : row.pair <;> simp [hpair]
      rw [hpairs, List.foldl_append]
      cases rows with
      | cons next rows =>
          obtain ⟨first, hfirst, htrim⟩ := row.exists_lines_text (written (next :: rows) ended)
          rw [written_cons_cons, hfirst, readLines_cons hrow htrim, ih hrows]
      | nil =>
          cases ended with
          | true =>
              obtain ⟨first, hfirst, htrim⟩ := row.exists_lines_text []
              have htext : written [row] true = row.text ++ ['\n'] := by simp [written]
              rw [htext, hfirst, readLines_cons hrow htrim]
              rfl
          | false =>
              have htext : written [row] false = row.text := by simp [written]
              rw [htext]
              by_cases hempty : row.text = []
              · -- An empty last line is no line, and sets nothing.
                have hread : readLine number [] = .ok row.pair :=
                  hrow.readLine_eq number (by rw [hempty])
                have hpair : none = row.pair := Except.ok.inj hread
                rw [hempty, ← hpair]
                rfl
              · rw [Text.lines_of_notMem row.newline_notMem_text hempty, readLines_cons hrow rfl]
                rfl

/-- A written file sets its variables; of two settings of a key the later one wins. -/
theorem parse_written {rows : List Row} (h : ∀ row ∈ rows, row.Clear) (ended : Bool) :
    ∃ vars, parse (String.ofList (written rows ended)) = .ok vars ∧
      ∀ key, vars.get? key = (rows.filterMap Row.pair).reverse.lookup key := by
  have hparse : parse (String.ofList (written rows ended))
      = .ok (Dict.ofList (rows.filterMap Row.pair)) := by
    rw [parse, String.toList_ofList, readLines_written h ended {} 1]
    rfl
  exact ⟨_, hparse, Dict.get?_ofList _⟩

/-- A comment, an exported setting of a value with a quote and a line end in it, and another setting
of the same key. -/
def greetingFile : List Row :=
  [.comment ⟨[], by simp, by simp⟩ " greeting".toList (by decide),
    .setting
      { target :=
          { exported := true
            key := "NAME".toList
            isKey := ⟨by decide, by decide, by decide, by decide, by decide⟩
            gap := ⟨[' '], List.forall_mem_singleton.2 rfl, by decide⟩ }
        gap := ⟨[' '], List.forall_mem_singleton.2 rfl, by decide⟩
        value := "a \"b\"\n#".toList.map Glyph.ofChar },
    .setting
      { target :=
          { exported := false
            key := "NAME".toList
            isKey := ⟨by decide, by decide, by decide, by decide, by decide⟩
            gap := ⟨[], by simp, by simp⟩ }
        gap := ⟨[], by simp, by simp⟩
        value := "c\\".toList.map Glyph.ofChar }]

/-- The later setting wins. -/
theorem parse_written_greetingFile :
    (∀ row ∈ greetingFile, row.Clear) ∧
      ∃ vars, parse (String.ofList (written greetingFile false)) = .ok vars ∧
        vars.get? "NAME" = some "c\\" := by
  have hclear : ∀ row ∈ greetingFile, row.Clear := by
    simp [greetingFile, Row.Clear, Target.Clear]
  obtain ⟨vars, hparse, hget⟩ := parse_written hclear false
  refine ⟨hclear, vars, hparse, ?_⟩
  rw [hget]
  decide

/-- A setting of the key `export`, with a space behind the key. -/
def exportSetting : Setting where
  target :=
    { exported := false
      key := "export".toList
      isKey := ⟨by decide, by decide, by decide, by decide, by decide⟩
      gap := ⟨[' '], List.forall_mem_singleton.2 rfl, by decide⟩ }
  gap := ⟨[], by simp, by simp⟩
  value := "v".toList.map Glyph.ofChar

/-- The word `export` in front of a space is no key: the line sets the variable without a name. -/
theorem parse_written_exportSetting :
    exportSetting.pair = ("export", "v") ∧
      parse (String.ofList (written [.setting exportSetting] true))
        = .ok (Dict.ofList [("", "v")]) := by
  decide

/-! ## Comments behind values -/

/-- What a text of one line sets that starts with a key and an equals sign. -/
theorem parse_line {key rest : List Char} (hkey : IsKey key) (hrest : '\n' ∉ rest) :
    parse (String.ofList (key ++ '=' :: rest)) = match readValue (Text.trim rest) with
      | none => .error (.openQuote 1)
      | some value => .ok (Dict.ofList [(String.ofList key, String.ofList value)]) := by
  have hline : '\n' ∉ key ++ '=' :: rest := by simp [hkey.newline_notMem, hrest]
  have hclear : Target.Clear ⟨false, key, hkey, ⟨[], by simp, by simp⟩⟩ := by simp [Target.Clear]
  have htarget : Text.trim (key ++ '=' :: rest)
      = Text.trim (Target.text ⟨false, key, hkey, ⟨[], by simp, by simp⟩⟩ ++ '=' :: rest) := by
    simp [Target.text, Target.name]
  have hread := hclear.readLine_eq 1 htarget
  rw [parse, String.toList_ofList, Text.lines_of_notMem hline (by simp), readLines, hread]
  cases readValue (Text.trim rest) with
  | none => rfl
  | some value => rfl

/-- A comment behind a quoted value is no part of the value exactly if the quote does not occur in
the comment. -/
theorem parse_commented_iff {key : List Char} (hkey : IsKey key) (q : Quoted)
    {comment : List Char} (hcomment : '\n' ∉ comment) :
    (∃ vars, parse (String.ofList (key ++ '=' :: (q.text ++ " # ".toList ++ comment))) = .ok vars ∧
      vars.get? (String.ofList key) = some (String.ofList q.value)) ↔ q.mark ∉ comment := by
  have hmark : q.mark ∉ Text.trimEnd (" # ".toList ++ comment) ↔ q.mark ∉ comment := by
    have hlead : q.mark ∉ " # ".toList := by
      rcases q.mark_eq with h | h <;> rw [h] <;> decide
    rw [Text.mem_trimEnd_iff q.isBlank_mark, List.mem_append, or_iff_right hlead]
  have hrest : '\n' ∉ q.text ++ (" # ".toList ++ comment) := by
    simp [q.newline_notMem_text, hcomment]
  rw [← hmark, ← q.readValue_append_iff, List.append_assoc, parse_line hkey hrest,
    q.trim_text_append]
  cases readValue (q.text ++ Text.trimEnd (" # ".toList ++ comment)) with
  | none => simp
  | some value => simp [Dict.get?_ofList, String.ofList_inj]

/-- A single quote may follow a value in double quotes. -/
theorem parse_commented_iff_apostrophe :
    ∃ vars, parse "TAG=\"1.0 #1\" # it's pinned" = .ok vars ∧ vars.get? "TAG" = some "1.0 #1" := by
  have hkey : IsKey "TAG".toList := ⟨by decide, by decide, by decide, by decide, by decide⟩
  have hcomment : '\n' ∉ "it's pinned".toList := by decide
  have hiff := parse_commented_iff hkey (.double ("1.0 #1".toList.map Glyph.ofChar)) hcomment
  exact hiff.2 (by decide)

/-- A word in double quotes in the comment takes the comment into the value. -/
theorem parse_commented_iff_quotedWord :
    parse "TAG=\"1.0\" # the \"old\" one" = .ok (Dict.ofList [("TAG", "1.0\" # the \"old")]) := by
  decide

end Dotenv
end Stackwright
