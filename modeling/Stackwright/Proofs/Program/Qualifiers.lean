import Stackwright.Program.ImportBlock
import Stackwright.Proofs.Text.Lines

/-!
# The qualifiers of a text

A text is read from left to right by a cursor that remembers the name it stands
in, if a qualifier can start where that name started.  A name that is followed by
a dot is a qualifier.  The cursor only looks back to the last character that is
neither part of a name nor a dot, so the qualifiers of texts put together around
such a character are the qualifiers of both.

Main results:

- Theorem `refersTo_iff_mem_names`: a line refers to the qualifiers that the
  cursor finds.
- Theorem `names_eq_flatMap_lines`: the qualifiers of a text are those of its
  lines.
-/

namespace Stackwright
namespace Program

/-- What stands before a place in a text. -/
inductive Cursor where
  /-- A qualifier can start here. -/
  | fresh
  /-- A name that could be a qualifier. -/
  | word (name : List Char)
  /-- A dot, or a name after one. -/
  | stale
deriving DecidableEq, Repr

namespace Cursor

/-- The place after a character of a name. -/
def extend (s : Cursor) (c : Char) : Cursor :=
  match s with
  | .fresh => .word [c]
  | .word name => .word (name ++ [c])
  | .stale => .stale

/-- The place after a character. -/
def next (s : Cursor) (c : Char) : Cursor :=
  if isIdentChar c then s.extend c else if c = '.' then .stale else .fresh

/-- The qualifier that a character ends, if it ends one. -/
def found (s : Cursor) (c : Char) : List (List Char) :=
  match s with
  | .word name => if c = '.' then [name] else []
  | _ => []

/-- The place after a text. -/
def after (s : Cursor) (text : List Char) : Cursor :=
  text.foldl next s

/-- The qualifiers of a text, in their order. -/
def names (s : Cursor) : List Char → List (List Char)
  | [] => []
  | c :: rest => s.found c ++ (s.next c).names rest

@[simp]
theorem after_nil (s : Cursor) : s.after [] = s :=
  rfl

@[simp]
theorem after_cons (s : Cursor) (c : Char) (rest : List Char) :
    s.after (c :: rest) = (s.next c).after rest :=
  rfl

theorem after_append (s : Cursor) (a b : List Char) : s.after (a ++ b) = (s.after a).after b := by
  simp [after]

theorem names_append (s : Cursor) (a b : List Char) :
    s.names (a ++ b) = s.names a ++ (s.after a).names b := by
  induction a generalizing s with
  | nil => rfl
  | cons c rest ih => rw [List.cons_append, names, ih, names, List.append_assoc, after_cons]

/-! ## Characters -/

/-- Whether a character ends a name without making it a qualifier. -/
def isBreak (c : Char) : Bool :=
  !isIdentChar c && c != '.'

theorem next_of_isBreak {c : Char} (h : isBreak c = true) (s : Cursor) : s.next c = .fresh := by
  rw [isBreak, Bool.and_eq_true, Bool.not_eq_true', bne_iff_ne] at h
  rw [next, h.1, if_neg Bool.false_ne_true, if_neg h.2]

theorem found_of_ne_dot {c : Char} (h : c ≠ '.') (s : Cursor) : s.found c = [] := by
  cases s with
  | word name => exact if_neg h
  | fresh => rfl
  | stale => rfl

theorem ne_dot_of_isIdentChar {c : Char} (h : isIdentChar c = true) : c ≠ '.' := by
  rintro rfl
  exact absurd h (by decide)

theorem ne_dot_of_isBreak {c : Char} (h : isBreak c = true) : c ≠ '.' := by
  rintro rfl
  exact absurd h (by decide)

/-- A break is forgotten. -/
theorem names_cons_of_isBreak {c : Char} (h : isBreak c = true) (s : Cursor) (text : List Char) :
    s.names (c :: text) = fresh.names text := by
  rw [names, found_of_ne_dot (ne_dot_of_isBreak h), next_of_isBreak h, List.nil_append]

/-- The qualifiers of texts around a break. -/
theorem names_append_break {c : Char} (h : isBreak c = true) (s : Cursor) (a b : List Char) :
    s.names (a ++ c :: b) = s.names a ++ fresh.names b := by
  rw [names_append, names_cons_of_isBreak h]

/-- After a break, nothing before it counts. -/
theorem after_append_break {c : Char} (h : isBreak c = true) (s : Cursor) (a b : List Char) :
    s.after (a ++ c :: b) = fresh.after b := by
  rw [after_append, after_cons, next_of_isBreak h]

/-- A text without a dot has no qualifiers. -/
theorem names_of_notMem {text : List Char} (h : '.' ∉ text) (s : Cursor) : s.names text = [] := by
  induction text generalizing s with
  | nil => rfl
  | cons c rest ih =>
      have hc : c ≠ '.' := fun heq => h (heq ▸ List.mem_cons_self)
      rw [names, found_of_ne_dot hc, ih fun hmem => h (List.mem_cons_of_mem _ hmem)]
      rfl

/-- The place after a name that continues one. -/
theorem after_word {name : List Char} (h : ∀ c ∈ name, isIdentChar c = true)
    (front : List Char) : (word front).after name = .word (front ++ name) := by
  induction name generalizing front with
  | nil => simp
  | cons c rest ih =>
      have hc : isIdentChar c = true := h c List.mem_cons_self
      rw [after_cons, next, if_pos hc, extend, ih fun d hd => h d (List.mem_cons_of_mem _ hd),
        List.append_assoc, List.singleton_append]

/-- The place after a name. -/
theorem after_name {name : List Char} (hne : name ≠ []) (h : ∀ c ∈ name, isIdentChar c = true) :
    fresh.after name = .word name := by
  cases name with
  | nil => exact absurd rfl hne
  | cons c rest =>
      have hc : isIdentChar c = true := h c List.mem_cons_self
      rw [after_cons, next, if_pos hc, extend,
        after_word fun d hd => h d (List.mem_cons_of_mem _ hd)]
      rfl

/-- A name after a dot is no qualifier. -/
theorem after_stale {name : List Char} (h : ∀ c ∈ name, isIdentChar c = true) :
    stale.after name = .stale := by
  induction name with
  | nil => rfl
  | cons c rest ih =>
      have hc : isIdentChar c = true := h c List.mem_cons_self
      rw [after_cons, next, if_pos hc]
      exact ih fun d hd => h d (List.mem_cons_of_mem _ hd)

/-- The characters of the name that the cursor stands in satisfy a test. -/
def Within (test : Char → Bool) : Cursor → Prop
  | .word name => ∀ c ∈ name, test c = true
  | _ => True

theorem Within.next {test : Char → Bool} {s : Cursor} (hs : s.Within test) {c : Char}
    (hc : test c = true) : (s.next c).Within test := by
  rw [Cursor.next]
  split
  · cases s with
    | fresh => simpa [extend, Within] using hc
    | word name =>
        intro d hd
        rcases List.mem_append.1 hd with hd | hd
        · exact hs d hd
        · rw [List.mem_singleton.1 hd]
          exact hc
    | stale => trivial
  · split <;> trivial

/-- The qualifiers of a text have no characters but those of the text. -/
theorem Within.names {test : Char → Bool} {s : Cursor} (hs : s.Within test) {text : List Char}
    (htext : ∀ c ∈ text, test c = true) {name : List Char} (h : name ∈ s.names text) :
    ∀ c ∈ name, test c = true := by
  induction text generalizing s with
  | nil => cases h
  | cons c rest ih =>
      rw [Cursor.names, List.mem_append] at h
      rcases h with h | h
      · cases s with
        | word front =>
            rw [found] at h
            split at h
            · rw [List.mem_singleton.1 h]
              exact hs
            · cases h
        | fresh => cases h
        | stale => cases h
      · exact ih (hs.next (htext c List.mem_cons_self))
          (fun d hd => htext d (List.mem_cons_of_mem _ hd)) h

/-- The name at the end of a text has no characters but those of the text. -/
theorem Within.after {test : Char → Bool} {s : Cursor} (hs : s.Within test) {text : List Char}
    (htext : ∀ c ∈ text, test c = true) : (s.after text).Within test := by
  induction text generalizing s with
  | nil => exact hs
  | cons c rest ih =>
      rw [after_cons]
      exact ih (hs.next (htext c List.mem_cons_self))
        fun d hd => htext d (List.mem_cons_of_mem _ hd)

/-! ## Occurrences -/

/-- A qualifier occurs after a previous character, where a qualifier can start. -/
def OccursAfter (qualifier : List Char) (previous : Option Char) (text : List Char) : Prop :=
  ∃ before rest, text = before ++ (qualifier ++ '.' :: rest) ∧
    startsName (before.getLast?.or previous) = true

/-- A qualifier can start exactly where the cursor is fresh. -/
theorem startsName_getLast_iff (text : List Char) :
    startsName text.getLast? = true ↔ fresh.after text = .fresh := by
  rcases List.eq_nil_or_concat text with rfl | ⟨front, c, rfl⟩
  · exact ⟨fun _ => rfl, fun _ => rfl⟩
  · rw [List.concat_eq_append, List.getLast?_concat, after_append, after_cons, after_nil, next]
    by_cases hc : isIdentChar c = true
    · rw [if_pos hc]
      cases fresh.after front <;> simp [startsName, hc, extend]
    · rw [if_neg hc]
      by_cases hdot : c = '.'
      · simp [startsName, hdot]
      · simp [startsName, hc, hdot]

/-- A qualifier that the cursor finds continues the name it stands in, or starts where it is
fresh. -/
theorem exists_of_mem_names {qualifier : List Char} {s : Cursor} {text : List Char}
    (h : qualifier ∈ s.names text) :
    (∃ front back rest, s = .word front ∧ qualifier = front ++ back ∧ text = back ++ '.' :: rest) ∨
      ∃ before rest, text = before ++ (qualifier ++ '.' :: rest) ∧ s.after before = .fresh := by
  induction text generalizing s with
  | nil => cases h
  | cons c tail ih =>
      rw [names, List.mem_append] at h
      rcases h with h | h
      · cases s with
        | word name =>
            rw [found] at h
            split at h
            · rename_i hc
              rw [List.mem_singleton.1 h, hc]
              exact .inl ⟨name, [], tail, rfl, (List.append_nil _).symm, rfl⟩
            · cases h
        | fresh => cases h
        | stale => cases h
      · rcases ih h with ⟨front, back, rest, hnext, rfl, rfl⟩ | ⟨before, rest, rfl, hafter⟩
        · rw [next] at hnext
          split at hnext
          · cases s with
            | fresh =>
                cases hnext
                exact .inr ⟨[], rest, rfl, rfl⟩
            | word name =>
                cases hnext
                refine .inl ⟨name, c :: back, rest, rfl, ?_, rfl⟩
                rw [List.append_assoc, List.singleton_append]
            | stale => cases hnext
          · split at hnext <;> cases hnext
        · exact .inr ⟨c :: before, rest, rfl, hafter⟩

/-- The cursor finds the qualifiers that occur where one can start. -/
theorem mem_names_iff_occursAfter {qualifier : List Char} (hne : qualifier ≠ [])
    (hchars : ∀ c ∈ qualifier, isIdentChar c = true) (text : List Char) :
    qualifier ∈ fresh.names text ↔ OccursAfter qualifier none text := by
  constructor
  · intro h
    rcases exists_of_mem_names h with ⟨front, -, -, hfresh, -⟩ | ⟨before, rest, rfl, hafter⟩
    · cases hfresh
    · refine ⟨before, rest, rfl, ?_⟩
      rw [Option.or_none, startsName_getLast_iff]
      exact hafter
  · rintro ⟨before, rest, rfl, hstarts⟩
    rw [Option.or_none, startsName_getLast_iff] at hstarts
    rw [names_append, hstarts, names_append, after_name hne hchars, names]
    simp [found]

/-- Two texts cut at their first dots. -/
theorem eq_of_append_dot_eq {a b x y : List Char} (ha : '.' ∉ a) (hb : '.' ∉ b)
    (h : a ++ '.' :: x = b ++ '.' :: y) : a = b := by
  have hcut : ∀ s t : List Char, '.' ∉ s → (s ++ '.' :: t).takeWhile (· != '.') = s := by
    intro s t hs
    rw [List.takeWhile_append_of_pos, List.takeWhile_cons_of_neg (by decide), List.append_nil]
    intro c hc
    exact bne_iff_ne.2 fun heq => hs (heq ▸ hc)
  rw [← hcut a x ha, h, hcut b y hb]

/-- The rest of an occurrence is passed over. -/
theorem occursAsName_skip (needle passed : List Char) (previous : Option Char)
    (text : List Char) :
    occursAsName needle passed.length previous (passed ++ text)
      = occursAsName needle 0 (passed.getLast?.or previous) text := by
  induction passed generalizing previous with
  | nil => rfl
  | cons c rest ih =>
      have hlast : (c :: rest).getLast?.or previous = rest.getLast?.or (some c) := by
        cases rest <;> simp [List.getLast?_cons]
      rw [List.length_cons, List.cons_append, occursAsName, ih, hlast]

/-- An occurrence further on, past a character. -/
theorem occursAfter_cons_of_not_isPrefixOf {qualifier : List Char} {c : Char} {text : List Char}
    (hno : ¬ (qualifier ++ ['.']).isPrefixOf (c :: text) = true) (previous : Option Char) :
    OccursAfter qualifier previous (c :: text) ↔ OccursAfter qualifier (some c) text := by
  have hlast : ∀ before : List Char,
      (c :: before).getLast?.or previous = before.getLast?.or (some c) := by
    intro before
    cases before <;> simp [List.getLast?_cons]
  constructor
  · rintro ⟨before, rest, htext, hstarts⟩
    cases before with
    | nil =>
        refine absurd ?_ hno
        rw [List.isPrefixOf_iff_prefix, htext]
        exact ⟨rest, by simp⟩
    | cons d before =>
        cases htext
        exact ⟨before, rest, rfl, hlast before ▸ hstarts⟩
  · rintro ⟨before, rest, rfl, hstarts⟩
    exact ⟨c :: before, rest, rfl, hlast before ▸ hstarts⟩

/-- An occurrence past one where no qualifier can start does not overlap with it. -/
theorem occursAfter_append_of_not_startsName {qualifier : List Char} (hdot : '.' ∉ qualifier)
    {previous : Option Char} (hno : startsName previous = false) (text : List Char) :
    OccursAfter qualifier previous (qualifier ++ '.' :: text) ↔
      OccursAfter qualifier (some '.') text := by
  have hlast : ∀ before : List Char,
      (qualifier ++ '.' :: before).getLast?.or previous = before.getLast?.or (some '.') := by
    intro before
    rw [List.getLast?_append, List.getLast?_cons]
    cases before <;> simp
  constructor
  · rintro ⟨before, rest, htext, hstarts⟩
    have hbefore : before ≠ [] := by
      rintro rfl
      rw [List.getLast?_nil, Option.none_or, hno] at hstarts
      cases hstarts
    rcases List.append_eq_append_iff.1 htext with ⟨middle, rfl, hrest⟩ | ⟨middle, hmiddle, hrest⟩
    · cases middle with
      | nil =>
          cases qualifier with
          | nil => exact absurd rfl hbefore
          | cons d qualifier =>
              cases hrest
              exact absurd List.mem_cons_self hdot
      | cons d middle =>
          cases hrest
          exact ⟨middle, rest, rfl, hlast middle ▸ hstarts⟩
    · have hmem : '.' ∉ middle := fun h => hdot (hmiddle ▸ List.mem_append_right _ h)
      have heq := eq_of_append_dot_eq hdot hmem hrest
      have hlength := congrArg List.length hmiddle
      rw [List.length_append, heq] at hlength
      exact absurd (List.eq_nil_of_length_eq_zero (by omega)) hbefore
  · rintro ⟨before, rest, rfl, hstarts⟩
    exact ⟨qualifier ++ '.' :: before, rest, by simp, hlast before ▸ hstarts⟩

/-- The search finds the occurrences where a qualifier can start. -/
theorem occursAsName_iff {qualifier : List Char} (hdot : '.' ∉ qualifier)
    (previous : Option Char) (text : List Char) :
    occursAsName (qualifier ++ ['.']) 0 previous text = true ↔
      OccursAfter qualifier previous text := by
  induction hlength : text.length using Nat.strongRecOn generalizing previous text with
  | ind length ih =>
      cases text with
      | nil => simp [occursAsName, OccursAfter]
      | cons c rest =>
          rw [occursAsName]
          split
          · rename_i hocc
            obtain ⟨tail, htail⟩ := List.isPrefixOf_iff_prefix.1 hocc
            rw [List.append_assoc, List.singleton_append] at htail
            -- The search goes on behind the dot.
            have hskip : occursAsName (qualifier ++ ['.']) ((qualifier ++ ['.']).length - 1)
                (some c) rest = occursAsName (qualifier ++ ['.']) 0 (some '.') tail := by
              cases qualifier with
              | nil =>
                  cases htail
                  rfl
              | cons d qualifier =>
                  cases htail
                  have hpassed := occursAsName_skip (c :: qualifier ++ ['.'])
                    (qualifier ++ ['.']) (some c) tail
                  simpa using hpassed
            have hshort : tail.length < length := by
              rw [← hlength, ← htail, List.length_append, List.length_cons]
              omega
            rw [hskip, Bool.or_eq_true, ih tail.length hshort _ _ rfl, ← htail]
            cases hstarts : startsName previous with
            | true =>
                refine iff_of_true (.inl rfl) ⟨[], tail, rfl, ?_⟩
                exact hstarts
            | false =>
                rw [occursAfter_append_of_not_startsName hdot hstarts]
                simp
          · rename_i hno
            rw [occursAfter_cons_of_not_isPrefixOf hno]
            exact ih rest.length (by simp [← hlength]) _ _ rfl

/-- A line refers to the qualifiers that the cursor finds in it. -/
theorem refersTo_iff_mem_names {qualifier : List Char} (hne : qualifier ≠ [])
    (hchars : ∀ c ∈ qualifier, isIdentChar c = true) (line : List Char) :
    refersTo qualifier line = true ↔ qualifier ∈ fresh.names line := by
  have hdot : '.' ∉ qualifier := fun h => ne_dot_of_isIdentChar (hchars _ h) rfl
  rw [refersTo, occursAsName_iff hdot, mem_names_iff_occursAfter hne hchars]

/-! ## Lines -/

/-- The qualifiers of lines, the first of which is read from a place in it. -/
def lineNames (s : Cursor) : List (List Char) → List (List Char)
  | [] => []
  | line :: rest => s.names line ++ rest.flatMap fresh.names

/-- The cursor reads a text line by line. -/
theorem names_eq_lineNames (s : Cursor) (text : List Char) :
    s.names text = s.lineNames (Text.lines text) := by
  induction text generalizing s with
  | nil => rfl
  | cons c rest ih =>
      by_cases hline : c = '\n'
      · rw [hline, Text.lines_newline, lineNames, names_cons_of_isBreak (by decide), ih]
        cases Text.lines rest <;> rfl
      · by_cases hreturn : c = '\r' ∧ rest.head? = some '\n'
        · obtain ⟨rfl, hhead⟩ := hreturn
          cases rest with
          | nil => cases hhead
          | cons d rest =>
              cases hhead
              rw [names_cons_of_isBreak (by decide), ih]
              rfl
        · rw [names, ih, Text.lines_cons hline fun h h' => hreturn ⟨h, h'⟩]
          cases Text.lines rest with
          | nil => simp [lineNames, Text.consLine, names]
          | cons line lines => rw [Text.consLine, lineNames, lineNames, names, List.append_assoc]

/-- The qualifiers of a text are those of its lines. -/
theorem names_eq_flatMap_lines (text : List Char) :
    fresh.names text = (Text.lines text).flatMap fresh.names := by
  rw [names_eq_lineNames]
  cases Text.lines text <;> rfl

end Cursor
end Program
end Stackwright
