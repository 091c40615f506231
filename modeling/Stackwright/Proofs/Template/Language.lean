import Stackwright.Template.Expand

/-!
# The template language

A template is a list of segments: text, references to variables, and references
with an operator whose argument is a template again.  This module writes a
template down, says what it stands for by walking over its segments, and compares
the two: expanding the written form gives what the template stands for.

Two readers have to agree for that.  `closeBrace` looks for the end of a reference
in the bare text and counts braces; `expandFrom` then reads the text it was given
once more.  The first never looks into segments, so text and messages inside a
reference must not hold a brace that it would count (`Closable`).

Main results:

- Theorem `closeBrace_segments`: the brace after the written form of a nested
  template is the one that closes its reference.
- Theorem `Segment.expandFrom_print`: expanding a written segment is evaluating
  it and going on with the rest.
- Theorem `expand_print`: expanding a written template is evaluating it.
-/

namespace Stackwright
namespace Template

/-! ## Templates -/

/-- Whether a text is the name of a variable. -/
def isVariableName : List Char → Bool
  | [] => false
  | c :: rest => isNameStart c && rest.all isNameChar

/-- The name of a variable. -/
structure Variable where
  name : String
  valid : isVariableName name.toList = true

/-- A part of a template.  An operator is strict if it takes an empty value for
none. -/
inductive Segment where
  | text (value : String)
  /-- A variable without braces. -/
  | bare (v : Variable)
  /-- A variable in braces. -/
  | value (v : Variable)
  /-- The value of a variable, or a template if it has none. -/
  | fallback (v : Variable) (strict : Bool) (template : List Segment)
  /-- A template if a variable has a value, or nothing. -/
  | alternate (v : Variable) (strict : Bool) (template : List Segment)
  /-- The value of a variable that must have one. -/
  | require (v : Variable) (strict : Bool) (message : String)

/-! ### Writing -/

/-- A character of a text as it is written: a dollar sign is doubled. -/
def writeChar (c : Char) : List Char :=
  if c = '$' then ['$', '$'] else [c]

/-- The two forms of an operator. -/
def operator (strict : Bool) (action : Char) : List Char :=
  if strict then [':', action] else [action]

/-- A reference with something between its braces. -/
def reference (body : List Char) : List Char :=
  '$' :: '\x7b' :: body ++ ['\x7d']

mutual
/-- The written form of a segment. -/
def Segment.print : Segment → List Char
  | .text value => value.toList.flatMap writeChar
  | .bare v => '$' :: v.name.toList
  | .value v => reference v.name.toList
  | .fallback v strict template =>
      reference (v.name.toList ++ operator strict '-' ++ printSegments template)
  | .alternate v strict template =>
      reference (v.name.toList ++ operator strict '+' ++ printSegments template)
  | .require v strict message =>
      reference (v.name.toList ++ operator strict '?' ++ message.toList)

/-- The written form of a template. -/
def printSegments : List Segment → List Char
  | [] => []
  | s :: rest => s.print ++ printSegments rest
end

/-! ### Evaluating -/

/-- The value that an operator sees; a strict one takes an empty value for none. -/
def seenBy (strict : Bool) (value : Option String) : Option String :=
  value.filter fun v => !(strict && v.isEmpty)

mutual
/-- What a segment stands for.  Only the template that is chosen is evaluated, and
values are inserted as they are. -/
def Segment.eval (lookup : Lookup) : Segment → Except Fault (List Char)
  | .text value => .ok value.toList
  | .bare v => .ok (valueText (lookup v.name))
  | .value v => .ok (valueText (lookup v.name))
  | .fallback v strict template =>
      match seenBy strict (lookup v.name) with
      | some value => .ok value.toList
      | none => evalSegments lookup template
  | .alternate v strict template =>
      match seenBy strict (lookup v.name) with
      | some _ => evalSegments lookup template
      | none => .ok []
  | .require v strict message =>
      match seenBy strict (lookup v.name) with
      | some value => .ok value.toList
      | none => .error (.missing v.name message)

/-- What a template stands for: its segments from left to right, up to the first
variable that must have a value and has none. -/
def evalSegments (lookup : Lookup) : List Segment → Except Fault (List Char)
  | [] => .ok []
  | s :: rest => do
      let front ← s.eval lookup
      let more ← evalSegments lookup rest
      return front ++ more
end

/-! ### Well-formed templates -/

/-- Whether a text continues the variable name before it. -/
def continuesName (text : List Char) : Bool :=
  text.head?.any isNameChar

/-- A text that may stand inside a reference: it closes none and opens none. -/
def Closable (text : List Char) : Prop :=
  '\x7d' ∉ text ∧ ¬ ['$', '\x7b'] <:+: text

/-- The texts between the references of a template, where `run` is the text before
its first segment.  Segments of text that are next to each other are one text. -/
def textRuns (run : List Char) : List Segment → List (List Char)
  | [] => [run]
  | .text value :: rest => textRuns (run ++ value.toList) rest
  | _ :: rest => run :: textRuns [] rest

/-- Whether a segment is a variable without braces. -/
def Segment.isBare : Segment → Bool
  | .bare _ => true
  | _ => false

mutual
/-- What a segment holds inside its braces may stand there. -/
def Segment.WellFormed : Segment → Prop
  | .text _ => True
  | .bare _ => True
  | .value _ => True
  | .fallback _ _ template =>
      SegmentsWellFormed template ∧ ∀ run ∈ textRuns [] template, Closable run
  | .alternate _ _ template =>
      SegmentsWellFormed template ∧ ∀ run ∈ textRuns [] template, Closable run
  | .require _ _ message => Closable message.toList

/-- The segments of a template are well-formed, and no variable without braces runs
on into what is written after it. -/
def SegmentsWellFormed : List Segment → Prop
  | [] => True
  | s :: rest =>
      s.WellFormed ∧ (s.isBare = true → continuesName (printSegments rest) = false)
        ∧ SegmentsWellFormed rest
end

/-! ## Closing references -/

/-- Puts a text before the body of a reference. -/
def prependBody (text : List Char) :
    Option (List Char × List Char) → Option (List Char × List Char) :=
  Option.map fun (body, tail) => (text ++ body, tail)

@[simp]
theorem prependBody_nil (closed : Option (List Char × List Char)) :
    prependBody [] closed = closed := by
  simp [prependBody]

@[simp]
theorem prependBody_prependBody (a b : List Char) (closed : Option (List Char × List Char)) :
    prependBody a (prependBody b closed) = prependBody (a ++ b) closed := by
  cases closed <;> simp [prependBody]

/-- A character is passed over if it neither closes nor opens a reference. -/
theorem closeBrace_cons {c : Char} {rest : List Char} (hclose : c ≠ '\x7d')
    (hopen : c = '$' → rest.head? ≠ some '\x7b') (depth : Nat) :
    closeBrace depth (c :: rest) = prependBody [c] (closeBrace depth rest) := by
  rw [closeBrace.eq_5 depth c rest]
  · rfl
  · rintro tail rfl rfl
    exact hopen rfl rfl
  · exact hclose

theorem closeBrace_open (depth : Nat) (rest : List Char) :
    closeBrace depth ('$' :: '\x7b' :: rest)
      = prependBody ['$', '\x7b'] (closeBrace (depth + 1) rest) := by
  rw [closeBrace]
  rfl

theorem closeBrace_close (depth : Nat) (rest : List Char) :
    closeBrace (depth + 1) ('\x7d' :: rest) = prependBody ['\x7d'] (closeBrace depth rest) := by
  rw [closeBrace]
  rfl

/-- A text is closable if its first character neither closes nor opens a reference
and the rest of it is closable. -/
theorem closable_cons {c : Char} {text : List Char} :
    Closable (c :: text) ↔
      c ≠ '\x7d' ∧ (c = '$' → text.head? ≠ some '\x7b') ∧ Closable text := by
  have hprefix : ['$', '\x7b'] <+: c :: text ↔ c = '$' ∧ text.head? = some '\x7b' := by
    cases text with
    | nil => simp [List.cons_prefix_cons]
    | cons d rest => simp [List.cons_prefix_cons, eq_comm]
  simp only [Closable, List.mem_cons, not_or, List.infix_cons_iff, hprefix, not_and]
  grind

/-- A closable text is passed over if no brace follows it. -/
theorem closeBrace_closable {text rest : List Char} (h : Closable text)
    (hrest : rest.head? ≠ some '\x7b') (depth : Nat) :
    closeBrace depth (text ++ rest) = prependBody text (closeBrace depth rest) := by
  induction text with
  | nil => simp
  | cons c more ih =>
      obtain ⟨hclose, hopen, hmore⟩ := closable_cons.1 h
      have hnext : c = '$' → (more ++ rest).head? ≠ some '\x7b' := by
        intro hc
        cases more with
        | nil => exact hrest
        | cons d tail => exact hopen hc
      rw [List.cons_append, closeBrace_cons hclose hnext, ih hmore, prependBody_prependBody]
      rfl

/-- A text without dollar signs and closing braces is passed over, whatever follows. -/
theorem closeBrace_plain {text : List Char} (hdollar : '$' ∉ text) (hclose : '\x7d' ∉ text)
    (depth : Nat) (rest : List Char) :
    closeBrace depth (text ++ rest) = prependBody text (closeBrace depth rest) := by
  induction text with
  | nil => simp
  | cons c more ih =>
      rw [List.mem_cons, not_or] at hdollar hclose
      rw [List.cons_append, closeBrace_cons (Ne.symm hclose.1)
        (fun hc => absurd hc.symm hdollar.1), ih hdollar.2 hclose.2, prependBody_prependBody]
      rfl

theorem head?_flatMap_writeChar (text : List Char) :
    (text.flatMap writeChar).head? = text.head? := by
  cases text with
  | nil => rfl
  | cons c rest => by_cases hc : c = '$' <;> simp [writeChar, hc]

/-- A text stays closable when its dollar signs are doubled. -/
theorem closable_flatMap_writeChar {text : List Char} (h : Closable text) :
    Closable (text.flatMap writeChar) := by
  induction text with
  | nil => exact h
  | cons c more ih =>
      obtain ⟨hclose, hopen, hmore⟩ := closable_cons.1 h
      have hrest := ih hmore
      rw [List.flatMap_cons]
      by_cases hc : c = '$'
      · subst hc
        have hlast : Closable ('$' :: more.flatMap writeChar) := by
          rw [closable_cons, head?_flatMap_writeChar]
          exact ⟨hclose, hopen, hrest⟩
        exact closable_cons.2 ⟨hclose, by simp, hlast⟩
      · rw [writeChar, if_neg hc]
        exact closable_cons.2 ⟨hclose, fun h => absurd h hc, hrest⟩

/-- The characters of a variable name. -/
theorem Variable.isNameChar_of_mem (v : Variable) {c : Char} (hc : c ∈ v.name.toList) :
    isNameChar c = true := by
  have hvalid := v.valid
  revert hvalid hc
  cases v.name.toList with
  | nil => simp
  | cons d rest =>
      simp only [isVariableName, Bool.and_eq_true, List.all_eq_true]
      rintro hc ⟨hstart, hrest⟩
      rcases List.mem_cons.1 hc with rfl | hc
      · simp only [isNameStart, isNameChar, Char.isAlphanum, Bool.or_eq_true] at hstart ⊢
        exact hstart.imp_left .inl
      · exact hrest c hc

/-- A character that is part of no name does not occur in one. -/
theorem Variable.notMem_name (v : Variable) {c : Char} (hc : isNameChar c = false) :
    c ∉ v.name.toList := by
  intro hmem
  rw [v.isNameChar_of_mem hmem] at hc
  exact absurd hc (by decide)

/-- A name has a first character, and that is no brace. -/
theorem Variable.head?_name_append_ne (v : Variable) {rest : List Char} :
    (v.name.toList ++ rest).head? ≠ some '\x7b' := by
  have hbrace := v.notMem_name (c := '\x7b') (by decide)
  have hvalid := v.valid
  revert hbrace hvalid
  cases v.name.toList with
  | nil => simp [isVariableName]
  | cons c more =>
      intro hbrace _ hhead
      obtain rfl : c = '\x7b' := by simpa using hhead
      exact hbrace List.mem_cons_self

/-- A name is passed over, whatever follows. -/
theorem closeBrace_name (v : Variable) (depth : Nat) (rest : List Char) :
    closeBrace depth (v.name.toList ++ rest) = prependBody v.name.toList (closeBrace depth rest) :=
  closeBrace_plain (v.notMem_name (by decide)) (v.notMem_name (by decide)) depth rest

/-- A text is passed over in front of a closing brace, at every depth. -/
def PassedInBraces (body : List Char) : Prop :=
  ∀ depth rest, closeBrace depth (body ++ '\x7d' :: rest)
    = prependBody body (closeBrace depth ('\x7d' :: rest))

theorem passedInBraces_name (v : Variable) : PassedInBraces v.name.toList :=
  fun depth _ => closeBrace_name v depth _

theorem passedInBraces_closable {text : List Char} (h : Closable text) : PassedInBraces text :=
  fun depth _ => closeBrace_closable h (by simp) depth

/-- A name with an operator is passed over if the argument of the operator is. -/
theorem passedInBraces_operator (v : Variable) (strict : Bool) {action : Char}
    (haction : action ∈ ['-', '+', '?']) {argument : List Char} (h : PassedInBraces argument) :
    PassedInBraces (v.name.toList ++ operator strict action ++ argument) := by
  have hoperator : ∀ c ∈ operator strict action, c ≠ '$' ∧ c ≠ '\x7d' := by
    revert haction
    cases strict <;> simp [operator] <;> rintro (rfl | rfl | rfl) <;> decide
  intro depth rest
  rw [List.append_assoc, List.append_assoc, closeBrace_name,
    closeBrace_plain (fun hmem => (hoperator _ hmem).1 rfl) (fun hmem => (hoperator _ hmem).2 rfl),
    h, prependBody_prependBody, prependBody_prependBody, List.append_assoc]

/-- A reference is passed over if the text between its braces is. -/
theorem closeBrace_reference {body : List Char} (h : PassedInBraces body) (depth : Nat)
    (rest : List Char) :
    closeBrace depth (reference body ++ rest)
      = prependBody (reference body) (closeBrace depth rest) := by
  have hshape : reference body ++ rest = '$' :: '\x7b' :: (body ++ '\x7d' :: rest) := by
    simp [reference]
  rw [hshape, closeBrace_open, h, closeBrace_close, prependBody_prependBody,
    prependBody_prependBody]
  simp [reference]

/-- Whether a segment is text. -/
def Segment.isText : Segment → Bool
  | .text _ => true
  | _ => false

theorem textRuns_cons {s : Segment} (hs : s.isText = false) (run : List Char)
    (rest : List Segment) : textRuns run (s :: rest) = run :: textRuns [] rest := by
  cases s with
  | text value => simp [Segment.isText] at hs
  | _ => rfl

/-- A segment that is no text is written with a dollar sign in front. -/
theorem head?_print {s : Segment} (hs : s.isText = false) (rest : List Char) :
    (s.print ++ rest).head? = some '$' := by
  cases s with
  | text value => simp [Segment.isText] at hs
  | _ => simp [Segment.print, reference]

mutual
/-- A written reference is passed over. -/
theorem Segment.closeBrace_print (s : Segment) (hs : s.isText = false) (h : s.WellFormed)
    (depth : Nat) (rest : List Char) :
    closeBrace depth (s.print ++ rest) = prependBody s.print (closeBrace depth rest) := by
  match s with
  | .text _ => simp [Segment.isText] at hs
  | .bare v =>
      rw [Segment.print, List.cons_append,
        closeBrace_cons (by decide) (fun _ => v.head?_name_append_ne), closeBrace_name,
        prependBody_prependBody]
      rfl
  | .value v => exact closeBrace_reference (passedInBraces_name v) depth rest
  | .fallback v strict template | .alternate v strict template =>
      refine closeBrace_reference (passedInBraces_operator v strict (by decide) ?_) depth rest
      intro depth rest
      have hbrace : ('\x7d' :: rest).head? ≠ some '\x7b' := by simp
      simpa using closeBrace_segments template h.1 [] h.2 hbrace depth
  | .require v strict message =>
      exact closeBrace_reference
        (passedInBraces_operator v strict (by decide) (passedInBraces_closable h)) depth rest

/-- The written form of a template after some text is passed over if its texts are
closable and no brace follows it. -/
theorem closeBrace_segments (segments : List Segment) (h : SegmentsWellFormed segments)
    (run : List Char) (hruns : ∀ r ∈ textRuns run segments, Closable r) {rest : List Char}
    (hrest : rest.head? ≠ some '\x7b') (depth : Nat) :
    closeBrace depth (run.flatMap writeChar ++ printSegments segments ++ rest)
      = prependBody (run.flatMap writeChar ++ printSegments segments) (closeBrace depth rest) := by
  match segments with
  | [] =>
      have hrun : Closable run := hruns run (by simp [textRuns])
      simpa [printSegments] using closeBrace_closable (closable_flatMap_writeChar hrun) hrest depth
  | s :: more =>
      cases htext : s.isText with
      | true =>
          cases s <;> simp [Segment.isText] at htext
          rename_i value
          have hmore := closeBrace_segments more h.2.2 (run ++ value.toList) hruns hrest depth
          simpa [printSegments, Segment.print] using hmore
      | false =>
          rw [textRuns_cons htext, List.forall_mem_cons] at hruns
          have hmore := closeBrace_segments more h.2.2 [] hruns.2 hrest depth
          simp only [List.flatMap_nil, List.nil_append] at hmore
          have hnext : (s.print ++ (printSegments more ++ rest)).head? ≠ some '\x7b' := by
            rw [head?_print htext]
            decide
          rw [printSegments, List.append_assoc, List.append_assoc,
            closeBrace_closable (closable_flatMap_writeChar hruns.1) hnext,
            s.closeBrace_print htext h.1, hmore, prependBody_prependBody, prependBody_prependBody]
          simp
end

/-- The brace after a nested template closes the reference around it. -/
theorem passedInBraces_segments {segments : List Segment} (h : SegmentsWellFormed segments)
    (hruns : ∀ run ∈ textRuns [] segments, Closable run) :
    PassedInBraces (printSegments segments) := by
  intro depth rest
  have hbrace : ('\x7d' :: rest).head? ≠ some '\x7b' := by simp
  simpa using closeBrace_segments segments h [] hruns hbrace depth

/-! ## Reading references -/

/-- A name is read up to a character that does not continue it. -/
theorem readName_name (v : Variable) {rest : List Char} (h : continuesName rest = false) :
    readName (v.name.toList ++ rest) = some (v.name.toList, rest) := by
  have htake : rest.takeWhile isNameChar = [] ∧ rest.dropWhile isNameChar = rest := by
    cases rest with
    | nil => exact ⟨rfl, rfl⟩
    | cons c more => simp_all [continuesName]
  have hchars : ∀ c ∈ v.name.toList, isNameChar c = true := fun c hc => v.isNameChar_of_mem hc
  have hvalid := v.valid
  revert hchars hvalid
  cases v.name.toList with
  | nil => simp [isVariableName]
  | cons c more =>
      intro hchars hvalid
      have hstart : isNameStart c = true := by
        rw [isVariableName, Bool.and_eq_true] at hvalid
        exact hvalid.1
      rw [List.cons_append, readName, if_pos hstart, ← List.cons_append,
        List.takeWhile_append_of_pos hchars, List.dropWhile_append_of_pos hchars, htake.1, htake.2,
        List.append_nil]

/-- A variable in braces is read as a reference without an operator. -/
theorem Reference.read_name (v : Variable) :
    Reference.read v.name.toList = .ok ⟨v.name, none⟩ := by
  have hname : readName (v.name.toList ++ []) = some (v.name.toList, []) := readName_name v rfl
  rw [List.append_nil] at hname
  simp [Reference.read, hname]

/-- A reference with an operator is read back. -/
theorem Reference.read_operator (v : Variable) (strict : Bool) {c : Char} {action : Action}
    (hc : c ∈ ['-', '+', '?']) (haction : readAction c = some action) (argument : List Char) :
    Reference.read (v.name.toList ++ operator strict c ++ argument)
      = .ok ⟨v.name, some (⟨action, strict⟩, argument)⟩ := by
  have hne : c ≠ ':' := by
    rintro rfl
    simp at hc
  have hmodifier : readModifier (operator strict c ++ argument)
      = some (⟨action, strict⟩, argument) := by
    cases strict with
    | false => simp [operator, readModifier, hne, haction]
    | true => simp [operator, readModifier, haction]
  have hstop : continuesName (operator strict c ++ argument) = false := by
    simp only [List.mem_cons, List.not_mem_nil, or_false] at hc
    cases strict <;> rcases hc with rfl | rfl | rfl <;> rfl
  have hcons : operator strict c ++ argument ≠ [] := by
    cases strict <;> simp [operator]
  rw [List.append_assoc]
  simp only [Reference.read, readName_name v hstop, hmodifier, String.ofList_toList]

/-! ## Choosing what a reference stands for -/

theorem isUnset_eq_isNone_seenBy (action : Action) (strict : Bool) (value : Option String) :
    Modifier.isUnset ⟨action, strict⟩ value = (seenBy strict value).isNone := by
  cases value with
  | none => rfl
  | some v => by_cases h : (strict && v.isEmpty) = true <;> simp_all [Modifier.isUnset, seenBy]

/-- A value that an operator sees is the value of the variable. -/
theorem eq_some_of_seenBy {strict : Bool} {value : Option String} {v : String}
    (h : seenBy strict value = some v) : value = some v := by
  rw [seenBy, Option.filter_eq_some_iff] at h
  exact h.1

/-- What a choice stands for. -/
def Choice.eval (lookup : Lookup) (name : String) : Choice → Except Fault (List Char)
  | .text value => .ok value
  | .expand template => expandFrom lookup template template
  | .missing reason => .error (.missing name (String.ofList reason))

/-- A fallback stands for the value that its operator sees, or else for its template. -/
theorem eval_choose_fallback (lookup : Lookup) (name : String) (strict : Bool)
    (template : List Char) :
    (Reference.choose ⟨name, some (⟨.fallback, strict⟩, template)⟩ lookup).eval lookup name
      = match seenBy strict (lookup name) with
        | some value => .ok value.toList
        | none => expandFrom lookup template template := by
  simp only [Reference.choose, isUnset_eq_isNone_seenBy]
  cases hseen : seenBy strict (lookup name) with
  | none => rfl
  | some value => simp [Choice.eval, eq_some_of_seenBy hseen, valueText]

/-- An alternate stands for its template if its operator sees a value. -/
theorem eval_choose_alternate (lookup : Lookup) (name : String) (strict : Bool)
    (template : List Char) :
    (Reference.choose ⟨name, some (⟨.alternate, strict⟩, template)⟩ lookup).eval lookup name
      = match seenBy strict (lookup name) with
        | some _ => expandFrom lookup template template
        | none => .ok [] := by
  simp only [Reference.choose, isUnset_eq_isNone_seenBy]
  cases seenBy strict (lookup name) <;> rfl

/-- A requirement stands for the value that its operator sees, and fails without one. -/
theorem eval_choose_require (lookup : Lookup) (name : String) (strict : Bool)
    (message : List Char) :
    (Reference.choose ⟨name, some (⟨.require, strict⟩, message)⟩ lookup).eval lookup name
      = match seenBy strict (lookup name) with
        | some value => .ok value.toList
        | none => .error (.missing name (String.ofList message)) := by
  simp only [Reference.choose, isUnset_eq_isNone_seenBy]
  cases hseen : seenBy strict (lookup name) with
  | none => rfl
  | some value => simp [Choice.eval, eq_some_of_seenBy hseen, valueText]

/-! ## Expanding what was written -/

section Expanding

variable (lookup : Lookup) (whole : List Char)

theorem expandFrom_nil : expandFrom lookup whole [] = .ok [] := by
  rw [expandFrom]
  rfl

/-- A character that is no dollar sign stands for itself. -/
theorem expandFrom_char {c : Char} (hc : c ≠ '$') (rest : List Char) :
    expandFrom lookup whole (c :: rest) = (do
      let more ← expandFrom lookup whole rest
      return c :: more) := by
  have htake : (c :: rest).takeWhile (· != '$') = c :: rest.takeWhile (· != '$') := by simp [hc]
  have hdrop : (c :: rest).dropWhile (· != '$') = rest.dropWhile (· != '$') := by simp [hc]
  rw [expandFrom.eq_1 lookup whole (c :: rest), expandFrom.eq_1 lookup whole rest, htake, hdrop]
  -- Both sides now read the same text after literals that differ in the first character.
  generalize rest.dropWhile (· != '$') = after
  generalize rest.takeWhile (· != '$') = literal
  split
  · rfl
  · simp
  · split
    · rfl
    · split
      · rfl
      · split
        · simp
        · simp
        · rfl
  · split <;> simp

/-- A text without a dollar sign stands for itself. -/
theorem expandFrom_of_notMem {text : List Char} (h : '$' ∉ text) :
    expandFrom lookup whole text = .ok text := by
  induction text with
  | nil => exact expandFrom_nil lookup whole
  | cons c text ih =>
      rw [List.mem_cons, not_or] at h
      rw [expandFrom_char lookup whole (Ne.symm h.1), ih h.2]
      rfl

theorem expand_of_notMem {text : String} (h : '$' ∉ text.toList) :
    expand lookup text = .ok text := by
  rw [expand, expandFrom_of_notMem lookup _ h, Except.map, String.ofList_toList]

/-- Two dollar signs stand for one. -/
theorem expandFrom_dollars (tail : List Char) :
    expandFrom lookup whole ('$' :: '$' :: tail) = (do
      let more ← expandFrom lookup whole tail
      return '$' :: more) := by
  rw [expandFrom]
  simp
  rfl

/-- A dollar sign and a name stand for the value of the variable. -/
theorem expandFrom_bare {after name tail : List Char} (h : readName after = some (name, tail)) :
    expandFrom lookup whole ('$' :: after) = (do
      let more ← expandFrom lookup whole tail
      return valueText (lookup (String.ofList name)) ++ more) := by
  have hstart : ∀ c ∈ after.head?, isNameStart c = true := by
    cases after with
    | nil => simp
    | cons c rest => simp_all [readName]
  have hdrop : ('$' :: after).dropWhile (· != '$') = '$' :: after := by simp
  have htake : ('$' :: after).takeWhile (· != '$') = [] := by simp
  rw [expandFrom, htake, hdrop]
  split
  · contradiction
  · rename_i heq
    cases heq
    exact absurd (hstart '$' rfl) (by decide)
  · rename_i heq
    cases heq
    exact absurd (hstart '\x7b' rfl) (by decide)
  · rename_i heq
    cases heq
    rw [h]
    rfl

/-- A reference that is closed and can be read stands for what it chooses. -/
theorem expandFrom_reference {inner body tail : List Char} {r : Reference}
    (hclose : closeBrace 0 inner = some (body, tail)) (hread : Reference.read body = .ok r) :
    expandFrom lookup whole ('$' :: '\x7b' :: inner) = (do
      let front ← (r.choose lookup).eval lookup r.name
      let more ← expandFrom lookup whole tail
      return front ++ more) := by
  have hdrop : ('$' :: '\x7b' :: inner).dropWhile (· != '$') = '$' :: '\x7b' :: inner := by simp
  have htake : ('$' :: '\x7b' :: inner).takeWhile (· != '$') = [] := by simp
  rw [expandFrom, htake, hdrop]
  simp only
  rw [hclose]
  simp only
  rw [hread]
  simp only
  generalize r.choose lookup = choice
  cases choice <;> rfl

/-- Written text stands for the text. -/
theorem expandFrom_text (text rest : List Char) :
    expandFrom lookup whole (text.flatMap writeChar ++ rest) = (do
      let more ← expandFrom lookup whole rest
      return text ++ more) := by
  induction text with
  | nil => simp
  | cons c more ih =>
      rw [List.flatMap_cons, List.append_assoc]
      by_cases hc : c = '$'
      · subst hc
        simp [writeChar, expandFrom_dollars, ih]
      · simp [writeChar, hc, expandFrom_char lookup whole hc, ih]

/-- A written reference stands for what it chooses, if its body is closed by the
brace after it. -/
theorem expandFrom_written {body rest : List Char} {r : Reference}
    (hclose : PassedInBraces body)
    (hread : Reference.read body = .ok r) :
    expandFrom lookup whole (reference body ++ rest) = (do
      let front ← (r.choose lookup).eval lookup r.name
      let more ← expandFrom lookup whole rest
      return front ++ more) := by
  have hshape : reference body ++ rest = '$' :: '\x7b' :: (body ++ '\x7d' :: rest) := by
    simp [reference]
  have hbody : closeBrace 0 (body ++ '\x7d' :: rest) = some (body, rest) := by
    rw [hclose]
    simp [closeBrace, prependBody]
  rw [hshape]
  exact expandFrom_reference lookup whole hbody hread

end Expanding

mutual
/-- Expanding a written segment is evaluating it and going on with the rest. -/
theorem Segment.expandFrom_print (lookup : Lookup) (s : Segment) (h : s.WellFormed)
    {rest : List Char} (hnext : s.isBare = true → continuesName rest = false)
    (whole : List Char) :
    expandFrom lookup whole (s.print ++ rest) = (do
      let front ← s.eval lookup
      let more ← expandFrom lookup whole rest
      return front ++ more) := by
  match s with
  | .text value => exact expandFrom_text lookup whole value.toList rest
  | .bare v =>
      rw [Segment.print, List.cons_append,
        expandFrom_bare lookup whole (readName_name v (hnext rfl)), String.ofList_toList]
      rfl
  | .value v =>
      exact expandFrom_written lookup whole (passedInBraces_name v) (Reference.read_name v)
  | .fallback v strict template =>
      have hargument := passedInBraces_segments h.1 h.2
      rw [Segment.print,
        expandFrom_written lookup whole (passedInBraces_operator v strict (by decide) hargument)
          (Reference.read_operator v strict (by decide) rfl _),
        eval_choose_fallback, expandFrom_segments lookup template h.1]
      rfl
  | .alternate v strict template =>
      have hargument := passedInBraces_segments h.1 h.2
      rw [Segment.print,
        expandFrom_written lookup whole (passedInBraces_operator v strict (by decide) hargument)
          (Reference.read_operator v strict (by decide) rfl _),
        eval_choose_alternate, expandFrom_segments lookup template h.1]
      rfl
  | .require v strict message =>
      have hargument := passedInBraces_closable h
      rw [Segment.print,
        expandFrom_written lookup whole (passedInBraces_operator v strict (by decide) hargument)
          (Reference.read_operator v strict (by decide) rfl _),
        eval_choose_require, String.ofList_toList]
      rfl

/-- Expanding a written template is evaluating it. -/
theorem expandFrom_segments (lookup : Lookup) (segments : List Segment)
    (h : SegmentsWellFormed segments) (whole : List Char) :
    expandFrom lookup whole (printSegments segments) = evalSegments lookup segments := by
  match segments with
  | [] => exact expandFrom_nil lookup whole
  | s :: rest =>
      rw [printSegments, s.expandFrom_print lookup h.1 h.2.1, expandFrom_segments lookup rest h.2.2]
      rfl
end

/-- Expanding a written template is evaluating it, for all variables: text stands for
itself, values are inserted as they are, only chosen templates are evaluated, and the
first variable that must have a value and has none is the fault. -/
theorem expand_print (lookup : Lookup) (template : List Segment)
    (h : SegmentsWellFormed template) :
    expand lookup (String.ofList (printSegments template))
      = (evalSegments lookup template).map String.ofList := by
  rw [expand, String.toList_ofList, expandFrom_segments lookup template h]

/-- A template with references inside references, dollar signs before references and
braces that are text. -/
def nestedTemplate : List Segment :=
  [ .text "$\x7b$",
    .fallback ⟨"A", by decide⟩ true
      [ .text "$", .value ⟨"B", by decide⟩, .text "\x7b",
        .alternate ⟨"C", by decide⟩ false [.text "c$"] ],
    .bare ⟨"C", by decide⟩,
    .text "-\x7d",
    .require ⟨"D", by decide⟩ true "set $D" ]

theorem expand_print_nestedTemplate :
    SegmentsWellFormed nestedTemplate ∧
      expand (fun _ => some "") (String.ofList (printSegments nestedTemplate))
        = .error (.missing "D" "set $D") ∧
      expand (fun name => if name = "A" then none else some "$A")
          (String.ofList (printSegments nestedTemplate))
        = .ok "$\x7b$$$A\x7bc$$A-\x7d$A" := by
  have h : SegmentsWellFormed nestedTemplate := by
    simp only [nestedTemplate, SegmentsWellFormed, Segment.WellFormed, Closable]
    decide
  refine ⟨h, ?_, ?_⟩
  · rw [expand_print _ _ h]
    rfl
  · rw [expand_print _ _ h]
    rfl

end Template
end Stackwright
