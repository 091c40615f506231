import Stackwright.Proofs.Template.Language

/-!
# The dollar escape inside a default

Text is written into a template by doubling its dollar signs.  Inside a reference
the same text is read twice: `closeBrace` looks for the end of the reference, and
`expandFrom` reads what stands in front of it.  Only the second knows that two
dollar signs are one, so a dollar sign that is text in front of a brace that is text
looks to the first like one more reference, and the brace that closes the default
is taken for the end of that one.

Main results:

- Theorem `lt_count_of_closeBrace`: a reference at some depth is closed by one
  more closing brace than that depth.
- Theorem `expand_default_doubled`: a default written with doubled dollar signs
  stands for its text if no dollar sign in it is in front of an opening brace, and
  is never closed if one is.
-/

namespace Stackwright
namespace Template

/-- A text with its dollar signs doubled. -/
def doubled (s : String) : String :=
  String.ofList (s.toList.flatMap writeChar)

/-! ## References that are never closed -/

/-- Every reference that is open has to be closed before the text ends. -/
theorem lt_count_of_closeBrace {depth : Nat} {s body tail : List Char}
    (h : closeBrace depth s = some (body, tail)) : depth < s.count '\x7d' := by
  induction depth, s using closeBrace.induct generalizing body with
  | case1 => simp [closeBrace] at h
  | case2 depth rest ih =>
      simp only [closeBrace, Option.map_eq_some_iff, Prod.mk.injEq, Prod.exists] at h
      obtain ⟨inner, more, hrest, -, rfl⟩ := h
      have hcount : depth + 1 < rest.count '\x7d' := ih hrest
      simp only [List.count_cons, Char.reduceBEq, Bool.false_eq_true, if_false]
      omega
  | case3 rest => simp
  | case4 rest d ih =>
      simp only [closeBrace, Option.map_eq_some_iff, Prod.mk.injEq, Prod.exists] at h
      obtain ⟨inner, more, hrest, -, rfl⟩ := h
      have hcount : d < rest.count '\x7d' := ih hrest
      simp only [List.count_cons, beq_self_eq_true, if_true]
      omega
  | case5 depth c rest hopen hclose ih =>
      rw [closeBrace.eq_5 depth c rest hopen hclose] at h
      simp only [Option.map_eq_some_iff, Prod.mk.injEq, Prod.exists] at h
      obtain ⟨inner, more, hrest, -, rfl⟩ := h
      exact Nat.lt_of_lt_of_le (ih hrest) List.count_le_count_cons

/-- A reference that is opened in a text without closing braces takes the brace
after the text for its own. -/
theorem closeBrace_eq_none {text : List Char} (hclose : '\x7d' ∉ text)
    (hopen : ['$', '\x7b'] <:+: text) : closeBrace 0 (text ++ ['\x7d']) = none := by
  induction text with
  | nil => simp at hopen
  | cons c rest ih =>
      rw [List.mem_cons, not_or] at hclose
      by_cases hfirst : c = '$' ∧ rest.head? = some '\x7b'
      · obtain ⟨rfl, hhead⟩ := hfirst
        obtain ⟨more, rfl⟩ := List.head?_eq_some_iff.1 hhead
        have hmore : '\x7d' ∉ more := fun hmem => hclose.2 (List.mem_cons_of_mem _ hmem)
        have hinner : closeBrace 1 (more ++ ['\x7d']) = none := by
          cases hbody : closeBrace 1 (more ++ ['\x7d']) with
          | none => rfl
          | some closed =>
              -- One brace is left to close two references.
              have hcount := lt_count_of_closeBrace hbody
              simp [List.count_append, List.count_eq_zero_of_not_mem hmore] at hcount
        rw [List.cons_append, List.cons_append, closeBrace_open, hinner]
        rfl
      · have hrest : ['$', '\x7b'] <:+: rest := by
          rcases List.infix_cons_iff.1 hopen with hprefix | hinfix
          · obtain ⟨more, hmore⟩ := hprefix
            simp only [List.cons_append, List.nil_append, List.cons.injEq] at hmore
            obtain ⟨rfl, rfl⟩ := hmore
            exact absurd ⟨rfl, rfl⟩ hfirst
          · exact hinfix
        have hnext : c = '$' → (rest ++ ['\x7d']).head? ≠ some '\x7b' := by
          intro hc hhead
          cases rest with
          | nil => simp at hhead
          | cons d more => exact hfirst ⟨hc, hhead⟩
        rw [List.cons_append, closeBrace_cons (Ne.symm hclose.1) hnext, ih hclose.2 hrest]
        rfl

/-- A dollar sign stays in front of a brace when dollar signs are doubled. -/
theorem infix_flatMap_writeChar {text : List Char} (h : ['$', '\x7b'] <:+: text) :
    ['$', '\x7b'] <:+: text.flatMap writeChar := by
  obtain ⟨front, back, rfl⟩ := h
  refine ⟨front.flatMap writeChar ++ ['$'], back.flatMap writeChar, ?_⟩
  simp [writeChar]

theorem notMem_flatMap_writeChar {text : List Char} (h : '\x7d' ∉ text) :
    '\x7d' ∉ text.flatMap writeChar := by
  intro hmem
  obtain ⟨c, hc, hmem⟩ := List.mem_flatMap.1 hmem
  rw [writeChar] at hmem
  split at hmem
  · simp at hmem
  · rw [List.mem_singleton] at hmem
    exact h (hmem ▸ hc)

/-- A reference without its closing brace is the fault of the whole template. -/
theorem expandFrom_unclosed (lookup : Lookup) (whole : List Char) {inner : List Char}
    (h : closeBrace 0 inner = none) :
    expandFrom lookup whole ('$' :: '\x7b' :: inner)
      = .error (.unterminated (String.ofList whole)) := by
  have hdrop : ('$' :: '\x7b' :: inner).dropWhile (· != '$') = '$' :: '\x7b' :: inner := by simp
  rw [expandFrom, hdrop]
  simp only
  rw [h]

/-! ## Defaults -/

/-- The reference to a variable with a text as its default. -/
def withDefault (v : Variable) (s : String) : String :=
  "$\x7b" ++ v.name ++ ":-" ++ doubled s ++ "\x7d"

theorem toList_withDefault (v : Variable) (s : String) :
    (withDefault v s).toList
      = reference (v.name.toList ++ operator true '-' ++ s.toList.flatMap writeChar) := by
  simp [withDefault, doubled, reference, operator]

/-- The default of an unset variable stands for its text if dollar signs that are text
are never in front of an opening brace; a default where one is has no end. -/
theorem expand_default_doubled (lookup : Lookup) (v : Variable) (s : String)
    (hclose : '\x7d' ∉ s.toList) (hunset : lookup v.name = none) :
    (¬ ['$', '\x7b'] <:+: s.toList → expand lookup (withDefault v s) = .ok s) ∧
      (['$', '\x7b'] <:+: s.toList →
        expand lookup (withDefault v s) = .error (.unterminated (withDefault v s))) := by
  refine ⟨fun hplain => ?_, fun hopen => ?_⟩
  · have hformed : SegmentsWellFormed [.fallback v true [.text s]] := by
      simp [SegmentsWellFormed, Segment.WellFormed, Segment.isBare, textRuns, Closable, hclose,
        hplain]
    have hshape : (withDefault v s).toList = printSegments [.fallback v true [.text s]] := by
      simp [toList_withDefault, printSegments, Segment.print]
    rw [expand, hshape, expandFrom_segments lookup _ hformed]
    simp [evalSegments, Segment.eval, seenBy, hunset, Except.map, bind, Except.bind, pure,
      Except.pure]
  · have hunclosed :
        closeBrace 0 (v.name.toList ++ operator true '-' ++ s.toList.flatMap writeChar ++ ['\x7d'])
          = none := by
      rw [List.append_assoc, List.append_assoc, closeBrace_name,
        closeBrace_plain (by decide) (by decide),
        closeBrace_eq_none (notMem_flatMap_writeChar hclose) (infix_flatMap_writeChar hopen)]
      rfl
    have hshape : (withDefault v s).toList = '$' :: '\x7b' ::
        (v.name.toList ++ operator true '-' ++ s.toList.flatMap writeChar ++ ['\x7d']) := by
      rw [toList_withDefault, reference, List.cons_append, List.cons_append]
    have hfault := expandFrom_unclosed lookup (withDefault v s).toList hunclosed
    rw [← hshape, String.ofList_toList] at hfault
    rw [expand, hfault, Except.map]

/-- A default with dollar signs and braces that are text, but none in front of the other. -/
theorem expand_default_doubled_price :
    '\x7d' ∉ "$$5 \x7b$".toList ∧ ¬ ['$', '\x7b'] <:+: "$$5 \x7b$".toList ∧
      expand (fun _ => none) (withDefault ⟨"PRICE", by decide⟩ "$$5 \x7b$") = .ok "$$5 \x7b$" := by
  have hplain : ¬ ['$', '\x7b'] <:+: "$$5 \x7b$".toList := by decide
  exact ⟨by decide, hplain,
    (expand_default_doubled (fun _ => none) ⟨"PRICE", by decide⟩ _ (by decide) rfl).1 hplain⟩

/-- The text of a reference to a variable cannot be the default of another one. -/
theorem expand_default_doubled_reference :
    '\x7d' ∉ "$\x7b".toList ∧ withDefault ⟨"V", by decide⟩ "$\x7b" = "$\x7bV:-$$\x7b\x7d" ∧
      expand (fun _ => none) "$\x7bV:-$$\x7b\x7d"
        = .error (.unterminated "$\x7bV:-$$\x7b\x7d") := by
  have hunclosed : closeBrace 0 "V:-$$\x7b\x7d".toList = none := by decide
  have hfault := expandFrom_unclosed (fun _ => none) "$\x7bV:-$$\x7b\x7d".toList hunclosed
  refine ⟨by decide, by decide, ?_⟩
  exact congrArg (Except.map String.ofList) hfault

end Template
end Stackwright
