import Stackwright.Template.Reference

/-!
# Expanding a template

A template is text with references to variables: a dollar sign and a name, or a dollar sign and braces
around a name with an optional operator. Two dollar signs stand for one, and a dollar sign before anything
else stands for itself. Values are inserted as they are; only defaults and alternates are templates
themselves, and they are expanded only when they are chosen.
-/

namespace Stackwright
namespace Template

/-- The text up to the brace that closes the current reference, and the text after that brace. References
inside it, counted by `depth`, keep their braces. -/
def closeBrace (depth : Nat) : List Char → Option (List Char × List Char)
  | [] => none
  | '$' :: '\x7b' :: rest =>
      (closeBrace (depth + 1) rest).map fun (body, tail) => ('$' :: '\x7b' :: body, tail)
  | '\x7d' :: rest =>
      match depth with
      | 0 => some ([], rest)
      | d + 1 => (closeBrace d rest).map fun (body, tail) => ('\x7d' :: body, tail)
  | c :: rest => (closeBrace depth rest).map fun (body, tail) => (c :: body, tail)

/-- Closing a reference cuts the text around one brace. -/
theorem closeBrace_eq_some {depth : Nat} {s body tail : List Char}
    (h : closeBrace depth s = some (body, tail)) : s = body ++ '\x7d' :: tail := by
  induction depth, s using closeBrace.induct generalizing body with
  | case1 => simp [closeBrace] at h
  | case2 depth rest ih =>
      simp only [closeBrace, Option.map_eq_some_iff, Prod.mk.injEq, Prod.exists] at h
      obtain ⟨b, t, hb, rfl, rfl⟩ := h
      simp [ih hb]
  | case3 rest =>
      simp only [closeBrace, Option.some.injEq, Prod.mk.injEq] at h
      obtain ⟨rfl, rfl⟩ := h
      rfl
  | case4 rest d ih =>
      simp only [closeBrace, Option.map_eq_some_iff, Prod.mk.injEq, Prod.exists] at h
      obtain ⟨b, t, hb, rfl, rfl⟩ := h
      simp [ih hb]
  | case5 depth c rest h1 h2 ih =>
      rw [closeBrace.eq_5 depth c rest h1 h2] at h
      simp only [Option.map_eq_some_iff, Prod.mk.injEq, Prod.exists] at h
      obtain ⟨b, t, hb, rfl, rfl⟩ := h
      simp [ih hb]

set_option linter.unusedVariables false in
/-- Expands `rest`, the part of the template `whole` that is still to be read. -/
def expandFrom (lookup : Lookup) (whole rest : List Char) : Except Fault (List Char) :=
  let literal := rest.takeWhile (· != '$')
  match hrest : rest.dropWhile (· != '$') with
  | [] => .ok literal
  | _ :: '$' :: tail => do
      let more ← expandFrom lookup whole tail
      return literal ++ '$' :: more
  | _ :: '\x7b' :: inner =>
      match hclose : closeBrace 0 inner with
      | none => .error (.unterminated (String.ofList whole))
      | some (body, tail) =>
          match hread : Reference.read body with
          | .error fault => .error fault
          | .ok reference =>
              match hchoose : reference.choose lookup with
              | .text value => do
                  let more ← expandFrom lookup whole tail
                  return literal ++ value ++ more
              | .expand template => do
                  let value ← expandFrom lookup template template
                  let more ← expandFrom lookup whole tail
                  return literal ++ value ++ more
              | .missing reason => .error (.missing reference.name (String.ofList reason))
  | _ :: after =>
      match hname : readName after with
      | some (name, tail) => do
          let more ← expandFrom lookup whole tail
          return literal ++ valueText (lookup (String.ofList name)) ++ more
      | none => do
          let more ← expandFrom lookup whole after
          return literal ++ '$' :: more
termination_by rest.length
decreasing_by
  all_goals
    have hlen := (List.dropWhile_sublist (l := rest) (· != '$')).length_le
    rw [hrest] at hlen
    simp only [List.length_cons] at hlen
  · omega
  · have := congrArg List.length (closeBrace_eq_some hclose)
    simp at this
    omega
  · have := congrArg List.length (closeBrace_eq_some hclose)
    have := length_choose_expand hread hchoose
    simp at *
    omega
  · have := congrArg List.length (closeBrace_eq_some hclose)
    simp at this
    omega
  · have := length_readName hname
    omega
  · omega

/-- Expands the references of a template. -/
def expand (lookup : Lookup) (template : String) : Except Fault String :=
  (expandFrom lookup template.toList template.toList).map String.ofList

end Template
end Stackwright
