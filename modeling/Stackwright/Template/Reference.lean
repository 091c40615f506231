import Stackwright.Text.Inspect

/-!
# References in a template

A reference names a variable and may say what to do when the variable is set or unset: fall back to a
default, insist on a value, or use an alternate text. This module reads the text between the braces of a
reference and decides, for given variables, what the reference stands for.
-/

namespace Stackwright
namespace Template

/-- The values of variables; a variable without a value is unset. -/
abbrev Lookup := String → Option String

/-- Why a template could not be expanded. -/
inductive Fault where
  /-- A reference in this text is not closed. -/
  | unterminated (text : String)
  /-- The text between the braces does not start with a name. -/
  | badName (body : String)
  /-- The name is followed by something that is no operator. -/
  | badModifier (body : String)
  /-- A variable that must have a value has none; the reason is the template's own. -/
  | missing (name reason : String)
deriving DecidableEq, Repr

/-- A text between the braces of a reference. -/
def braced (body : String) : String :=
  "$\x7b" ++ body ++ "\x7d"

/-- The wording of a fault. -/
def Fault.message : Fault → String
  | .unterminated text => "unterminated variable reference in " ++ Text.inspectString text
  | .badName body => "invalid variable name in " ++ braced body
  | .badModifier body => "invalid modifier in " ++ braced body
  | .missing name reason =>
      "required variable " ++ name ++ " is missing a value"
        ++ (if reason.isEmpty then "" else ": " ++ reason)

/-- Whether a character can start a variable name. -/
def isNameStart (c : Char) : Bool :=
  c.isAlpha || c == '_'

/-- Whether a character can continue a variable name. -/
def isNameChar (c : Char) : Bool :=
  c.isAlphanum || c == '_'

/-- The variable name at the front of a text, and the text after it. -/
def readName (s : List Char) : Option (List Char × List Char) :=
  match s with
  | [] => none
  | c :: _ => if isNameStart c then some (s.takeWhile isNameChar, s.dropWhile isNameChar) else none

/-- What a modifier does. -/
inductive Action where
  | fallback
  | require
  | alternate
deriving DecidableEq, Repr

/-- An operator after the variable name; a strict one treats an empty value like an unset variable. -/
structure Modifier where
  action : Action
  strict : Bool
deriving DecidableEq, Repr

/-- The action an operator character stands for. -/
def readAction (c : Char) : Option Action :=
  if c = '-' then some .fallback
  else if c = '?' then some .require
  else if c = '+' then some .alternate
  else none

/-- The operator at the front of a text, and its argument. -/
def readModifier (s : List Char) : Option (Modifier × List Char) :=
  match s with
  | ':' :: c :: rest => (readAction c).map fun action => (⟨action, true⟩, rest)
  | c :: rest => (readAction c).map fun action => (⟨action, false⟩, rest)
  | [] => none

/-- A reference: a name, and perhaps an operator with its argument. -/
structure Reference where
  name : String
  modifier : Option (Modifier × List Char)
deriving DecidableEq, Repr

/-- Reads the text between the braces of a reference. -/
def Reference.read (body : List Char) : Except Fault Reference :=
  match readName body with
  | none => .error (.badName (String.ofList body))
  | some (name, []) => .ok ⟨String.ofList name, none⟩
  | some (name, rest) =>
      match readModifier rest with
      | none => .error (.badModifier (String.ofList body))
      | some modifier => .ok ⟨String.ofList name, some modifier⟩

/-- What a reference stands for: a text as it is, a template still to expand, or nothing at all. -/
inductive Choice where
  | text (value : List Char)
  | expand (template : List Char)
  | missing (reason : List Char)
deriving DecidableEq, Repr

/-- Whether a modifier sees the variable as unset. -/
def Modifier.isUnset (m : Modifier) : Option String → Bool
  | none => true
  | some value => m.strict && value.isEmpty

/-- The characters of a value; an unset variable has none. -/
def valueText (value : Option String) : List Char :=
  (value.getD "").toList

/-- Decides what a reference stands for. -/
def Reference.choose (r : Reference) (lookup : Lookup) : Choice :=
  let value := lookup r.name
  match r.modifier with
  | none => .text (valueText value)
  | some (m, argument) =>
      match m.action, m.isUnset value with
      | .fallback, true => .expand argument
      | .fallback, false => .text (valueText value)
      | .require, true => .missing argument
      | .require, false => .text (valueText value)
      | .alternate, true => .text []
      | .alternate, false => .expand argument

/-- The argument of an operator is no longer than the text it was read from. -/
theorem length_readModifier {s argument : List Char} {m : Modifier}
    (h : readModifier s = some (m, argument)) : argument.length ≤ s.length := by
  unfold readModifier at h
  split at h
  · rename_i c rest
    cases hc : readAction c <;> simp [hc] at h
    simp [← h.2]
    omega
  · rename_i c rest _
    cases hc : readAction c <;> simp [hc] at h
    simp [← h.2]
  · simp at h

/-- The text after a name is no longer than the text before it. -/
theorem length_readName {s name rest : List Char} (h : readName s = some (name, rest)) :
    rest.length ≤ s.length := by
  unfold readName at h
  split at h
  · simp at h
  · split at h
    · simp only [Option.some.injEq, Prod.mk.injEq] at h
      rw [← h.2]
      exact (List.dropWhile_sublist _).length_le
    · simp at h

/-- An argument that is to be expanded is no longer than the reference it stands in. -/
theorem length_choose_expand {body template : List Char} {r : Reference} {lookup : Lookup}
    (hr : Reference.read body = .ok r) (hc : r.choose lookup = .expand template) :
    template.length ≤ body.length := by
  unfold Reference.read at hr
  split at hr
  · simp at hr
  · simp only [Except.ok.injEq] at hr
    subst hr
    simp [Reference.choose] at hc
  · rename_i name rest _ hname
    split at hr
    · simp at hr
    · rename_i m hm
      obtain ⟨m, argument⟩ := m
      simp only [Except.ok.injEq] at hr
      subst hr
      have hlen := Nat.le_trans (length_readModifier hm) (length_readName hname)
      have harg : template = argument := by
        simp only [Reference.choose] at hc
        split at hc <;> simp_all
      exact harg ▸ hlen

end Template
end Stackwright
