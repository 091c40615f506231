import Mathlib
import Stackwright.Program.Blanking

/-!
# Balanced brackets

A word of brackets is balanced if it can be built from pairs of brackets around balanced
words.  Reading it with a stack of open brackets decides that.

Main results:

- Theorem `Balanced.nest_append`: a balanced word leaves the open brackets as they are.
- Theorem `nest_eq_some_nil_iff`: a word is balanced exactly if nothing is open after it.
-/

namespace Stackwright
namespace Program

/-- The brackets of each kind, the opening one first. -/
def bracketPairs : List (Char × Char) :=
  [('(', ')'), ('[', ']'), ('\x7b', '\x7d')]

/-- Words of brackets that match. -/
inductive Balanced : List Char → Prop
  | nil : Balanced []
  | pair {opening closing : Char} {a b : List Char} (h : (opening, closing) ∈ bracketPairs)
      (ha : Balanced a) (hb : Balanced b) : Balanced (opening :: (a ++ closing :: b))

/-- Whether a character is a bracket. -/
def isBracket (c : Char) : Bool :=
  isOpening c || isClosing c

/-- Reads a bracket with the open ones, the innermost first. -/
def nestStep (stack : List Char) (c : Char) : Option (List Char) :=
  if isOpening c then some (c :: stack)
  else
    match stack with
    | [] => none
    | b :: rest => if b = openingOf c then some rest else none

/-- The brackets that are open after a word. -/
def nest (stack word : List Char) : Option (List Char) :=
  word.foldlM nestStep stack

theorem nest_nil (stack : List Char) : nest stack [] = some stack :=
  rfl

theorem nest_cons (stack : List Char) (c : Char) (word : List Char) :
    nest stack (c :: word) = (nestStep stack c).bind (nest · word) :=
  rfl

/-- Nesting a text in two parts goes on with the brackets that the first one leaves open. -/
theorem nest_append (stack a b : List Char) :
    nest stack (a ++ b) = (nest stack a).bind (nest · b) :=
  List.foldlM_append

/-- A closing bracket takes away the opening one of its pair. -/
theorem nestStep_of_pair {opening closing : Char} (h : (opening, closing) ∈ bracketPairs)
    (stack : List Char) :
    nestStep stack opening = some (opening :: stack) ∧
      nestStep (opening :: stack) closing = some stack := by
  simp only [bracketPairs, List.mem_cons, Prod.mk.injEq, List.not_mem_nil, or_false] at h
  rcases h with ⟨rfl, rfl⟩ | ⟨rfl, rfl⟩ | ⟨rfl, rfl⟩ <;> exact ⟨rfl, rfl⟩

/-- Every closing bracket belongs to a pair. -/
theorem pair_of_isClosing {c : Char} (hopen : isOpening c = false) (h : isBracket c = true) :
    (openingOf c, c) ∈ bracketPairs := by
  simp only [isBracket, hopen, isClosing, Bool.false_or, Bool.or_eq_true, beq_iff_eq] at h
  rcases h with (rfl | rfl) | rfl <;> decide

/-- A balanced word leaves the open brackets as they are. -/
theorem Balanced.nest_append {word : List Char} (h : Balanced word) (stack rest : List Char) :
    nest stack (word ++ rest) = nest stack rest := by
  induction h generalizing stack rest with
  | nil => rfl
  | pair hpair _ _ iha ihb =>
      obtain ⟨hopens, hcloses⟩ := nestStep_of_pair hpair stack
      rw [List.cons_append, List.append_assoc, List.cons_append, nest_cons, hopens, Option.bind_some,
        iha, nest_cons, hcloses, Option.bind_some, ihb]

/-- Words that close the open brackets, with balanced words around the brackets that do. -/
inductive Closes : List Char → List Char → Prop
  | nil {word : List Char} (h : Balanced word) : Closes [] word
  | cons {opening closing : Char} {stack a b : List Char} (h : (opening, closing) ∈ bracketPairs)
      (ha : Balanced a) (hb : Closes stack b) : Closes (opening :: stack) (a ++ closing :: b)

/-- A pair of brackets in front closes nothing else. -/
theorem Closes.pair {opening closing : Char} {stack a b : List Char}
    (h : (opening, closing) ∈ bracketPairs) (ha : Balanced a) (hb : Closes stack b) :
    Closes stack (opening :: (a ++ closing :: b)) := by
  cases hb with
  | nil hb => exact .nil (.pair h ha hb)
  | cons h' hb hc =>
      have hfront := Closes.cons h' (.pair h ha hb) hc
      simpa using hfront

/-- A word after which nothing is open closes all that was open before it. -/
theorem closes_of_nest {stack word : List Char} (hword : ∀ c ∈ word, isBracket c = true)
    (h : nest stack word = some []) : Closes stack word := by
  induction word generalizing stack with
  | nil =>
      cases h
      exact .nil .nil
  | cons c rest ih =>
      rw [List.forall_mem_cons] at hword
      rw [nest_cons, Option.bind_eq_some_iff] at h
      obtain ⟨next, hstep, h⟩ := h
      have hrest := ih hword.2 h
      unfold nestStep at hstep
      split at hstep
      · cases hstep
        cases hrest with
        | cons hpair ha hb => exact .pair hpair ha hb
      · rename_i hopen
        split at hstep
        · cases hstep
        · split at hstep
          · rename_i hmatch
            cases hstep
            rw [hmatch]
            exact .cons (pair_of_isClosing (by simpa using hopen) hword.1) .nil hrest
          · cases hstep

/-- A word of brackets is balanced exactly if nothing is open after it. -/
theorem nest_eq_some_nil_iff {word : List Char} (hword : ∀ c ∈ word, isBracket c = true) :
    nest [] word = some [] ↔ Balanced word := by
  refine ⟨fun h => ?_, fun h => ?_⟩
  · cases closes_of_nest hword h with
    | nil hbalanced => exact hbalanced
  · rw [← List.append_nil word, h.nest_append, nest_nil]

end Program
end Stackwright
