import Stackwright.Proofs.Program.Layout

/-!
# Writing expressions with a pen

A pen holds the text written so far and the indentation of the next line.  Writing
an expression moves the pen along: it is raised for the arguments that get a line
each and for the calls of a chain, and lowered after them.

The text that `Expr.print` gives takes the indentation as a parameter.  Both come
to the same: the pen writes the printed text, stops where printing fails, and comes
back at the indentation at which it started.

Main results:

- Theorem `Expr.writeItems_eq`: writing expressions one after the other writes their
  texts with what stands between them.
- Theorem `Expr.write_eq`: writing an expression is printing it at the indentation of
  the pen.
-/

namespace Stackwright
namespace Program

/-! ## Pens -/

/-- The text written so far, and the indentation of the next line. -/
structure Pen where
  text : List Char
  indent : Nat
deriving DecidableEq

namespace Pen

/-- Writes a text. -/
def write (pen : Pen) (text : List Char) : Pen :=
  { pen with text := pen.text ++ text }

/-- Starts a line. -/
def newline (pen : Pen) : Pen :=
  pen.write (Program.newline pen.indent)

/-- Indents the lines that follow by one more step. -/
def raise (pen : Pen) : Pen :=
  { pen with indent := pen.indent + 1 }

/-- Takes one step of indentation back. -/
def lower (pen : Pen) : Pen :=
  { pen with indent := pen.indent - 1 }

/-- Opens an argument list; if it gets a line for each argument, these are indented. -/
def openArgs (pen : Pen) (broken : Bool) : Pen :=
  if broken then (pen.write ['(']).raise else pen.write ['(']

/-- Closes an argument list. -/
def closeArgs (pen : Pen) (broken : Bool) : Pen :=
  if broken then pen.lower.newline.write [')'] else pen.write [')']

/-- Goes to the place of the next argument. -/
def beforeArg (pen : Pen) (broken first : Bool) : Pen :=
  if broken then pen.newline else if first then pen else pen.write [',', ' ']

/-- Ends an argument. -/
def afterArg (pen : Pen) (broken : Bool) : Pen :=
  if broken then pen.write [','] else pen

/-- Texts that are written one after the other are one text. -/
@[simp]
theorem write_write (pen : Pen) (a b : List Char) :
    (pen.write a).write b = pen.write (a ++ b) := by
  simp [write]

@[simp]
theorem write_nil (pen : Pen) : pen.write [] = pen := by
  simp [write]

@[simp]
theorem indent_write (pen : Pen) (text : List Char) : (pen.write text).indent = pen.indent :=
  rfl

@[simp]
theorem indent_raise (pen : Pen) : pen.raise.indent = pen.indent + 1 :=
  rfl

/-- Writing deeper and coming back is writing. -/
@[simp]
theorem raise_write_lower (pen : Pen) (text : List Char) :
    (pen.raise.write text).lower = pen.write text :=
  rfl

end Pen

/-- One parenthesis, if it is needed. -/
def parenthesisIf (needed : Bool) (c : Char) : List Char :=
  if needed then [c] else []

/-! ## Writing -/

namespace Expr

mutual
/-- Writes an expression at a nesting depth. -/
def write (depth : Nat) : Expr → Pen → Except RenderFault Pen
  | .call name args, pen => do
      let text ← printName name
      let broken := breaksLines none name args depth
      let pen ← writeArgs broken true (depth + 1) args ((pen.write text).openArgs broken)
      return pen.closeArgs broken
  | .packageCall package name args, pen => do
      let text ← printName name
      let broken := breaksLines (some package) name args depth
      let pen ← writeArgs broken true (depth + 1) args
        ((pen.write (qualifier package ++ text)).openArgs broken)
      return pen.closeArgs broken
  | .methodCall receiver name args, pen =>
      let broken := breaksLines none name args depth
      if receiver.isCall then do
        let pen ← receiver.write depth pen
        let text ← printName name
        let pen := (pen.raise.write ['.']).newline.write text
        let pen ← writeArgs broken true (depth + 1) args (pen.openArgs broken)
        return (pen.closeArgs broken).lower
      else do
        let text ← printName name
        let pen ← receiver.write depth pen
        let pen ← writeArgs broken true (depth + 1) args
          ((pen.write ('.' :: text)).openArgs broken)
        return pen.closeArgs broken
  | .ident name, pen => (printName name).map pen.write
  | .qualified package name, pen => do
      let name ← printName name
      return pen.write (qualifier package ++ name)
  | .literal value, pen => value.print.map pen.write
  | .list element items, pen => do
      let element ← element.print
      let pen ← writeItems false true (depth + 1) items
        (pen.write ('[' :: ']' :: element ++ ['\x7b']))
      return pen.write ['\x7d']
  | .map key value entries, pen => do
      let key ← key.print
      let value ← value.print
      let pen ← writeEntries true (depth + 1) entries
        (pen.write ("map[".toList ++ key ++ ']' :: value ++ ['\x7b']))
      return pen.write ['\x7d']
  | .group _, _ => .error .strayGroup
  | .type value, pen => value.print.map pen.write
  | .unary op operand, pen => do
      let pen ← operand.write depth (pen.write (op.symbol ++ parenthesisIf operand.isBinary '('))
      return pen.write (parenthesisIf operand.isBinary ')')
  | .binary op left right, pen => do
      let pen ← left.write depth (pen.write (parenthesisIf (left.bindsBelow op.precedence) '('))
      let pen ← right.write depth (pen.write (parenthesisIf (left.bindsBelow op.precedence) ')'
        ++ op.symbol ++ parenthesisIf (right.bindsBelow op.precedence) '('))
      return pen.write (parenthesisIf (right.bindsBelow op.precedence) ')')

/-- Writes the arguments of a call, with groups spliced in; `first` says that none has been
written yet. -/
def writeArgs (broken first : Bool) (depth : Nat) : List Expr → Pen → Except RenderFault Pen
  | [], pen => .ok pen
  | .group items :: rest, pen => do
      let pen ← writeArgs broken first depth items pen
      writeArgs broken (first && (splice items).isEmpty) depth rest pen
  | e :: rest, pen => do
      let pen ← e.write depth (pen.beforeArg broken first)
      writeArgs broken false depth rest (pen.afterArg broken)

/-- Writes expressions as they stand. -/
def writeItems (broken first : Bool) (depth : Nat) : List Expr → Pen → Except RenderFault Pen
  | [], pen => .ok pen
  | e :: rest, pen => do
      let pen ← e.write depth (pen.beforeArg broken first)
      writeItems broken false depth rest (pen.afterArg broken)

/-- Writes the entries of a map. -/
def writeEntries (first : Bool) (depth : Nat) : List (Expr × Expr) → Pen → Except RenderFault Pen
  | [], pen => .ok pen
  | (key, value) :: rest, pen => do
      let pen ← key.write depth (pen.beforeArg false first)
      let pen ← value.write depth (pen.write [':', ' '])
      writeEntries false depth rest pen
end

/-! ## Writing is printing -/

/-- Items are written in two parts if the second one knows whether it is the first. -/
theorem writeItems_append (broken first : Bool) (depth : Nat) (a b : List Expr) (pen : Pen) :
    writeItems broken first depth (a ++ b) pen = (do
      let pen ← writeItems broken first depth a pen
      writeItems broken (first && a.isEmpty) depth b pen) := by
  induction a generalizing first pen with
  | nil => simp [writeItems, bind, Except.bind]
  | cons e rest ih =>
      simp only [List.cons_append, writeItems, bind_assoc, ih, List.isEmpty_cons, Bool.and_false,
        Bool.false_and]

/-- Arguments are written one by one after splicing. -/
theorem writeArgs_eq (broken first : Bool) (depth : Nat) (args : List Expr) (pen : Pen) :
    writeArgs broken first depth args pen = writeItems broken first depth (splice args) pen := by
  induction args using argsInduction generalizing first pen with
  | nil => simp [writeArgs, writeItems]
  | group items rest ihitems ihrest =>
      simp only [writeArgs, splice_group_cons, writeItems_append, ihitems, ihrest]
  | cons e rest he ih =>
      rw [splice_cons he, writeArgs.eq_3 broken first depth pen e rest he, writeItems]
      simp only [ih]

/-- The text of arguments whose texts are given, with what stands between them. -/
def itemsText (broken first : Bool) (indent : Nat) (texts : List (List Char)) : List Char :=
  if broken then texts.flatMap fun text => newline indent ++ text ++ [',']
  else if first then commaSeparated texts
  else texts.flatMap fun text => ',' :: ' ' :: text

/-- All texts but the first have a comma in front. -/
theorem commaSeparated_cons (text : List Char) (texts : List (List Char)) :
    commaSeparated (text :: texts) = text ++ texts.flatMap fun text => ',' :: ' ' :: text := by
  induction texts generalizing text with
  | nil => simp [commaSeparated]
  | cons next texts ih =>
      have hnext := ih next
      simp only [commaSeparated, List.intercalate_cons_cons, List.flatMap_cons] at hnext ⊢
      rw [hnext]
      simp

/-- The place and the end of the first item are part of the text of the items. -/
theorem write_itemsText_cons (pen : Pen) (broken first : Bool) (text : List Char)
    (texts : List (List Char)) :
    (((pen.beforeArg broken first).write text).afterArg broken).write
        (itemsText broken false pen.indent texts)
      = pen.write (itemsText broken first pen.indent (text :: texts)) := by
  cases broken with
  | true => simp [Pen.beforeArg, Pen.afterArg, Pen.newline, itemsText]
  | false =>
      cases first with
      | true => simp [Pen.beforeArg, Pen.afterArg, itemsText, commaSeparated_cons]
      | false => simp [Pen.beforeArg, Pen.afterArg, itemsText]

theorem indent_beforeArg (pen : Pen) (broken first : Bool) :
    (pen.beforeArg broken first).indent = pen.indent := by
  unfold Pen.beforeArg
  split
  · rfl
  · split <;> rfl

theorem indent_afterArg (pen : Pen) (broken : Bool) :
    (pen.afterArg broken).indent = pen.indent := by
  unfold Pen.afterArg
  split <;> rfl

/-- Writing expressions one after the other writes their texts with what stands between
them. -/
theorem writeItems_eq {depth : Nat} {items : List Expr}
    (h : ∀ a ∈ items, ∀ pen, a.write depth pen = (a.print pen.indent depth).map pen.write)
    (broken first : Bool) (pen : Pen) :
    writeItems broken first depth items pen
      = (items.mapM (print pen.indent depth)).map fun texts =>
          pen.write (itemsText broken first pen.indent texts) := by
  induction items generalizing first pen with
  | nil =>
      cases broken <;> cases first <;>
        simp [writeItems, itemsText, commaSeparated, Except.map, pure, Except.pure]
  | cons e rest ih =>
      obtain ⟨he, hrest⟩ := List.forall_mem_cons.1 h
      rw [writeItems, he, indent_beforeArg, List.mapM_cons]
      cases e.print pen.indent depth with
      | error fault => rfl
      | ok text =>
          simp only [Except.map, bind, Except.bind]
          rw [ih hrest, indent_afterArg, Pen.indent_write, indent_beforeArg]
          cases rest.mapM (print pen.indent depth) with
          | error fault => rfl
          | ok texts => exact congrArg Except.ok (write_itemsText_cons pen broken first text texts)

/-- Writing the entries of a map writes the texts of their two sides with a colon between
them. -/
theorem writeEntries_eq {depth : Nat} {entries : List (Expr × Expr)}
    (h : ∀ entry ∈ entries, ∀ pen,
      entry.1.write depth pen = (entry.1.print pen.indent depth).map pen.write ∧
        entry.2.write depth pen = (entry.2.print pen.indent depth).map pen.write)
    (first : Bool) (pen : Pen) :
    writeEntries first depth entries pen
      = (printEntries pen.indent depth entries).map fun texts =>
          pen.write (itemsText false first pen.indent texts) := by
  induction entries generalizing first pen with
  | nil => cases first <;> simp [writeEntries, printEntries, itemsText, commaSeparated, Except.map]
  | cons entry rest ih =>
      obtain ⟨key, value⟩ := entry
      obtain ⟨hentry, hrest⟩ := List.forall_mem_cons.1 h
      rw [writeEntries, printEntries, (hentry _).1, indent_beforeArg]
      cases key.print pen.indent depth with
      | error fault => rfl
      | ok keyText =>
          simp only [Except.map, bind, Except.bind]
          rw [(hentry _).2, Pen.indent_write, Pen.indent_write, indent_beforeArg]
          cases value.print pen.indent depth with
          | error fault => rfl
          | ok valueText =>
              simp only [Except.map]
              rw [ih hrest, Pen.indent_write, Pen.indent_write, Pen.indent_write, indent_beforeArg]
              cases printEntries pen.indent depth rest with
              | error fault => rfl
              | ok texts =>
                  have hitem := write_itemsText_cons pen false first
                    (keyText ++ ':' :: ' ' :: valueText) texts
                  simpa [Pen.afterArg, Except.map, pure, Except.pure] using hitem

/-- An argument list is written as it is laid out, after what stands in front of it. -/
theorem writeArgs_closeArgs {depth : Nat} {args : List Expr}
    (h : ∀ a ∈ splice args, ∀ pen, a.write depth pen = (a.print pen.indent depth).map pen.write)
    (broken : Bool) (pen : Pen) (front : List Char) :
    (do
      let pen ← writeArgs broken true depth args ((pen.write front).openArgs broken)
      return pen.closeArgs broken : Except RenderFault Pen)
      = (do
          let args ← printArgs (argIndent pen.indent broken) depth args
          return front ++ layoutArgs pen.indent broken args : Printed).map pen.write := by
  rw [writeArgs_eq, writeItems_eq h, printArgs_eq]
  cases broken with
  | false =>
      simp only [Pen.openArgs, argIndent, Bool.false_eq_true, if_false, Pen.indent_write]
      cases (splice args).mapM (print pen.indent depth) with
      | error fault => rfl
      | ok texts =>
          simp [Except.map, bind, Except.bind, pure, Except.pure, Pen.closeArgs, itemsText,
            layoutArgs]
  | true =>
      simp only [Pen.openArgs, argIndent, if_true, Pen.indent_raise, Pen.indent_write]
      cases (splice args).mapM (print (pen.indent + 1) depth) with
      | error fault => rfl
      | ok texts =>
          simp [Except.map, bind, Except.bind, pure, Except.pure, Pen.closeArgs, itemsText,
            layoutArgs, Pen.newline]

/-- A pen that is lowered after the last step. -/
theorem map_lower_return {α : Type} (x : Except RenderFault α) (f : α → Pen) :
    (do
      let a ← x
      return f a : Except RenderFault Pen).map Pen.lower = (do
      let a ← x
      return (f a).lower) := by
  cases x <;> rfl

/-- A printed text that is written deeper is the same text. -/
theorem map_write_lower (x : Printed) (pen : Pen) :
    (x.map pen.raise.write).map Pen.lower = x.map pen.write := by
  cases x <;> rfl

/-- A text between parentheses that may not be needed. -/
theorem parenthesize_eq (needed : Bool) (text : List Char) :
    parenthesize needed text = parenthesisIf needed '(' ++ text ++ parenthesisIf needed ')' := by
  cases needed <;> simp [parenthesize, parenthesisIf]

/-- Writing an expression is printing it at the indentation of the pen, which comes back at
that indentation. -/
theorem write_eq (e : Expr) (depth : Nat) (pen : Pen) :
    e.write depth pen = (e.print pen.indent depth).map pen.write := by
  induction e using spliceInduction generalizing depth pen with
  | call name args ih =>
      rw [write, print]
      cases printName name with
      | error fault => rfl
      | ok text => exact writeArgs_closeArgs (fun a ha pen => ih a ha (depth + 1) pen) _ pen text
  | packageCall package name args ih =>
      rw [write, print]
      cases printName name with
      | error fault => rfl
      | ok text =>
          exact writeArgs_closeArgs (fun a ha pen => ih a ha (depth + 1) pen) _ pen
            (qualifier package ++ text)
  | methodCall receiver name args ihreceiver ih =>
      have hargs := fun broken pen front =>
        writeArgs_closeArgs (fun a ha pen => ih a ha (depth + 1) pen) broken pen front
      rw [write, print]
      cases hcall : receiver.isCall with
      | true =>
          simp only [if_true]
          rw [ihreceiver]
          cases receiver.print pen.indent depth with
          | error fault => rfl
          | ok head =>
              cases printName name with
              | error fault => rfl
              | ok text =>
                  -- The link is written by the raised pen, which is lowered after it.
                  have hstart : ((pen.write head).raise.write ['.']).newline.write text
                      = pen.raise.write (head ++ '.' :: newline (pen.indent + 1) ++ text) := by
                    simp [Pen.newline, Pen.write, Pen.raise]
                  have hlink := congrArg (Except.map Pen.lower)
                    (hargs (breaksLines none name args depth) pen.raise
                      (head ++ '.' :: newline (pen.indent + 1) ++ text))
                  rw [← hstart, map_lower_return, map_write_lower] at hlink
                  exact hlink
      | false =>
          simp only [Bool.false_eq_true, if_false]
          cases printName name with
          | error fault => rfl
          | ok text =>
              rw [ihreceiver]
              cases receiver.print pen.indent depth with
              | error fault => rfl
              | ok head =>
                  have htext := hargs (breaksLines none name args depth) pen (head ++ '.' :: text)
                  rw [← Pen.write_write] at htext
                  exact htext
  | ident name => rw [write, print]
  | qualified package name =>
      rw [write, print]
      cases printName name <;> rfl
  | literal value => rw [write, print]
  | list element items ih =>
      rw [write, print]
      cases element.print with
      | error fault => rfl
      | ok elementText =>
          have hitems := writeItems_eq (fun a ha pen => ih a ha (depth + 1) pen) false true
            (pen.write ('[' :: ']' :: elementText ++ ['\x7b']))
          simp only [bind, Except.bind] at hitems ⊢
          rw [hitems, printItems_eq, Pen.indent_write]
          cases items.mapM (print pen.indent (depth + 1)) <;>
            simp [Except.map, itemsText, pure, Except.pure]
  | map key value entries ih =>
      rw [write, print]
      cases key.print with
      | error fault => rfl
      | ok keyText =>
          cases value.print with
          | error fault => rfl
          | ok valueText =>
              have hentries := writeEntries_eq
                (fun entry he pen =>
                  ⟨(ih entry he).1 (depth + 1) pen, (ih entry he).2 (depth + 1) pen⟩)
                true (pen.write ("map[".toList ++ keyText ++ ']' :: valueText ++ ['\x7b']))
              simp only [bind, Except.bind] at hentries ⊢
              rw [hentries, Pen.indent_write]
              cases printEntries pen.indent (depth + 1) entries <;>
                simp [Except.map, itemsText, pure, Except.pure]
  | group items => rw [write, print]; rfl
  | type value => rw [write, print]
  | unary op operand ih =>
      rw [write, print, ih, Pen.indent_write]
      cases operand.print pen.indent depth <;>
        simp [Except.map, bind, Except.bind, pure, Except.pure, parenthesize_eq]
  | binary op left right ihleft ihright =>
      rw [write, print, ihleft, Pen.indent_write]
      cases left.print pen.indent depth with
      | error fault => rfl
      | ok leftText =>
          simp only [Except.map, bind, Except.bind]
          rw [ihright, Pen.indent_write, Pen.indent_write, Pen.indent_write]
          cases right.print pen.indent depth <;>
            simp [Except.map, pure, Except.pure, parenthesize_eq]

end Expr
end Program
end Stackwright
