import Stackwright.Error
import Stackwright.Program.Canonical

/-!
# Generating programs

The program of a project is assembled, printed and brought into canonical form. A failure at any stage
leaves no text. A generator that is built with checks stops where a number overflows; one that is built
without them goes on with the number that wrapped around.
-/

namespace Stackwright
namespace Project

/-- The text of the program of a project, as it is printed. -/
def source (p : Project) (options : GenerateOptions) : Except Error (List Char) :=
  match p.assemble options with
  | .error collision => .error (.collision collision)
  | .ok file => (file.print options.apiModule).mapError .render

/-- The text of the program of a project, in canonical form. -/
def generate (p : Project) (options : GenerateOptions) : Except Error (List Char) := do
  let text ← p.source options
  (Program.canonicalize text).mapError .format

/-- The text of the program of a project, in canonical form and then in the layout of a formatter. -/
def generateWith (formatter : Formatter) (p : Project) (options : GenerateOptions) :
    Except Error (List Char) := do
  let text ← p.generate options
  (formatter.format text).mapError .formatter

/-- How the generator is built. -/
inductive BuildMode where
  /-- An overflow stops the generator. -/
  | checked
  /-- An overflow wraps around. -/
  | unchecked
deriving DecidableEq, Repr

/-- What becomes of a call of the generator. -/
inductive Ending where
  /-- The generator stopped at an overflow. -/
  | stopped
  /-- The generator returned. -/
  | returned (result : Except Error (List Char))

/-- Generates a program with a generator that is built in some mode. The services are the first thing that it
works on, and their delays are the only numbers that can overflow. -/
def generateIn (mode : BuildMode) (p : Project) (options : GenerateOptions) : Ending :=
  match mode, p.overflows with
  | .checked, true => .stopped
  | _, _ => .returned (p.generate options)

end Project
end Stackwright
