import Stackwright.Builder.Assembly
import Stackwright.Command.Formatter
import Stackwright.Decode.Fault
import Stackwright.Document.Problem
import Stackwright.Dotenv
import Stackwright.Files.Tree
import Stackwright.Program.Blanking
import Stackwright.Program.Printer
import Stackwright.Template.Reference

/-!
# Errors

What can go wrong between a descriptor and its program, with one wording for each cause.
-/

namespace Stackwright

/-- Why a text is no descriptor. -/
inductive DescriptorFault where
  /-- The text is no document. -/
  | document (problem : Document.Problem)
  /-- The document does not describe a project. -/
  | content (fault : Decode.Fault)
deriving DecidableEq, Repr

/-- The wording of a fault. -/
def DescriptorFault.message : DescriptorFault → String
  | .document problem => problem.message
  | .content fault => fault.message

/-- Why no program could be generated. -/
inductive Error where
  /-- A file could not be read. -/
  | io (path : String) (fault : IoFault)
  /-- A file, or the merge of several, is no descriptor. -/
  | descriptor (path : String) (fault : DescriptorFault)
  | interpolation (fault : Template.Fault)
  /-- There is no file to read. -/
  | noFiles
  | dotenv (fault : Dotenv.Fault)
  | collision (collision : NameCollision)
  | render (fault : Program.RenderFault)
  | format (fault : Program.FormatFault)
  | formatter (fault : FormatterFault)
deriving DecidableEq

/-- The wording of an error. -/
def Error.message : Error → String
  | .io path fault => "I/O error at " ++ path ++ ": " ++ fault.message
  | .descriptor path fault => "invalid descriptor " ++ path ++ ": " ++ fault.message
  | .interpolation fault => "interpolation error: " ++ fault.message
  | .noFiles => "invalid configuration: no descriptor files given"
  | .dotenv fault => "invalid configuration: " ++ fault.message
  | .collision shared => shared.message
  | .render fault => "render error: " ++ fault.message
  | .format fault => "format error: " ++ fault.message
  | .formatter fault => "format error: " ++ fault.message

end Stackwright
