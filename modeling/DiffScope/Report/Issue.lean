/-!
# Issues

What goes wrong with one file. Each issue is recorded as a tag; some are only warnings, since what
was found until then is kept.
-/

namespace DiffScope.Report

/-- Why the blocks of a component cannot be told apart. -/
inductive LayoutError where
  /-- The block that opens on a line is not closed. -/
  | unclosed (tag : String) (line : Nat)
  /-- The block that opens on a line is one too many of its kind. -/
  | duplicate (tag : String) (line : Nat)
  deriving DecidableEq, Repr

def LayoutError.message : LayoutError → String
  | unclosed tag line => "<" ++ tag ++ "> opened on line " ++ toString line ++ " is never closed"
  | duplicate tag line => "duplicate <" ++ tag ++ "> block on line " ++ toString line

/-- What goes wrong with one file. -/
inductive Issue where
  | fileNotReadable
  /-- The text cannot be made sense of. -/
  | parse (reason : String)
  /-- The tree cannot be searched. -/
  | traverse (reason : String)
  /-- The search was cut short at a depth. -/
  | depthExceeded (maxDepth : Nat)
  /-- A stage took longer than allowed. -/
  | timeout (stage : String) (milliseconds : Nat)
  | unsupportedFileType (extension : String)
  /-- So many syntax errors were passed over. -/
  | syntaxRecovered (errors : Nat)
  | unexpected (reason : String)
  deriving DecidableEq, Repr

namespace Issue

def kindName : Issue → String
  | fileNotReadable => "FileNotReadable"
  | parse _ => "Parse"
  | traverse _ => "Traverse"
  | depthExceeded _ => "DepthExceeded"
  | timeout .. => "Timeout"
  | unsupportedFileType _ => "UnsupportedFileType"
  | syntaxRecovered _ => "SyntaxRecovered"
  | unexpected _ => "Unexpected"

def tag : Issue → String
  | fileNotReadable => "file_not_readable"
  | parse reason => "parse_error: " ++ reason
  | traverse reason => "traverse_error: " ++ reason
  | depthExceeded maxDepth => "depth_exceeded: traversal stopped at depth " ++ toString maxDepth
  | timeout stage milliseconds =>
    "timeout: " ++ stage ++ " exceeded " ++ toString milliseconds ++ "ms"
  | unsupportedFileType _ => "unsupported_file_type"
  | syntaxRecovered errors =>
    "syntax_recovered: " ++ toString errors ++ " syntax error(s) tolerated"
  | unexpected reason => "unexpected_error: " ++ reason

def isWarning : Issue → Bool
  | depthExceeded _ | syntaxRecovered _ => true
  | _ => false

def ofLayout (e : LayoutError) : Issue :=
  parse ("component descriptor: " ++ e.message)

end Issue

end DiffScope.Report
