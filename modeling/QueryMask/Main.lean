import QueryMask.CommandLine.Report

/-! The program on the command line. -/

namespace QueryMask

namespace CommandLine

/-- What an error says about a file. The system numbers the reading of a folder 21. -/
def faultOf : IO.Error → FileFault
  | .noFileOrDirectory .. => .missing
  | .inappropriateType _ 21 _ => .isFolder
  | .inappropriateType .. => .notFolder
  | .invalidArgument _ _ "name too long" => .nameTooLong
  | error => .stated (toString error)

def readText (name : String) : IO (Except FileFault String) := do
  try
    return .ok (← IO.FS.readFile name)
  catch error => return .error (faultOf error)

def readTexts : List String → IO (List (String × Except FileFault String))
  | [] => return []
  | name :: rest => do
    let text ← readText name
    return (name, text) :: (← readTexts rest)

end CommandLine

end QueryMask

open QueryMask.CommandLine in
/-- Runs the program on the files that its arguments name. -/
def main (arguments : List String) : IO UInt32 := do
  let names := (Command.ofArguments arguments).toOption.elim [] Command.files
  let texts ← readTexts names
  let report := run (fun name => (texts.lookup name).getD (.error .missing)) arguments
  IO.print report.output
  report.complaint?.forM IO.eprintln
  return report.status.toUInt32
