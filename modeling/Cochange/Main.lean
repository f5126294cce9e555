import Cochange.Program.Run

/-!
# The command line
-/

namespace Cochange

instance : Host IO where
  readFile path := do
    try
      return .bytes (← IO.FS.readBinFile path).toList
    catch
      | .noFileOrDirectory .. => return .absent
      | _ => return .unreadable
  input? := do
    let input ← IO.getStdin
    if ← input.isTty then return none
    return some (← input.readBinToEnd).toList
  showsColors := do
    return (← (← IO.getStdout).isTty) && (← IO.getEnv "NO_COLOR").isNone
  print := IO.print
  note := IO.eprint
  complain := IO.eprintln
  writeFile directory name content := do
    try
      if directory ≠ "" then IO.FS.createDirAll directory
      IO.FS.writeFile (Path.join directory name) content
      return true
    catch _ => return false

end Cochange

/-- Runs the program. -/
def main (args : List String) : IO UInt32 := do
  return UInt32.ofNat (← Cochange.Program.run args)
