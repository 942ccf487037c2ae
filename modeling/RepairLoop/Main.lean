import RepairLoop.Console.Perform
import RepairLoop.Rehearsal.Reading
/-!
# The program

The command line in a rehearsed world: the first line of the input describes the world
as an object, and what the program prints there is printed.
-/

namespace RepairLoop

/-- The world that a line describes; a bare one if the line describes none. -/
def describedWorld (line : String) : World :=
  let described := match Json.parse line with
    | .ok j => j
    | .error _ => .object []
  Rehearsal.worldOf described Rehearsal.projectRoot "dir" []

end RepairLoop

open RepairLoop

/-- Runs the program with the words of its command line. -/
def main (words : List String) : IO UInt32 := do
  let line ← (← IO.getStdin).getLine
  let (finished, _) := (Console.finish words).run (describedWorld line)
  (← IO.getStdout).putStr finished.output
  match finished.fault with
  | some f => (← IO.getStderr).putStrLn f.report
  | none => pure ()
  pure finished.code.toUInt32
