import KeyCodec.Tour

/-!
# The command line

Runs the tour: its text goes to standard output, its notices to standard error.
-/

namespace KeyCodec

def runTour : IO Unit := do
  let printed := Tour.full
  for notice in printed.notices do
    IO.eprintln notice.text
  match printed.text with
  | .ok text => IO.print text
  | .error _ => throw (IO.userError "the tour did not finish")

end KeyCodec

def main (_arguments : List String) : IO UInt32 := do
  KeyCodec.runTour
  return 0
