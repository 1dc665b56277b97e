import TieredPool.CommandLine
import TieredPool.Toml.Parse
import TieredPool.Url.Parse

/-!
# Main — the program

Reads the arguments and the file, and prints what the command gives.
-/

namespace TieredPool

/-- The content of a file, or why it cannot be had. -/
def readFile (path : String) : IO (Except FileError ByteArray) := do
  try
    return .ok (← IO.FS.readBinFile path)
  catch
    | .noFileOrDirectory .. => return .error .notFound
    | e => return .error (.system 0 "Other" (toString e))

end TieredPool

def main (args : List String) : IO UInt32 := do
  let exit ←
    match TieredPool.Command.parse args with
    | .error why => pure why.exit
    | .ok command =>
        let file ← TieredPool.readFile command.config
        pure (command.run TieredPool.Toml.reader .ascii ⟨← IO.monoNanosNow⟩ file)
  IO.print exit.stdout
  IO.eprint exit.stderr
  return exit.code.toUInt32
