import JsonPath.Command

/-!
The program: reads the document that the command asks for and writes what it leaves behind.
-/

namespace JsonPath

/-- The fault that an error of the system stands for. -/
def systemFault : IO.Error → Command.DocumentFault
  | .noFileOrDirectory .. => .notFound
  | .permissionDenied .. => .accessDenied
  | .inappropriateType .. => .isDirectory
  | e => .system (toString e) 0

/-- The text that an action reads. -/
def readText (action : IO ByteArray) : IO (Except Command.DocumentFault String) := do
  try
    match String.fromUTF8? (← action) with
    | some text => return .ok text
    | none => return .error .notText
  catch e => return .error (systemFault e)

end JsonPath

open JsonPath in
def main (arguments : List String) : IO UInt32 := do
  let outcome ← match Command.plan arguments with
    | .finished outcome => pure outcome
    | .evaluate q file =>
      let bytes := match file with
        | none => do (← IO.getStdin).readBinToEnd
        | some name => IO.FS.readBinFile name
      Command.evaluate q <$> readText bytes
  for line in outcome.complaints do IO.eprintln line
  for line in outcome.output do IO.println line
  return outcome.code.toUInt32
