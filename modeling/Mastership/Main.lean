import Mastership.CommandLine
import Std.Time.DateTime.Timestamp

namespace Mastership.CommandLine

/-- What a path of the file system leads to. -/
def find (path : String) : IO Found := do
  try
    match String.fromUTF8? (← IO.FS.readBinFile path) with
    | some content => return .text content
    | none => return .unreadable
  catch
    | .noFileOrDirectory .. => return .missing
    | _ => return .unreadable

/-- The path of the settings file that a request is about. -/
def settingsPath : Request → String
  | .run invocation => invocation.config
  | _ => defaultFile

end Mastership.CommandLine

open Mastership.CommandLine

/-- The only part of the program that touches files, the clock and the streams. -/
def main (args : List String) : IO UInt32 := do
  let request := request args
  let found ← find (settingsPath request)
  let now ← Std.Time.Timestamp.now
  let start := now.toMillisecondsSinceUnixEpoch.val.toNat
  match perform (fun _ => found) start request with
  | .exit code output =>
    IO.print output
    return code.toUInt32
  | .save path content output =>
    try
      IO.FS.writeFile path content
      IO.print output
      return 0
    catch _ => return failure.toUInt32
