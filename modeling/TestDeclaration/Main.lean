import Std.Time.DateTime.Timestamp
import TestDeclaration.CommandLine

/-!
# The program

Reads the arguments, the clock and the file, and prints the response.
-/

open TestDeclaration TestDeclaration.CommandLine

/-- Read a file as text. -/
def readSource (path : String) : IO (Except ReadError String) := do
  try
    match String.fromUTF8? (← IO.FS.readBinFile path) with
    | some text => return .ok text
    | none => return .error .unreadable
  catch
    | .noFileOrDirectory .. => return .error .notFound
    | _ => return .error .unreadable

/-- Run the program. -/
def main (arguments : List String) : IO UInt32 := do
  let directory := (← IO.currentDir).toString
  let now := (← Std.Time.Timestamp.now).toSecondsSinceUnixEpoch.val
  let response ← respond directory readSource ⟨now⟩ arguments
  for text in response.printed do
    IO.println text
  for text in response.errors do
    IO.eprintln text
  return response.exitCode
