import PredicateLang.CommandLine.Arguments

set_option autoImplicit false

namespace PredicateLang

def readFile (path : String) : IO FileContent := do
  match ← (IO.FS.Handle.mk path .read).toBaseIO with
  | .error _ => return .missing
  | .ok handle =>
      match ← handle.readBinToEnd.toBaseIO with
      | .error _ => return .unreadable
      | .ok content => return .bytes content.toList

partial def readAll (stream : IO.FS.Stream) (before : ByteArray) : IO ByteArray := do
  let chunk ← stream.read 65536
  if chunk.isEmpty then return before
  readAll stream (before ++ chunk)

def fetchFor (command : Command) : IO Surroundings := do
  let files ← command.paths.mapM fun path => do return (path, ← readFile path)
  let input ← if command.readsInput then readAll (← IO.getStdin) .empty else pure .empty
  return ⟨fun path => (Fields.get? path files).getD .missing, input.toList⟩

end PredicateLang

open PredicateLang in
def main (arguments : List String) : IO UInt32 := do
  let surroundings ← match Command.ofArguments arguments with
    | .ok command => fetchFor command
    | .error _ => pure ⟨fun _ => .missing, []⟩
  match answerTo surroundings arguments with
  | .ok answer =>
      IO.print answer.text
      return answer.code.toUInt32
  | .error fault =>
      IO.eprintln ("error: " ++ fault.message)
      return 1
