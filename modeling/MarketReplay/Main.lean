/-
The program: reads the files that the arguments name, carries the command out
and prints the reply.
-/
import MarketReplay.CommandLine
import MarketReplay.Text.Utf8
import Std.Time.DateTime.Timestamp

namespace MarketReplay.CommandLine

/-- What a failed read says of the file. A wrong kind of file and a bad
argument each cover several causes, which the number of the cause tells apart;
some calls give it with a minus sign. -/
def faultOf : IO.Error → FileFault
  | .noFileOrDirectory _ _ _ => .notFound
  | .permissionDenied _ _ _ => .denied
  | .inappropriateType _ number _ =>
      if number.toInt32.toInt.natAbs = 20 then .notDirectory else .isDirectory
  | .invalidArgument _ number reason =>
      if number.toInt32.toInt.natAbs = 36 then .nameTooLong else .other reason
  | error => .other (toString error)

/-- The contents of a file, or why they cannot be had. -/
def readFile (path : String) : IO (Except FileFault String) := do
  try
    let bytes ← IO.FS.readBinFile path
    match Utf8.decode? bytes.toList with
    | some text => return .ok text
    | none => return .error .notText
  catch error => return .error (faultOf error)

/-- Answers from files that were read before. -/
def readFrom (contents : List (String × Except FileFault String)) (path : String) :
    Except FileFault String :=
  (contents.lookup path).getD (.error .notFound)

end MarketReplay.CommandLine

open MarketReplay.CommandLine in
/-- Carries out one command. -/
def main (arguments : List String) : IO UInt32 := do
  let command := Command.ofArguments arguments
  let contents ← command.files.mapM fun path => return (path, ← readFile path)
  let now ← Std.Time.Timestamp.now
  let started ← IO.monoMsNow
  let reply := command.execute (readFrom contents) now.toSecondsSinceUnixEpoch.val
  if let some complaint := reply.complaint then IO.eprintln complaint
  let finished ← IO.monoMsNow
  IO.print (reply.output (finished - started))
  return reply.code.toUInt32
