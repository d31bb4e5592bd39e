import Sequencer.CommandLine.Reply

/-!
# The program

Reads what an order names, and carries out the reply: the log and the errors go to the second
output, a timeline is played in real time.
-/

namespace Sequencer.Main

open CommandLine

/-- The number of a system error, which some calls give negated. -/
def errorNumber (code : UInt32) : UInt32 := if code < 0x80000000 then code else 0 - code

def fileError : IO.Error → FileError
  | .noFileOrDirectory _ _ _ => .notFound
  | .permissionDenied _ _ _ => .permissionDenied
  | .inappropriateType _ code _ => if errorNumber code = 20 then .notDirectory else .isDirectory
  | error@(.invalidArgument _ code _) =>
    if errorNumber code = 36 then .nameTooLong else .other error.toString
  | error => .other error.toString

def readFile (path : String) : IO (Except FileError String) := do
  try
    let content ← IO.FS.readBinFile path
    match String.fromUTF8? content with
    | some text => return .ok text
    | none => return .error .notText
  catch error => return .error (fileError error)

def readUserSettings : IO (Except FileError String) := do
  match ← IO.getEnv "HOME" with
  | some home => readFile (home ++ "/" ++ userSettingsPath)
  | none => return .error .notFound

def surroundings (arguments : List String) : IO Surroundings := do
  let paths := match Order.read arguments with
    | .ok order => order.paths
    | .error _ => []
  let contents ← paths.mapM fun path => return (path, ← readFile path)
  return {
    read := fun path => (contents.lookup path).getD (.error .notFound)
    userSettings := ← readUserSettings
    logFilter := ← IO.getEnv "RUST_LOG" }

/-- The longest time between two polls, in milliseconds. -/
def tick : Float := 20

/-- Polls the clock until playback comes to an end. -/
partial def playOut (playback : Playback Float) (begun : Nat) : IO Outcome := do
  let now := Float.ofNat ((← IO.monoNanosNow) - begun) / 1000000000
  let (events, next) := playback.poll true now
  for event in events do IO.println event.text
  (← IO.getStdout).flush
  match next.outcome with
  | some outcome => return outcome
  | none =>
    let pause := Arithmetic.clamp 0 tick (next.wait now * 1000)
    IO.sleep pause.toUInt32
    playOut next begun

def write (path content : String) : IO (Option Reply) := do
  try
    IO.FS.writeFile path content
    return none
  catch error => return some (.unwritable path (fileError error))

partial def carryOut (reply : Reply) : IO UInt32 := do
  for line in reply.log do IO.eprintln s!"[{line.level.name}] {line.message}"
  IO.print reply.output
  IO.eprint reply.errors
  if let some timeline := reply.playing then
    IO.print (closing (← playOut (.start timeline) (← IO.monoNanosNow)))
  match reply.written with
  | none => return reply.exit.toUInt32
  | some (path, content) =>
    match ← write path content with
    | none => return reply.exit.toUInt32
    | some failed => carryOut failed

end Sequencer.Main

def main (arguments : List String) : IO UInt32 := do
  Sequencer.Main.carryOut
    (Sequencer.CommandLine.reply (← Sequencer.Main.surroundings arguments) arguments)
