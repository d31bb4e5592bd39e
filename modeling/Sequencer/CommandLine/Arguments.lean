import Sequencer.Number.Decimal

/-!
# Arguments of the command line

Two options hold for every task and may stand before or behind its name; the others belong to one
task. An option is given once among its peers, and what takes a value takes the next word or the
text behind an equals sign. A value that is a word of its own is looked at when the next option is
met, or at the end. Reading stops at the first thing that is wrong, or that asks for help.
-/

namespace Sequencer.CommandLine

inductive Task where
  | check
  | schedule
  | play
  | format
  deriving DecidableEq, Repr

def Task.ofWord? : String → Option Task
  | "check" => some .check
  | "schedule" => some .schedule
  | "play" => some .play
  | "fmt" => some .format
  | _ => none

inductive Layout where
  | table
  | yaml
  deriving DecidableEq, Repr

def Layout.ofWord? : String → Option Layout
  | "table" => some .table
  | "yaml" => some .yaml
  | _ => none

/-- What help can be asked about. -/
inductive Topic where
  | program
  | task (task : Task)
  | help
  deriving DecidableEq, Repr

def Topic.ofTask : Option Task → Topic
  | none => .program
  | some given => .task given

/-- What else than a task the arguments may come to. -/
inductive Ending where
  | misuse
  | help (topic : Topic)
  | version
  deriving DecidableEq, Repr

inductive Switch where
  | config
  | bpm
  | layout
  | write
  | help
  | version
  deriving DecidableEq, Repr

namespace Switch

def takesValue : Switch → Bool
  | .config | .bpm | .layout => true
  | .write | .help | .version => false

/-- Whether a switch is known before any task, or to a task. -/
def isKnown : Option Task → Switch → Bool
  | _, .config | _, .bpm | _, .help => true
  | task, .version => task.isNone
  | task, .layout => task == some .schedule
  | task, .write => task == some .format

def ofName? : String → Option Switch
  | "config" => some .config
  | "bpm" => some .bpm
  | "format" => some .layout
  | "write" => some .write
  | "help" => some .help
  | "version" => some .version
  | _ => none

def ofLetter? : Char → Option Switch
  | 'w' => some .write
  | 'h' => some .help
  | 'V' => some .version
  | _ => none

end Switch

/-- A word of the command line. -/
inductive Word where
  | plain (text : String)
  | named (name : String) (attached : Option String)
  | short (letters : List Char)
  | separator

def Word.ofArgument (argument : String) : Word :=
  match argument.toList with
  | ['-', '-'] => .separator
  | '-' :: '-' :: rest =>
    let (name, value) := rest.span (· != '=')
    .named (String.ofList name)
      (if value.isEmpty then none else some (String.ofList (value.drop 1)))
  | '-' :: letter :: letters => .short (letter :: letters)
  | _ => .plain argument

/-- What has been given so far, and which switches among their peers. -/
structure Given where
  config : Option String
  bpm : Option Float
  layout : Option Layout
  write : Bool
  file : Option String
  seen : List Switch
  /-- A switch and the word behind it, which nothing has looked at yet. -/
  pending : Option (Switch × String)

namespace Given

def nothing : Given :=
  { config := none, bpm := none, layout := none, write := false, file := none, seen := []
    pending := none }

def see? (given : Given) (switch : Switch) : Option Given :=
  if given.seen.contains switch then none
  else some { given with seen := switch :: given.seen }

def put? (given : Given) (switch : Switch) (value : String) : Option Given :=
  (given.see? switch).bind fun given =>
    match switch with
    | .config => if value.isEmpty then none else some { given with config := some value }
    | .bpm => (Number.readDouble? value).map fun bpm => { given with bpm := some bpm }
    | .layout => (Layout.ofWord? value).map fun layout => { given with layout := some layout }
    | .write | .help | .version => none

/-- Takes up the pending value. -/
def settle? (given : Given) : Option Given :=
  match given.pending with
  | none => some given
  | some (switch, value) => { given with pending := none }.put? switch value

/-- What a task has been given counts before what stands in front of it. -/
def behind (given before : Given) : Given :=
  { given with config := given.config <|> before.config, bpm := given.bpm <|> before.bpm }

/-- A task takes one file. -/
def putFile? (given : Given) (file : String) : Option Given :=
  if file.isEmpty || given.file.isSome then none else some { given with file := some file }

/-- Turns on a switch that takes no value. -/
def turnOn (task : Option Task) (given : Given) : Switch → Except Ending Given
  | .help => .error (.help (.ofTask task))
  | .version => .error .version
  | .write =>
    match given.see? .write with
    | some given => .ok { given with write := true }
    | none => .error .misuse
  | _ => .error .misuse

/-- Turns on a row of letters, one after another. -/
def turnOnLetters (task : Option Task) (given : Given) : List Char → Except Ending Given
  | [] => .ok given
  | letter :: letters =>
    match (Switch.ofLetter? letter).filter (Switch.isKnown task) with
    | some switch =>
      match given.turnOn task switch with
      | .ok given => turnOnLetters task given letters
      | .error ending => .error ending
    | none => .error .misuse

end Given

def orMisuse {α : Type} : Option α → Except Ending α
  | some value => .ok value
  | none => .error .misuse

/-- Everything behind a separator is a file. -/
def readFiles? (given : Given) (files : List String) : Option Given :=
  files.foldlM Given.putFile? given

/-- The topic that help is asked about. -/
def readTopic? : List String → Option Topic
  | [] => some .program
  | ["help"] => some .help
  | [word] => (Task.ofWord? word).map .task
  | _ => none

/-- Settles what is pending in front of a task and behind it. -/
def complete? (task : Task) (before given : Given) : Option (Task × Given) :=
  given.settle?.bind fun given => before.settle?.map fun before => (task, given.behind before)

/-- Reads arguments one after another: first those before the task, then those of the task, with
what stood in front of it at hand. -/
def readArguments : Option (Task × Given) → List String → Given → Except Ending (Task × Given)
  | none, [], _ => .error .misuse
  | some (task, before), [], given => orMisuse (complete? task before given)
  | chosen, argument :: rest, given =>
    match Word.ofArgument argument, chosen with
    | .separator, none => .error .misuse
    | .separator, some (task, before) =>
      orMisuse ((readFiles? given rest).bind (complete? task before))
    | .plain "help", none =>
      match readTopic? rest with
      | some topic => .error (.help topic)
      | none => .error .misuse
    | .plain text, none =>
      match Task.ofWord? text with
      | some task => readArguments (some (task, given)) rest .nothing
      | none => .error .misuse
    | .plain text, some chosen =>
      match given.settle?.bind (·.putFile? text) with
      | some given => readArguments (some chosen) rest given
      | none => .error .misuse
    | .short letters, chosen =>
      match given.settle? with
      | none => .error .misuse
      | some given =>
        match given.turnOnLetters (chosen.map Prod.fst) letters with
        | .ok given => readArguments chosen rest given
        | .error ending => .error ending
    | .named name attached, chosen =>
      let task := chosen.map Prod.fst
      match (Switch.ofName? name).filter (Switch.isKnown task), given.settle? with
      | some switch, some given =>
        if !switch.takesValue then
          if attached.isSome then .error .misuse
          else match given.turnOn task switch with
            | .ok given => readArguments chosen rest given
            | .error ending => .error ending
        else match attached, rest with
          | some value, rest =>
            match given.put? switch value with
            | some given => readArguments chosen rest given
            | none => .error .misuse
          | none, value :: rest =>
            match Word.ofArgument value with
            | .plain text =>
              readArguments chosen rest { given with pending := some (switch, text) }
            | _ => .error .misuse
          | none, [] => .error .misuse
      | _, _ => .error .misuse

/-- A task with its file and its options. -/
structure Order where
  task : Task
  file : String
  config : Option String
  bpm : Option Float
  layout : Layout
  write : Bool

def Order.read (arguments : List String) : Except Ending Order :=
  match readArguments none arguments .nothing with
  | .error ending => .error ending
  | .ok (task, given) =>
    match given.file with
    | none => .error .misuse
    | some file =>
      .ok
        { task, file, config := given.config, bpm := given.bpm
          layout := given.layout.getD .table, write := given.write }

end Sequencer.CommandLine
