import MiniZincModels.Gallery.Catalogue
import MiniZincModels.Text.Numeral

/-!
# Command line arguments

The program is called with the name of a demonstration and options in any order.
Options have a long name, most also a letter.  A value follows its option as the
next argument, after an equals sign, or right behind the letter; letters without
a value can be joined.  Every option may be given once.  After two dashes nothing
is an option any more.
-/

namespace MiniZincModels.CommandLine

/-- What the program is asked to do with a demonstration. -/
structure Arguments where
  demonstration : Demonstration
  size : Option Nat
  /-- The file to which the model is written instead of the standard output. -/
  output : Option String
  solve : Bool
  executable : Option String
  solver : Option String
  allSolutions : Bool
  /-- The time limit in milliseconds. -/
  timeLimit : Option Nat
  verbose : Bool

/-- A well-formed call of the program. -/
inductive Request
  | run (arguments : Arguments)
  | help
  | version

/-- The options that take a value. -/
inductive Setting
  | size
  | output
  | executable
  | solver
  | timeLimit
deriving DecidableEq

/-- The options that stand for themselves. -/
inductive Switch
  | solve
  | allSolutions
  | verbose
  | help
  | version
deriving DecidableEq

/-- An option, with or without a value. -/
inductive Flag
  | setting (setting : Setting)
  | switch (switch : Switch)
deriving DecidableEq

/-- The options with their long names and letters. -/
def flags : List (String × Option Char × Flag) :=
  [("size", some 'n', .setting .size), ("output", some 'o', .setting .output),
    ("minizinc", none, .setting .executable), ("solver", none, .setting .solver),
    ("time-limit", some 't', .setting .timeLimit), ("solve", some 's', .switch .solve),
    ("all-solutions", some 'a', .switch .allSolutions), ("verbose", some 'v', .switch .verbose),
    ("help", some 'h', .switch .help), ("version", some 'V', .switch .version)]

def ofLongName? (name : String) : Option Flag :=
  (flags.find? fun entry => entry.1 = name).map fun entry => entry.2.2

def ofLetter? (letter : Char) : Option Flag :=
  (flags.find? fun entry => entry.2.1 = some letter).map fun entry => entry.2.2

/-- What has been read of the arguments. -/
structure Draft where
  demonstration : Option Demonstration
  values : List (Setting × String)
  switches : List Switch

def Draft.empty : Draft := ⟨none, [], []⟩

def Draft.value? (draft : Draft) (setting : Setting) : Option String :=
  (draft.values.find? fun entry => entry.1 = setting).map Prod.snd

/-- A size is a whole number of 32 bits. -/
def readSize? (text : String) : Option Nat :=
  match Text.readInteger? text.toList with
  | some value =>
    if 0 ≤ value.toInt ∧ value.toInt < 4294967296 then some value.toInt.toNat else none
  | none => none

/-- A time limit is a whole number of 64 bits. -/
def readTimeLimit? (text : String) : Option Nat :=
  let digits :=
    match text.toList with
    | '+' :: rest => rest
    | digits => digits
  (Text.readNatural? digits).filter (· < 18446744073709551616)

/-- Whether a text can be the value of a setting. -/
def isValueOf (setting : Setting) (text : String) : Bool :=
  match setting with
  | .size => (readSize? text).isSome
  | .timeLimit => (readTimeLimit? text).isSome
  | .output => text ≠ ""
  | .executable => text ≠ ""
  | .solver => true

/-- Takes the value of a setting, which must not have one yet. -/
def Draft.set? (draft : Draft) (setting : Setting) (text : String) : Option Draft :=
  if isValueOf setting text && (draft.value? setting).isNone then
    some { draft with values := draft.values ++ [(setting, text)] }
  else none

/-- Takes a switch, which must not be on yet. -/
def Draft.turnOn? (draft : Draft) (switch : Switch) : Option Draft :=
  if draft.switches.contains switch then none
  else some { draft with switches := draft.switches ++ [switch] }

/-- Takes an argument that is no option: the name of the demonstration, once. -/
def Draft.choose? (draft : Draft) (name : String) : Option Draft :=
  match draft.demonstration, Demonstration.ofName? name with
  | none, some demonstration => some { draft with demonstration := some demonstration }
  | _, _ => none

/-- What to do after an option was read. -/
inductive Step
  /-- Go on with the next argument. -/
  | next (draft : Draft)
  /-- The next argument is the value of a setting. -/
  | await (draft : Draft) (setting : Setting)
  /-- Nothing else matters. -/
  | stop (request : Request)

/-- Takes a switch; help and version end the reading at once. -/
def takeSwitch? (draft : Draft) : Switch → Option Step
  | .help => some (.stop .help)
  | .version => some (.stop .version)
  | switch => (draft.turnOn? switch).map .next

/-- Takes the part of an argument behind two dashes. -/
def takeLong? (draft : Draft) (body : List Char) : Option Step :=
  let (name, value) :=
    match Text.cutAt? '=' body with
    | some (name, value) => (name, some (String.ofList value))
    | none => (body, none)
  match ofLongName? (String.ofList name), value with
  | some (.setting setting), some value => (draft.set? setting value).map .next
  | some (.setting setting), none => some (.await draft setting)
  | some (.switch switch), none => takeSwitch? draft switch
  | some (.switch _), some _ => none
  | none, _ => none

/-- Takes the letters behind one dash. -/
def takeLetters? (draft : Draft) : List Char → Option Step
  | [] => some (.next draft)
  | letter :: rest =>
    match ofLetter? letter with
    | none => none
    | some (.setting setting) =>
      match rest with
      | [] => some (.await draft setting)
      | '=' :: value => (draft.set? setting (String.ofList value)).map .next
      | value => (draft.set? setting (String.ofList value)).map .next
    | some (.switch switch) =>
      match takeSwitch? draft switch with
      | some (.next draft) => takeLetters? draft rest
      | other => other

/-- The request of a draft, in which there has to be a demonstration. -/
def Draft.finish? (draft : Draft) : Option Request :=
  draft.demonstration.map fun demonstration =>
    .run
      { demonstration
        size := (draft.value? .size).bind readSize?
        output := draft.value? .output
        solve := draft.switches.contains .solve
        executable := draft.value? .executable
        solver := draft.value? .solver
        allSolutions := draft.switches.contains .allSolutions
        timeLimit := (draft.value? .timeLimit).bind readTimeLimit?
        verbose := draft.switches.contains .verbose }

/-- Whether an argument has the form of an option, so that it is no value of one. -/
def looksLikeOption (argument : String) : Bool :=
  match argument.toList with
  | '-' :: _ :: _ => true
  | _ => false

/-- Takes the arguments behind two dashes, none of which is an option. -/
def takeNames? (draft : Draft) : List String → Option Request
  | [] => draft.finish?
  | name :: rest => (draft.choose? name).bind fun draft => takeNames? draft rest

/-- Reads the arguments from left to right, where `awaited` is a setting that still
lacks its value. -/
def readFrom? (draft : Draft) (awaited : Option Setting) : List String → Option Request
  | [] => if awaited.isSome then none else draft.finish?
  | argument :: rest =>
    match awaited with
    | some setting =>
      if looksLikeOption argument then none
      else (draft.set? setting argument).bind fun draft => readFrom? draft none rest
    | none =>
      match argument.toList with
      | ['-', '-'] => takeNames? draft rest
      | '-' :: '-' :: body => proceed rest (takeLong? draft body)
      | '-' :: letter :: letters => proceed rest (takeLetters? draft (letter :: letters))
      | _ => (draft.choose? argument).bind fun draft => readFrom? draft none rest
where
  /-- Goes on as the last step says. -/
  proceed (rest : List String) : Option Step → Option Request
    | none => none
    | some (.stop request) => some request
    | some (.next draft) => readFrom? draft none rest
    | some (.await draft setting) => readFrom? draft (some setting) rest

/-- The request of a call, unless the arguments break the rules. -/
def readArguments? (arguments : List String) : Option Request :=
  readFrom? Draft.empty none arguments

end MiniZincModels.CommandLine
