/-!
# Arguments of commands

A command knows options, of which some take a value, and possibly further arguments.
Options and arguments come in any order; behind `--` all are arguments.  An option is
given once.  The first argument that asks for help ends the reading.
-/

namespace DeployTarget.Command

/-- An option of a command. -/
structure Parameter where
  long : String
  short : Option Char
  value : Option String
  mayBeEmpty : Bool
deriving DecidableEq, Repr

def helpParameter : Parameter :=
  ⟨"help", some 'h', none, false⟩

/-- What the arguments of a command say. -/
structure Given where
  options : List (String × String)
  arguments : List String
deriving DecidableEq, Repr, Inhabited

namespace Given

def option? (given : Given) (name : String) : Option String :=
  given.options.lookup name

def has (given : Given) (name : String) : Bool :=
  (given.option? name).isSome

end Given

/-- How the reading of arguments ends. -/
inductive Parse where
  | complete (given : Given)
  | stopped (option : String)
  | misused
deriving Repr

/-- What arguments can be read. -/
structure Grammar where
  parameters : List Parameter
  /-- The options that end the reading. -/
  stops : List Parameter
  allowsArguments : Bool

namespace Grammar

/-- Whether an argument is an option and cannot be the value of one. -/
def isOption (argument : String) : Bool :=
  match argument.toList with
  | '-' :: _ :: _ => true
  | _ => false

/-- Adds an option, unless it is given already or its value may not be empty. -/
def addOption? (given : Given) (parameter : Parameter) (value : String) : Option Given :=
  if given.has parameter.long || (value == "" && !parameter.mayBeEmpty) then none
  else some { given with options := given.options ++ [(parameter.long, value)] }

/-- Takes the value of an option: the attached one, or else the next argument. -/
def takeValue? (attached : Option String) (rest : List String) :
    Option (String × List String) :=
  match attached, rest with
  | some value, _ => some (value, rest)
  | none, next :: rest => if isOption next then none else some (next, rest)
  | none, [] => none

/-- What has been read, and the arguments that remain. -/
inductive Progress where
  | more (given : Given) (rest : List String)
  | stopped (option : String)
  | misused

def readLong (grammar : Grammar) (given : Given) (body : List Char)
    (rest : List String) : Progress :=
  let name := String.ofList (body.takeWhile (· != '='))
  let attached := match body.dropWhile (· != '=') with
    | _ :: value => some (String.ofList value)
    | [] => none
  match grammar.stops.find? (·.long == name), grammar.parameters.find? (·.long == name) with
  | some stop, _ => if attached.isSome then .misused else .stopped stop.long
  | none, none => .misused
  | none, some parameter =>
      let read : Option (Given × List String) :=
        if parameter.value.isSome then do
          let (value, rest) ← takeValue? attached rest
          let given ← addOption? given parameter value
          return (given, rest)
        else if attached.isSome || given.has parameter.long then none
        else some ({ given with options := given.options ++ [(parameter.long, "")] }, rest)
      match read with
      | some (given, rest) => .more given rest
      | none => .misused

/-- The value that is attached to an option behind one dash. -/
def attachedValue : List Char → Option String
  | [] => none
  | '=' :: value => some (String.ofList value)
  | value => some (String.ofList value)

def readShort (grammar : Grammar) (given : Given) (rest : List String) :
    List Char → Progress
  | [] => .more given rest
  | mark :: body =>
      match grammar.stops.find? (·.short == some mark),
        grammar.parameters.find? (·.short == some mark) with
      | some stop, _ => .stopped stop.long
      | none, none => .misused
      | none, some parameter =>
          if parameter.value.isSome then
            let read : Option (Given × List String) := do
              let (value, rest) ← takeValue? (attachedValue body) rest
              let given ← addOption? given parameter value
              return (given, rest)
            match read with
            | some (given, rest) => .more given rest
            | none => .misused
          else if given.has parameter.long then .misused
          else
            readShort grammar { given with options := given.options ++ [(parameter.long, "")] }
              rest body

/-- Reads arguments; `fuel` bounds their number. -/
def readFrom (grammar : Grammar) : Nat → Given → List String → Parse
  | _, given, [] => .complete given
  | 0, _, _ => .misused
  | fuel + 1, given, argument :: rest =>
      let progress : Progress := match argument.toList with
        | ['-', '-'] =>
            if rest = [] ∨ grammar.allowsArguments then
              .more { given with arguments := given.arguments ++ rest } []
            else .misused
        | '-' :: '-' :: body => grammar.readLong given body rest
        | '-' :: mark :: body => grammar.readShort given rest (mark :: body)
        | _ =>
            if grammar.allowsArguments then
              .more { given with arguments := given.arguments ++ [argument] } rest
            else .misused
      match progress with
      | .more given rest => readFrom grammar fuel given rest
      | .stopped option => .stopped option
      | .misused => .misused

def read (grammar : Grammar) (arguments : List String) : Parse :=
  grammar.readFrom arguments.length default arguments

end Grammar

end DeployTarget.Command
