import DeployTarget.Command.Usage
import DeployTarget.Document
import DeployTarget.Yaml.Writer

/-!
# The commands of the program

A command checks or resolves the request in a file, computes a key from its parts, or
lists the kinds.  Its report says what is printed, what was logged on the way and how
the program ends.
-/

namespace DeployTarget

/-- A command with its arguments. -/
inductive Command where
  | validate (file : String)
  | resolve (file : String) (asJson : Bool)
  | key (environment : String) (service : Option String) (parts : List String)
  | kinds
deriving DecidableEq, Repr

namespace Command

/-- What the arguments of the program ask for. -/
inductive Invocation where
  | run (command : Command)
  | print (text : String)
  | misused
deriving Repr

def ofGiven? (name : Name) (given : Given) : Option Command :=
  let file := (given.option? fileParameter.long).getD defaultFile
  match name with
  | .validate => some (.validate file)
  | .resolve => some (.resolve file (given.has jsonParameter.long))
  | .key =>
      (given.option? environmentParameter.long).map fun environment =>
        .key environment (given.option? serviceParameter.long) given.arguments
  | .kinds => some .kinds

/-- What the arguments behind the name of a command ask for. -/
def readCommand (name : Name) (arguments : List String) : Invocation :=
  match name.grammar.read arguments with
  | .complete given =>
      match ofGiven? name given with
      | some command => .run command
      | none => .misused
  | .stopped _ => .print name.help
  | .misused => .misused

def readHelp : List String → Invocation
  | [] => .print programHelp
  | [name] =>
      match Name.ofText? name with
      | some name => .print name.help
      | none => if name = helpName then .print helpHelp else .misused
  | _ => .misused

def programGrammar : Grammar :=
  ⟨[], [helpParameter, versionParameter], false⟩

def read : List String → Invocation
  | [] => .misused
  | argument :: rest =>
      if Grammar.isOption argument then
        match programGrammar.read [argument] with
        | .stopped option =>
            if option = versionParameter.long then
              .print (programName ++ " " ++ programVersion ++ "\n")
            else .print programHelp
        | _ => .misused
      else if argument = helpName then readHelp rest
      else
        match Name.ofText? argument with
        | some name => readCommand name rest
        | none => .misused

/-- What the program prints and how it ends. -/
structure Report where
  output : String
  events : List Event
  failure : Option Error

def Report.ofText (text : String) : Report :=
  ⟨text, [], none⟩

def Report.ofRun {α : Type} (write : α → String) (run : Run α) : Report :=
  match run.result with
  | .ok value => ⟨write value, run.events, none⟩
  | .error error => ⟨"", run.events, some error⟩

def requestOf (fileText : String → Except FileFault String) (file : String) :
    Except Error Request :=
  match fileText file with
  | .ok text => Request.ofText text
  | .error fault => .error (.unreadableFile file fault)

/-- The report of a program that is run for the request in a file. -/
def reportOf {α : Type} (fileText : String → Except FileFault String) (file : String)
    (program : Request → Program α) (write : α → String) : Report :=
  match requestOf fileText file with
  | .ok request => Report.ofRun write ((program request).run request.world none)
  | .error error => ⟨"", [], some error⟩

def approval (definition : Definition) : String :=
  "OK: " ++ definition.details.name ++ " (" ++ definition.kind.tag ++
    ", identifier " ++ definition.details.identifier ++ ")\n"

def outcomeText (asJson : Bool) (outcome : Outcome) : String :=
  (if asJson then outcome.toJson.indented else Yaml.write outcome.toJson) ++ "\n"

def keyLine (key : Key) : String :=
  key.text ++ "  (short " ++ key.short ++ ")\n"

def kindLine (kind : Kind) : String :=
  let marks := (if kind.supportsProvisioning then ["dynamic"] else []) ++
    (if kind.hasShortKey then ["short-key"] else [])
  padded 28 kind.tag ++ " key: " ++ padded 60 (", ".intercalate kind.keyNames) ++ " " ++
    " ".intercalate marks ++ "\n"

def run (fileText : String → Except FileFault String) : Command → Report
  | .validate file => reportOf fileText file Request.validate approval
  | .resolve file asJson => reportOf fileText file Request.resolve (outcomeText asJson)
  | .key environment service parts =>
      .ofText (keyLine (Key.generate service environment parts))
  | .kinds => .ofText ("".intercalate (Kind.all.map kindLine))

def file? : Command → Option String
  | .validate file => some file
  | .resolve file _ => some file
  | .key _ _ _ => none
  | .kinds => none

def logLine (event : Event) : String :=
  String.ofList (List.replicate (5 - event.level.name.length) ' ') ++ event.level.name ++
    " " ++ event.message ++
    "".intercalate (event.fields.map fun (name, value) => " " ++ name ++ "=" ++ value)

/-- The lines of the log that are shown; details are not. -/
def Report.log (report : Report) : List String :=
  (report.events.filter (·.level ≠ .debug)).map logLine

end Command

end DeployTarget
