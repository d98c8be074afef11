import DeployTarget.Command.Arguments

/-!
# Usage of the program

The commands of the program, what their arguments are, and the texts that explain them.
-/

namespace DeployTarget.Command

def programName : String :=
  "infradef"

def programVersion : String :=
  "0.1.0"

def programPurpose : String :=
  "Validate, resolve and key infrastructure definitions"

/-- The file that a request is read from where no other is named. -/
def defaultFile : String :=
  "request.yaml"

/-- The name of a command. -/
inductive Name where
  | validate
  | resolve
  | key
  | kinds
deriving DecidableEq, Repr

namespace Name

def all : List Name :=
  [.validate, .resolve, .key, .kinds]

def text : Name → String
  | .validate => "validate"
  | .resolve => "resolve"
  | .key => "key"
  | .kinds => "kinds"

def ofText? (text : String) : Option Name :=
  all.find? (·.text == text)

def purpose : Name → String
  | .validate => "Validate the infrastructure definition in a resolve request"
  | .resolve => "Resolve a request into an infrastructure outcome"
  | .key => "Compute an infrastructure key from its parts"
  | .kinds => "List supported infrastructure kinds"

end Name

def fileParameter : Parameter :=
  ⟨"file", some 'f', some "FILE", false⟩

def jsonParameter : Parameter :=
  ⟨"json", none, none, false⟩

def environmentParameter : Parameter :=
  ⟨"env", none, some "ENV", true⟩

def serviceParameter : Parameter :=
  ⟨"service", none, some "SERVICE", true⟩

def versionParameter : Parameter :=
  ⟨"version", some 'V', none, false⟩

def Name.parameters : Name → List Parameter
  | .validate => [fileParameter]
  | .resolve => [fileParameter, jsonParameter]
  | .key => [environmentParameter, serviceParameter]
  | .kinds => []

def Name.grammar (name : Name) : Grammar :=
  ⟨name.parameters, [helpParameter], name == .key⟩

def explanation (name : String) : String :=
  if name = fileParameter.long then "Path to the request YAML [default: " ++ defaultFile ++ "]"
  else if name = jsonParameter.long then "Print the outcome as JSON instead of YAML"
  else if name = environmentParameter.long then "Environment identifier"
  else if name = serviceParameter.long then "Service identifier"
  else if name = versionParameter.long then "Print version"
  else "Print help"

/-! ## Help -/

/-- A text filled up with blanks. -/
def padded (width : Nat) (text : String) : String :=
  text ++ String.ofList (List.replicate (width - text.length) ' ')

/-- A part of a help text: a title, and entries with their explanations. -/
def helpPart (title : String) (entries : List (String × String)) : List String :=
  let width := (entries.map fun entry => entry.1.length).foldl max 0
  (title ++ ":") :: entries.map fun entry => "  " ++ padded width entry.1 ++ "  " ++ entry.2

def Parameter.entry (parameter : Parameter) : String × String :=
  let short := match parameter.short with
    | some mark => String.ofList ['-', mark, ',', ' ']
    | none => "    "
  let value := match parameter.value with
    | some word => " <" ++ word ++ ">"
    | none => ""
  (short ++ "--" ++ parameter.long ++ value, explanation parameter.long)

/-- The lines of a help text as one text, with an empty line between its parts. -/
def joinParts (parts : List (List String)) : String :=
  "\n\n".intercalate ((parts.filter (· ≠ [])).map ("\n".intercalate ·)) ++ "\n"

def Name.synopsis : Name → String
  | .validate => " [OPTIONS]"
  | .resolve => " [OPTIONS]"
  | .key => " [OPTIONS] --env <ENV> [PARTS]..."
  | .kinds => ""

def Name.argumentPart : Name → List String
  | .key => helpPart "Arguments" [("[PARTS]...", "Kind-specific key parts, in key order")]
  | _ => []

def Name.help (name : Name) : String :=
  joinParts
    [[name.purpose], ["Usage: " ++ programName ++ " " ++ name.text ++ name.synopsis],
      name.argumentPart,
      helpPart "Options" ((name.parameters ++ [helpParameter]).map Parameter.entry)]

def helpName : String :=
  "help"

def helpPurpose : String :=
  "Print this message or the help of the given subcommand(s)"

def programHelp : String :=
  joinParts
    [[programPurpose], ["Usage: " ++ programName ++ " <COMMAND>"],
      helpPart "Commands"
        (Name.all.map (fun name => (name.text, name.purpose)) ++ [(helpName, helpPurpose)]),
      helpPart "Options" ([helpParameter, versionParameter].map Parameter.entry)]

def helpHelp : String :=
  joinParts
    [[helpPurpose], ["Usage: " ++ programName ++ " " ++ helpName ++ " [COMMAND]..."],
      helpPart "Arguments" [("[COMMAND]...", "Print help for the subcommand(s)")]]

end DeployTarget.Command
