import DeployTarget.ConnectorStore
import DeployTarget.Error

/-!
# Programs that ask the outside

Checking and resolving a definition is a program: it logs, asks an evaluator for the
values of expressions, asks a store for connectors, and stops at checkpoints when it
has been cancelled.  A program is data; running it against a world gives the events it
logs, the calls it makes and its result.
-/

namespace DeployTarget

/-- How much an event matters. -/
inductive Level where
  | debug
  | info
  | warn
deriving DecidableEq, Repr

def Level.name : Level → String
  | .debug => "DEBUG"
  | .info => "INFO"
  | .warn => "WARN"

/-- An entry of the log. -/
structure Event where
  level : Level
  message : String
  fields : List (String × String)
deriving DecidableEq, Repr

/-- An answer of the outside to the question for a connector. -/
abbrev ConnectorAnswer :=
  Except ConnectorFault (Option Connector)

/-- A program with a result of type `α`. -/
inductive Program (α : Type) where
  | done (value : α)
  | fail (error : Error)
  | log (event : Event) (rest : Program α)
  /-- Fails if the run has been cancelled, and else goes on. -/
  | checkpoint (rest : Program α)
  /-- Asks for the value of an expression; a refusal of the evaluator ends the run. -/
  | lookup (expression : String) (next : Option Json → Program α)
  | connector (request : ConnectorRequest) (next : ConnectorAnswer → Program α)

namespace Program

variable {α β : Type}

protected def bind (program : Program α) (next : α → Program β) : Program β :=
  match program with
  | .done value => next value
  | .fail error => .fail error
  | .log event rest => .log event (rest.bind next)
  | .checkpoint rest => .checkpoint (rest.bind next)
  | .lookup expression answer => .lookup expression fun value => (answer value).bind next
  | .connector request answer => .connector request fun found => (answer found).bind next

instance : Monad Program where
  pure := .done
  bind := Program.bind

def ofExcept : Except Error α → Program α
  | .ok value => .done value
  | .error error => .fail error

def tell (level : Level) (message : String) (fields : List (String × String)) :
    Program Unit :=
  .log ⟨level, message, fields⟩ (.done ())

def stopIfCancelled : Program Unit :=
  .checkpoint (.done ())

def ask (expression : String) : Program (Option Json) :=
  .lookup expression .done

def askConnector (request : ConnectorRequest) : Program ConnectorAnswer :=
  .connector request .done

end Program

/-- What programs are run against: its answers depend on the question only. -/
structure World where
  /-- The value of an expression, if it has one, or a refusal. -/
  lookup : String → Except Error (Option Json)
  connector : ConnectorRequest → ConnectorAnswer

/-- A question to the outside. -/
inductive Call where
  | lookup (expression : String)
  | connector (request : ConnectorRequest)
deriving DecidableEq, Repr

/-- What a run did. -/
structure Run (α : Type) where
  events : List Event
  calls : List Call
  result : Except Error α

namespace Run

variable {α : Type}

def logged (event : Event) (run : Run α) : Run α :=
  { run with events := event :: run.events }

def called (call : Call) (run : Run α) : Run α :=
  { run with calls := call :: run.calls }

end Run

/-- Whether a run that has begun a number of calls has been cancelled, if it is
cancelled when a given number has begun. -/
def isCancelled (cancelAfter : Option Nat) (begun : Nat) : Bool :=
  cancelAfter.any (· ≤ begun)

namespace Program

variable {α : Type}

/-- Runs a program that has begun a number of calls. -/
def runFrom (world : World) (cancelAfter : Option Nat) (begun : Nat) :
    Program α → Run α
  | .done value => ⟨[], [], .ok value⟩
  | .fail error => ⟨[], [], .error error⟩
  | .log event rest => (rest.runFrom world cancelAfter begun).logged event
  | .checkpoint rest =>
      if isCancelled cancelAfter begun then ⟨[], [], .error .cancelled⟩
      else rest.runFrom world cancelAfter begun
  | .lookup expression next =>
      match world.lookup expression with
      | .ok value =>
          ((next value).runFrom world cancelAfter (begun + 1)).called (.lookup expression)
      | .error error => ⟨[], [.lookup expression], .error error⟩
  | .connector request next =>
      ((next (world.connector request)).runFrom world cancelAfter (begun + 1)).called
        (.connector request)

/-- Runs a program; a run that can be cancelled is cancelled once the given number of
calls has begun. -/
def run (world : World) (cancelAfter : Option Nat) (program : Program α) : Run α :=
  program.runFrom world cancelAfter 0

end Program

end DeployTarget
