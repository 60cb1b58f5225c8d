import PageMacro.Fetch.Error
import PageMacro.Secret.Error
import PageMacro.Text.Pieces

/-!
# Failures of a run

Everything that can go wrong while a segment runs, each with its cause, and the wording of all of
it in one place.
-/

namespace PageMacro

/-- What ends an execution from outside. -/
inductive Interruption where
  | cancelled
  /-- The time for the run is over. -/
  | deadline
  deriving BEq, DecidableEq, Repr

/-- The wording of an interruption. -/
def Interruption.message : Interruption → String
  | cancelled => "context canceled"
  | deadline => "context deadline exceeded"

/-- Why a verb or an execution fails. -/
inductive Failure where
  /-- The execution was interrupted while it waited. -/
  | abandoned (why : Interruption)
  | unknownEntry (key : String)
  | missingArgument (what : String)
  | notANumber (text : String)
  | noFetcher
  | noSecrets
  /-- A verb broke down. -/
  | crashed (text : String)
  /-- An expression could not be evaluated. -/
  | badExpression (expression : String)
  /-- A function of the page's module failed. -/
  | badCall (function : String)
  /-- The body fetched from a location is not a JSON object. -/
  | badJson (url : String)
  | fetch (cause : Fetch.Error)
  | secretStore (cause : Secret.Error)
  | secret (space key : String) (cause : Failure)
  /-- A failure that the host words itself. -/
  | host (text : String)
  /-- A verb failed, and with it the execution. -/
  | verb (name : String) (args : List String) (cause : Failure)
  deriving Repr

namespace Failure

/-- The wording of a failure. -/
def message : Failure → String
  | abandoned why => "execution abandoned: " ++ why.message
  | unknownEntry key => "unknown entry: " ++ key
  | missingArgument what => "missing argument: " ++ what
  | notANumber text => Text.quoted text ++ " is not a number"
  | noFetcher => "no fetcher configured"
  | noSecrets => "secrets manager not available"
  | crashed text => "panic: " ++ text
  | badExpression expression => "eval " ++ Text.quoted expression ++ ": " ++ Format.starlark.mark
  | badCall function => function ++ ": " ++ Format.starlark.mark
  | badJson url => "decode " ++ url ++ ": " ++ Format.json.mark
  | fetch cause => cause.message
  | secretStore cause => cause.message
  | secret space key cause => "secret " ++ space ++ ":" ++ key ++ ": " ++ cause.message
  | host text => text
  | verb name args cause =>
    let shown := if args.isEmpty then "" else " with args [" ++ Text.join ", " args ++ "]"
    "verb " ++ Text.quoted name ++ " failed" ++ shown ++ ": " ++ cause.message

/-- What a failure is about. -/
def concerns : Failure → List Concern
  | abandoned _ => [.abandoned]
  | unknownEntry _ => [.unknownEntry]
  | missingArgument _ => [.missingArgument]
  | badExpression _ => [.format .starlark]
  | badCall _ => [.format .starlark]
  | badJson _ => [.format .json]
  | fetch cause => cause.concerns
  | secretStore cause => cause.cause.concerns
  | secret _ _ cause => cause.concerns
  | verb _ _ cause => cause.concerns
  | _ => []

end Failure

end PageMacro
