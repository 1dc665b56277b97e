import TieredPool.Config.Validate
import TieredPool.Text.Quoted

/-!
# Error — why a configuration cannot be used

* `FileError`, `ConfigError` — the causes.
* `ConfigError.message` — for users; `ConfigError.describe` — for diagnostics.
-/

namespace TieredPool

open Text (quoted)

/-- Why a file cannot be read. -/
inductive FileError where
  | notFound
  | notUtf8
  /-- Any other error of the system, with its code, kind and text. -/
  | system (code : Nat) (kind reason : String)
  deriving DecidableEq, Repr

namespace FileError

def message : FileError → String
  | .notFound => "No such file or directory (os error 2)"
  | .notUtf8 => "stream did not contain valid UTF-8"
  | .system code _ reason => reason ++ " (os error " ++ toString code ++ ")"

def describe : FileError → String
  | .notFound => "Os \x7b code: 2, kind: NotFound, message: \"No such file or directory\" \x7d"
  | .notUtf8 =>
      "Error \x7b kind: InvalidData, message: \"stream did not contain valid UTF-8\" \x7d"
  | .system code kind reason =>
      "Os \x7b code: " ++ toString code ++ ", kind: " ++ kind ++ ", message: " ++ quoted reason
        ++ " \x7d"

end FileError

inductive ConfigError where
  | file (error : FileError)
  /-- The text is no document, or the document is no configuration. -/
  | parse
  | invalid (problems : List Problem)
  | rejected (name : String) (source : PoolError)
  deriving DecidableEq, Repr

namespace ConfigError

/-- The message of each cause; a parse error has no text of its own. -/
def message : ConfigError → String
  | .file e => "IO error: " ++ e.message
  | .parse => "Parse error"
  | .invalid ps => "Validation failed: " ++ ", ".intercalate (ps.map Problem.text)
  | .rejected name source => "Server '" ++ name ++ "' rejected: " ++ source.message

def describeProblem (p : Problem) : String :=
  "ValidationError \x7b field: " ++ quoted p.field ++ ", message: " ++ quoted p.message ++ " \x7d"

def describeSource : PoolError → String
  | .invalidOptions why => "InvalidOptions(" ++ quoted why.reason ++ ")"
  | .noAvailableServer => "NoAvailableServer"

def describe : ConfigError → String
  | .file e => "Io(" ++ e.describe ++ ")"
  | .parse => "Parse"
  | .invalid ps => "Validation([" ++ ", ".intercalate (ps.map describeProblem) ++ "])"
  | .rejected name source =>
      "Server \x7b name: " ++ quoted name ++ ", source: " ++ describeSource source ++ " \x7d"

end ConfigError

/-- Passes a configuration without problems. -/
def PoolConfig.validate (urls : UrlParser) (c : PoolConfig) : Except ConfigError PoolConfig :=
  if (c.problems urls).isEmpty then .ok c else .error (.invalid (c.problems urls))

end TieredPool
