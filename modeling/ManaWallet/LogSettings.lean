/-!
# LogSettings — how a process reports what it does

The settings are read from named variables.  The words `true` and `false` count in any case: no character
outside ASCII has a letter of theirs as its lower-case form, so comparing ASCII letters is enough.
-/

namespace ManaWallet

/-- How a process reports what it does. -/
structure LogSettings where
  serviceName : String := "mana-ledger"
  logLevel : String := "info"
  consoleOutput : Bool := true
  jsonLogs : Bool := false
deriving DecidableEq, Repr

namespace LogSettings

/-- Whether a value is a word of small ASCII letters, in any case. -/
def isWord (word value : String) : Bool := value.map Char.toLower == word

/-- The settings that variables give; one that is not set leaves its setting as it is, except that logs
in a container are JSON unless a variable says otherwise. -/
def ofVariables (lookup : String → Option String) : LogSettings :=
  let standard : LogSettings := {}
  let inContainer :=
    (lookup "KUBERNETES_SERVICE_HOST").isSome || (lookup "DOCKER_CONTAINER").isSome
  { serviceName := (lookup "OTEL_SERVICE_NAME").getD standard.serviceName
    logLevel := (lookup "ML_LOG_LEVEL" <|> lookup "RUST_LOG").getD standard.logLevel
    consoleOutput := (lookup "ML_CONSOLE_OUTPUT").elim standard.consoleOutput fun value =>
      !isWord "false" value && value != "0"
    jsonLogs := (lookup "ML_JSON_LOGS").elim inContainer fun value =>
      isWord "true" value || value == "1" }

/-- The settings with another level. -/
def withLogLevel (s : LogSettings) (logLevel : String) : LogSettings := { s with logLevel }

end LogSettings

end ManaWallet
