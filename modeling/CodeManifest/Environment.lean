import CodeManifest.Text.LowerCase

namespace CodeManifest

/-- The settings of the environment, in which nothing and an empty text are the same. -/
structure Environment where
  debug : Text := []
  logFile : Text := []

namespace Environment

/-- The environment with the given variables. -/
def ofVariables (value : Text → Option Text) : Environment where
  debug := (value "MCPGEN_DEBUG").getD []
  logFile := (value "MCPGEN_LOG_FILE").getD []

/-- Does the environment ask for debugging? -/
def wantsDebug (e : Environment) : Bool :=
  ["true", "1", "yes"].any fun t => t.toList = Text.lower e.debug

end Environment

end CodeManifest
