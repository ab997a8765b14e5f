namespace HartRuntime.Log

/-- How serious a record is. -/
inductive Level where
  | error
  | warn
  | info
  | debug
  | trace
  deriving DecidableEq

/-- Distance from silence; the more serious a level, the lower its rank. -/
def Level.rank : Level → Nat
  | .error => 1
  | .warn => 2
  | .info => 3
  | .debug => 4
  | .trace => 5

/-- The least serious level that is still let through, if any is. -/
inductive Filter where
  | off
  | upTo (level : Level)
  deriving DecidableEq

def Filter.rank : Filter → Nat
  | .off => 0
  | .upTo level => level.rank

def Filter.admits (filter : Filter) (level : Level) : Bool :=
  level.rank ≤ filter.rank

/-- The filter that a setting asks for, in letters of either case. Without a setting, and
    for a word that means nothing, everything is let through. -/
def Filter.ofSetting : Option String → Filter
  | none => .upTo .trace
  | some setting =>
    let word := setting.map Char.toLower
    if word = "error" then .upTo .error
    else if word = "warn" then .upTo .warn
    else if word = "info" then .upTo .info
    else if word = "debug" then .upTo .debug
    else if word = "off" then .off
    else .upTo .trace

/-- A level's terminal colour. -/
def Level.colour : Level → String
  | .error => "31"
  | .warn => "93"
  | .info => "34"
  | .debug => "32"
  | .trace => "90"

/-- A level's name in five columns. -/
def Level.label : Level → String
  | .error => "ERROR"
  | .warn => " WARN"
  | .info => " INFO"
  | .debug => "DEBUG"
  | .trace => "TRACE"

/-- A record as one coloured line. -/
def line (level : Level) (text : String) : String :=
  "\x1b[" ++ level.colour ++ "m[" ++ level.label ++ "] " ++ text ++ "\x1b[0m\n"

end HartRuntime.Log
