namespace WorkItems

/-! Settings from the environment, read anew for every use. -/

/-- The variables of an environment; one that is not set has no value. -/
abbrev Environment := String → Option String

namespace Settings

/-- Undeclared fields are reported only when the setting says `true`, in letters of any case. -/
def isStrict (environment : Environment) : Bool :=
  (environment "PMCONTRACT_STRICT").any fun setting => setting.toLower == "true"

/-- Capitals, of which two have a second small letter beside their usual one. -/
def capital (c : Char) : Char :=
  if c = '\u0131' then 'I' else if c = '\u017f' then 'S' else c.toUpper

/-- The severities that have a name, in numbers. -/
def levels : List (String × Nat) :=
  [("CRITICAL", 50), ("FATAL", 50), ("ERROR", 40), ("WARNING", 30), ("WARN", 30), ("INFO", 20),
   ("DEBUG", 10), ("NOTSET", 0)]

/-- The least severity that is logged; an unknown name leaves it at warnings. -/
def logLevel (environment : Environment) : Nat :=
  let name := (environment "PMCONTRACT_LOG_LEVEL").getD "WARNING"
  (levels.lookup (String.ofList (name.toList.map capital))).getD 30

end Settings

/-- The package's log: the least severity it takes, and how many outputs it has. -/
structure LogSetup where
  level : Nat
  outputs : Nat

/-- Nothing is attached to the log before it is configured. -/
def LogSetup.initial : LogSetup := ⟨0, 0⟩

/-- Attaches one output, unless there is one, and sets the level anew. -/
def LogSetup.configure (environment : Environment) (setup : LogSetup) : LogSetup :=
  ⟨Settings.logLevel environment, if setup.outputs = 0 then 1 else setup.outputs⟩

end WorkItems
