import ChangeFeed.Command.Program

/-!
# Help — what is said about using the program

The text of the help lists the flags of each command with the variables that
stand in for them. A command line that is refused gets one line that says
why.
-/

namespace ChangeFeed

/-- A flag on a line of the help. -/
def Flag.helpLine (flag : Flag) : Text :=
  "      --".toList ++ flag.name ++
    (if flag.isSwitch then [] else " <VALUE>".toList) ++
    (match flag.environmentName? with
      | some name => " [env: ".toList ++ name ++ [']']
      | none => []) ++ ['\n']

/-- A command in the help. -/
def CommandKind.helpText (kind : CommandKind) : Text :=
  "  ".toList ++ kind.name ++ '\n' :: kind.flags.flatMap Flag.helpLine

/-- **The text of the help.** -/
def Command.helpText : Text :=
  "Turns change envelopes into records to load and applies their schema changes\n\n".toList ++
    "Commands:\n".toList ++ CommandKind.sync.helpText ++ CommandKind.ddl.helpText

/-- What is said about a command line that is refused. -/
def UsageFault.message : UsageFault → Text
  | unknownArgument => "unexpected argument".toList
  | badValue => "invalid value for an argument".toList
  | missingValue => "a value is required for an argument".toList
  | repeatedFlag => "an argument cannot be used multiple times".toList
  | needlessValue => "a value for an argument that takes none".toList
  | noCommand => "a command is required: sync or ddl".toList
  | help => []

/-- The code that the program ends with for a command line that is not carried out. -/
def UsageFault.exitCode : UsageFault → Nat
  | help => 0
  | _ => 2

end ChangeFeed
