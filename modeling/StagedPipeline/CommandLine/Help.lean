import StagedPipeline.CommandLine.Invocation

/-!
# Help

What the program says about itself and its subcommands, and about arguments it refuses.
-/

namespace StagedPipeline.CommandLine

/-- The name of the program. -/
def programName : String := "autopipe"

/-- The version of the program. -/
def version : String := "0.1.0"

/-- A text, filled up with blanks to a width. -/
def padded (width : Nat) (text : String) : String :=
  text ++ String.ofList (List.replicate (width - text.length) ' ')

/-- Characters in a line. -/
def lineWidth : Nat := 100

/-- Characters a first column takes with the margins around it. -/
def takenWidth (width : Nat) : Nat := width + 12

/-- Whether the entries of a second column get lines of their own: the first column takes more than
two fifths of a line, and some entry is longer than the rest of it. -/
def needsOwnLines (width : Nat) (rows : List (String × String)) : Bool :=
  let taken := takenWidth width
  taken ≤ lineWidth && 2 * lineWidth < 5 * taken
    && rows.any fun (_, right) => lineWidth - taken < right.length

/-- Two columns. The second begins two blanks behind the longest entry of the first, or on the next
line. -/
def columns (rows : List (String × String)) : String :=
  let width := (rows.map (·.1.length)).foldl Nat.max 0
  let ownLines := needsOwnLines width rows
  String.join (rows.map fun (left, right) =>
    if ownLines then "  " ++ left ++ "\n          " ++ right ++ "\n"
    else "  " ++ padded (width + 2) left ++ right ++ "\n")

/-- A titled table; there is none without rows. -/
def titled (title : String) (rows : List (String × String)) : String :=
  if rows.isEmpty then "" else "\n" ++ title ++ ":\n" ++ columns rows

/-- The row of an option. -/
def optionRow (a : Argument) : String × String :=
  ("    " ++ a.form, a.purpose)

/-- The row of the option that asks for help. -/
def helpRow : String × String := ("-h, --help", "Print help")

/-- The row of the option that asks for the version. -/
def versionRow : String × String := ("-V, --version", "Print version")

/-- What the subcommand that explains others does. -/
def helpPurpose : String := "Print this message or the help of the given subcommand(s)"

namespace Topic

/-- What a topic is about. -/
def purpose : Topic → String
  | program => "Staged pipeline engine for autonomous task completion"
  | subcommand s => s.purpose
  | help => helpPurpose

/-- How something is called. -/
def usage : Topic → String
  | program => programName ++ " [OPTIONS] <COMMAND>"
  | subcommand .run => programName ++ " run [OPTIONS] " ++ Argument.task.form
  | subcommand .config => programName ++ " config [OPTIONS]"
  | help => programName ++ " help [COMMAND]..."

/-- The tables of a topic. -/
def tables : Topic → String
  | program =>
    titled "Commands" ([Subcommand.run, .config].map (fun s => (s.name, s.purpose))
        ++ [(helpName, helpPurpose)])
      ++ titled "Options" [optionRow .logJson, helpRow, versionRow]
  | subcommand s => titled "Options" (s.arguments.map optionRow ++ [helpRow])
  | help => titled "Arguments" [("[COMMAND]...", "Print help for the subcommand(s)")]

/-- The text of a topic. -/
def text (t : Topic) : String :=
  t.purpose ++ "\n\nUsage: " ++ t.usage ++ "\n" ++ t.tables

end Topic

/-- The text about the version. -/
def versionText : String := programName ++ " " ++ version ++ "\n"

/-- What is said about arguments that are refused. -/
def ArgumentError.message : ArgumentError → String
  | noSubcommand => "'" ++ programName ++ "' requires a subcommand but one was not provided"
  | unknownSubcommand word => "unrecognized subcommand '" ++ word ++ "'"
  | unknownArgument word => "unexpected argument '" ++ word ++ "' found"
  | surplusValue name value =>
    "unexpected value '" ++ value ++ "' for '--" ++ name ++ "' found; no more were expected"
  | repeated a => "the argument '" ++ a.form ++ "' cannot be used multiple times"
  | missingValue a => "a value is required for '" ++ a.form ++ "' but none was supplied"
  | unreadableValue a value => "invalid value '" ++ value ++ "' for '" ++ a.form ++ "'"
  | missingArgument a => "the following required arguments were not provided: " ++ a.form

end StagedPipeline.CommandLine
