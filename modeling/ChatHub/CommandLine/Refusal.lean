import ChatHub.CommandLine.Help
import ChatHub.CommandLine.Number
import ChatHub.Text.Plain
/-!
Why arguments did not lead to a command, and what is said about it.
-/

set_option autoImplicit false

namespace ChatHub.CommandLine

inductive ValueFault where
  | number (fault : NumberFault)
  | address
  deriving DecidableEq, Repr

def ValueFault.message : ValueFault → String
  | .number fault => fault.message
  | .address => "invalid socket address syntax"

/-- A mistake in the arguments. Labels name an argument as the help does. -/
inductive Mistake where
  | unrecognizedSubcommand (name : String)
  | unexpectedArgument (argument : String)
  | missingArguments (labels : List String)
  | valueRequired (label : String)
  | repeated (label : String)
  | unexpectedValue (value label : String)
  | invalidValue (value label : String) (fault : ValueFault)
  deriving DecidableEq, Repr

/-- How arguments are quoted: without what only a terminal understands. -/
abbrev Quoting := Plain.Interruption

def Quoting.quote (quoting : Quoting) (argument : String) : String :=
  "'" ++ Plain.text quoting argument ++ "'"

def Mistake.headline (quoting : Quoting) : Mistake → String
  | .unrecognizedSubcommand name => "unrecognized subcommand " ++ quoting.quote name
  | .unexpectedArgument argument => "unexpected argument " ++ quoting.quote argument ++ " found"
  | .missingArguments labels =>
    "the following required arguments were not provided:"
      ++ String.join (labels.map fun label => "\n  " ++ label)
  | .valueRequired label =>
    "a value is required for '" ++ label ++ "' but none was supplied"
  | .repeated label => "the argument '" ++ label ++ "' cannot be used multiple times"
  | .unexpectedValue value label =>
    "unexpected value " ++ quoting.quote value ++ " for '" ++ label
      ++ "' found; no more were expected"
  | .invalidValue value label fault =>
    "invalid value " ++ quoting.quote value ++ " for '" ++ label ++ "': " ++ fault.message

/-- Whether the way to call the command is shown. It is not when only a value is at fault. -/
def Mistake.showsUsage : Mistake → Bool
  | .valueRequired _ => false
  | .invalidValue .. => false
  | _ => true

inductive Tip where
  | similarSubcommands (names : List String)
  | similarArgument (name : String)
  | inSubcommand (subcommand argument : String)
  | asValue (argument : String)
  | withoutEscape (subcommand : String)
  deriving DecidableEq, Repr

def Tip.text (quoting : Quoting) : Tip → String
  | .similarSubcommands [name] => "a similar subcommand exists: '" ++ name ++ "'"
  | .similarSubcommands names =>
    "some similar subcommands exist: "
      ++ ", ".intercalate (names.map fun name => "'" ++ name ++ "'")
  | .similarArgument name => "a similar argument exists: '" ++ name ++ "'"
  | .inSubcommand subcommand argument => "'" ++ subcommand ++ " " ++ argument ++ "' exists"
  | .asValue argument =>
    "to pass " ++ quoting.quote argument ++ " as a value, use "
      ++ quoting.quote ("-- " ++ argument)
  | .withoutEscape subcommand =>
    "subcommand '" ++ subcommand ++ "' exists; to use it, remove the '--' before it"

/-- Arguments that are no command. A mistake knows the page of the command that it was made in,
and how that is called. -/
inductive Refusal where
  | help (page : HelpPage)
  | version
  /-- Nothing was asked for; the program's help stands in. -/
  | noArguments
  | mistake (mistake : Mistake) (tip : Option Tip) (page : HelpPage) (usage : String)
  deriving DecidableEq, Repr

namespace Refusal

def textWith (quoting : Quoting) : Refusal → String
  | .help page => page.text
  | .version => versionText
  | .noArguments => HelpPage.program.text
  | .mistake what tip page usage =>
    "error: " ++ what.headline quoting ++ "\n\n"
      ++ (tip.map fun tip => "  tip: " ++ tip.text quoting ++ "\n\n").getD ""
      ++ (if what.showsUsage then
          "Usage: " ++ usage ++ "\n" ++ (if page.takesHelp then "\n" else "")
        else "")
      ++ (if page.takesHelp then "For more information, try '--help'.\n" else "")

def text (refusal : Refusal) : String :=
  refusal.textWith .final

def printed (refusal : Refusal) : String :=
  refusal.textWith .passing

/-- Whether it was asked for, so that the program succeeds. -/
def wanted : Refusal → Bool
  | .help _ | .version => true
  | .noArguments | .mistake .. => false

def exitCode (refusal : Refusal) : Nat :=
  if refusal.wanted then 0 else 2

end Refusal

end ChatHub.CommandLine
