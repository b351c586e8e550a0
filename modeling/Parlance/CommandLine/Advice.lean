import Parlance.CommandLine.Arguments

/-!
# Advice

What is printed for a command line that is not carried out: the usage, the version, or what is wrong.
-/

namespace Parlance.CommandLine

/-- The name and version of the program. -/
def versionText : String := "strexpr 0.1.0"

/-- How the program is used. -/
def usageText : String :=
  "\n".intercalate
    ["Compile and evaluate expressions written in grammar-defined languages.",
      "",
      "Usage: strexpr [OPTIONS] <COMMAND>",
      "",
      "Commands:",
      "  eval <EXPR>                              print the value of an arithmetic expression",
      "  tokens [--json] <EXPR>                   print the tokens of an arithmetic expression",
      "  filter --data <DATA> <EXPR>              print the records that a filter selects",
      "  tree [--filter] [--data <DATA>] <EXPR>   print the parsed expression",
      "  help                                     print this text",
      "",
      "Options:",
      "  --max-input-len <N>   reject longer expressions [env: STREXPR_MAX_INPUT=] [default: 4096]",
      "  -v, --verbose         log activity [env: STREXPR_VERBOSE=]",
      "  -h, --help            print this text",
      "  -V, --version         print the version"]

/-- What is wrong with a command line. -/
def Halt.message : Halt → String
  | help | emptyLine => usageText
  | version => versionText
  | missingCommand => "error: a command is required"
  | unknownCommand => "error: unrecognized command"
  | unknownArgument => "error: unexpected argument"
  | missingArgument => "error: a required argument is missing"
  | repeatedSwitch => "error: an option is used more than once"
  | surplusValue => "error: an option without a value is given one"
  | invalidValue | invalidNumber => "error: the value of an option is invalid"

/-- Whether a command line that is not carried out was a request for advice. -/
def Halt.isAdvice (h : Halt) : Bool := h matches help | version

end Parlance.CommandLine
