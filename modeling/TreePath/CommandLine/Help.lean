/-! # Help

The texts that tell how to use the program, and its version. -/

namespace TreePath

/-- The name of the program. -/
def programName : String := "fixturepath"

/-- The line that tells the version. -/
def versionText : String := programName ++ " 0.1.0\n"

/-- Lines as a text. -/
def textOfLines (lines : List String) : String := String.join (lines.map (· ++ "\n"))

/-- How to use the program, or a command of it. -/
def helpText : Option String → String
  | some "parse" => textOfLines [
      "Parse an expression and print its canonical form and compiled resolver",
      "",
      "Usage: " ++ programName ++ " parse [OPTIONS] <EXPRESSION>",
      "",
      "Arguments:",
      "  <EXPRESSION>  ",
      "",
      "Options:",
      "  -v, --verbose  Enable debug logging",
      "  -h, --help     Print help"]
  | some "sort" => textOfLines [
      "Print expressions in override application order",
      "",
      "Usage: " ++ programName ++ " sort [OPTIONS] <EXPRESSIONS>...",
      "",
      "Arguments:",
      "  <EXPRESSIONS>...  ",
      "",
      "Options:",
      "  -v, --verbose  Enable debug logging",
      "  -h, --help     Print help"]
  | some "resolve" => textOfLines [
      "Resolve an expression against a YAML/JSON tree file",
      "",
      "Usage: " ++ programName ++ " resolve [OPTIONS] <FILE> <EXPRESSION>",
      "",
      "Arguments:",
      "  <FILE>        Tree file (use \"-\" for stdin; .gz is decompressed)",
      "  <EXPRESSION>  ",
      "",
      "Options:",
      "  -s, --strict   Fail when nothing matches (overrides the config file)",
      "  -v, --verbose  Enable debug logging",
      "  -h, --help     Print help"]
  | _ => textOfLines [
      "Parse, order and resolve fixture path expressions",
      "",
      "Usage: " ++ programName ++ " [OPTIONS] <COMMAND>",
      "",
      "Commands:",
      "  parse    Parse an expression and print its canonical form and compiled resolver",
      "  sort     Print expressions in override application order",
      "  resolve  Resolve an expression against a YAML/JSON tree file",
      "  help     Print this message or the help of the given subcommand(s)",
      "",
      "Options:",
      "  -v, --verbose  Enable debug logging",
      "  -h, --help     Print help",
      "  -V, --version  Print version"]

end TreePath
