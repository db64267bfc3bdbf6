import MixinCatalog.Command.Arguments

/-!
# Help
-/

namespace MixinCatalog.Command

def versionText : String := "mixinmap 0.1.0\n"

def Topic.text : Topic → String
  | program =>
    "Catalog mixin patterns in JavaScript and TypeScript sources\n\n"
      ++ "Usage: mixinmap <COMMAND>\n\n"
      ++ "Commands:\n"
      ++ "  analyze  Find mixins under a path\n"
      ++ "  init     Initialize configuration file\n"
      ++ "  help     Print this message or the help of the given subcommand(s)\n\n"
      ++ "Options:\n"
      ++ "  -h, --help     Print help\n"
      ++ "  -V, --version  Print version\n"
  | analyze =>
    "Find mixins under a path\n\n"
      ++ "Usage: mixinmap analyze [OPTIONS] <PATH>\n\n"
      ++ "Arguments:\n"
      ++ "  <PATH>  File or directory to analyze\n\n"
      ++ "Options:\n"
      ++ "  -f, --format <FORMAT>        Output format [default: terminal]"
      ++ " [possible values: json, markdown, terminal]\n"
      ++ "  -o, --output <OUTPUT>        Output file (defaults to stdout)\n"
      ++ "      --languages <LANGUAGES>  Languages to analyze (js, ts)\n"
      ++ "      --ignore <IGNORE>        Additional glob patterns to skip\n"
      ++ "      --no-implicit-return     Require an explicit \x60return\x60 of a declared class"
      ++ " [env: MIXINMAP_NO_IMPLICIT_RETURN=]\n"
      ++ "  -v, --verbose...             Increase log verbosity (-v, -vv, -vvv)\n"
      ++ "  -h, --help                   Print help\n"
  | init =>
    "Initialize configuration file\n\n"
      ++ "Usage: mixinmap init [OPTIONS]\n\n"
      ++ "Options:\n"
      ++ "  -f, --force  Force overwrite existing config\n"
      ++ "  -h, --help   Print help\n"
  | help =>
    "Print this message or the help of the given subcommand(s)\n\n"
      ++ "Usage: mixinmap help [COMMAND]...\n\n"
      ++ "Arguments:\n"
      ++ "  [COMMAND]...  Print help for the subcommand(s)\n"

def ArgumentError.text : ArgumentError → String
  | help _ | version => ""
  | noCommand => "error: a command is required"
  | invalidCommand => "error: unrecognized command"
  | unknownArgument => "error: unexpected argument"
  | invalidValue => "error: invalid or missing value for an argument"
  | conflict => "error: an argument cannot be used multiple times"
  | tooManyValues => "error: unexpected value for an argument that takes none"
  | missingArgument => "error: the path to analyze is required"

end MixinCatalog.Command
