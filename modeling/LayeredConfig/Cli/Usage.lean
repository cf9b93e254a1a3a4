import LayeredConfig.Cli.Arguments

/-! # What the program says about its arguments

* `helpText`                the help text
* `UsageError.complaint?`   what is said of arguments that ask for nothing -/

namespace LayeredConfig.Cli

/-- The name and the version of the program. -/
def versionText : String := "hearth 0.2.1\n"

def usageLine : String := "Usage: hearth [OPTIONS] <COMMAND>"

def helpText : String :=
  "Inspect the merged configuration of a hearth deployment\n\n" ++ usageLine ++ "\n\n" ++
  "Commands:\n" ++
  "  get      Print the merged value at a dot path\n" ++
  "  dump     Print the whole merged configuration\n" ++
  "  sources  List registered sources in merge order\n" ++
  "  help     Print this message or the help of the given subcommand(s)\n\n" ++
  "Options:\n" ++
  "  -c, --config <CONFIG>  Entry configuration file (overrides HEARTH_CONFIG_PATH)\n" ++
  "  -v, --verbose          Enable verbose logging\n" ++
  "  -l, --log <LOG>        Logging output: 0/off, 1/stdout, 2/stderr (default), or filename " ++
  "[default: 2]\n" ++
  "  -f, --format <FORMAT>  Output format [default: yaml] [possible values: json, yaml]\n" ++
  "  -h, --help             Print help\n" ++
  "  -V, --version          Print version\n"

namespace UsageError

/-- The values that an option may have, where they are few. -/
def choices : Setting → String
  | .format => "\n  [possible values: json, yaml]"
  | _ => ""

/-- The complaint about arguments; what was asked for is none. -/
def complaint? : UsageError → Option String
  | .help => none
  | .version => none
  | .nothingAsked => none
  | .unknownArgument argument => "unexpected argument '" ++ argument ++ "' found\n\n" ++ usageLine
  | .unknownCommand argument => "unrecognized subcommand '" ++ argument ++ "'\n\n" ++ usageLine
  | .missingCommand =>
    "'hearth' requires a subcommand but one was not provided\n" ++
      "  [subcommands: get, dump, sources, help]\n\n" ++ usageLine
  | .missingPath =>
    "the following required arguments were not provided:\n  <PATH>\n\n" ++
      "Usage: hearth get <PATH>"
  | .repeated option =>
    "the argument '" ++ option ++ "' cannot be used multiple times\n\n" ++ usageLine
  | .missingValue s =>
    "a value is required for '" ++ s.usage ++ "' but none was supplied" ++ choices s
  | .badValue s value => "invalid value '" ++ value ++ "' for '" ++ s.usage ++ "'" ++ choices s
  | .needlessValue option value =>
    "unexpected value '" ++ value ++ "' for '" ++ option ++ "' found; no more were expected\n\n" ++
      usageLine

end UsageError
end LayeredConfig.Cli
