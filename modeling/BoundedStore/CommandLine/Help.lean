import BoundedStore.CommandLine.Arguments

/-!
# Help texts

What is printed for `--help` and `--version`.
-/

namespace BoundedStore.CommandLine

def versionText : String := "ramfs 0.1.0\n"

def programHelp : String :=
  "Fixed-capacity in-memory file store\n\n" ++
  "Usage: ramfs [OPTIONS] <COMMAND>\n\n" ++
  "Commands:\n" ++
  "  stage          Load local files into a store, verify them, and print a summary\n" ++
  "  checksum-size  Print the checksum companion size for a data size\n" ++
  "  help           Print this message or the help of the given subcommand(s)\n\n" ++
  "Options:\n" ++
  "  -c, --config <CONFIG>  TOML config file (defaults: 100 MB, 512 bytes per checksum)\n" ++
  "  -h, --help             Print help\n" ++
  "  -V, --version          Print version\n"

def stageHelp : String :=
  "Load local files into a store, verify them, and print a summary\n\n" ++
  "Usage: ramfs stage [OPTIONS] <FILES>...\n\n" ++
  "Arguments:\n" ++
  "  <FILES>...  Files to stage, keyed by file name\n\n" ++
  "Options:\n" ++
  "  -c, --config <CONFIG>  TOML config file (defaults: 100 MB, 512 bytes per checksum)\n" ++
  "  -h, --help             Print help\n"

def companionSizeHelp : String :=
  "Print the checksum companion size for a data size\n\n" ++
  "Usage: ramfs checksum-size [OPTIONS] <SIZE>\n\n" ++
  "Arguments:\n" ++
  "  <SIZE>  \n\n" ++
  "Options:\n" ++
  "      --bytes-per-checksum <BYTES_PER_CHECKSUM>  \n" ++
  "  -c, --config <CONFIG>                          " ++
  "TOML config file (defaults: 100 MB, 512 bytes per checksum)\n" ++
  "  -h, --help                                     Print help\n"

def helpHelp : String :=
  "Print this message or the help of the given subcommand(s)\n\n" ++
  "Usage: ramfs help [COMMAND]...\n\n" ++
  "Arguments:\n" ++
  "  [COMMAND]...  Print help for the subcommand(s)\n"

/-- The help for a topic. -/
def helpText : Topic → String
  | .program => programHelp
  | .stage => stageHelp
  | .companionSize => companionSizeHelp
  | .help => helpHelp

end BoundedStore.CommandLine
