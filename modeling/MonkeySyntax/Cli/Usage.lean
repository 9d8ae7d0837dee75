import MonkeySyntax.Text.Decimal

/-!
# Usage

What the command line says about itself.
-/

namespace MonkeySyntax.Cli

def usage : Text :=
  "usage: monkey [-h] [--tokens] [--ast] [--settings SETTINGS]
              [--log-level LOG_LEVEL] [--log-file LOG_FILE]
              [input]
".toList

def help : Text := usage ++
  "
Parse Monkey source and print its canonical form

positional arguments:
  input                 Source file (use \"-\" for stdin); starts the REPL if
                        omitted

options:
  -h, --help            show this help message and exit
  --tokens              Print the token stream instead of parsing
  --ast                 Print the syntax tree instead of the rendered program
  --settings SETTINGS   Path to a JSON settings file
  --log-level LOG_LEVEL
                        Logging level (overrides the settings file)
  --log-file LOG_FILE   Write logs to a rotating log file instead of stderr

Examples:
  # Start the interactive prompt
  monkey

  # Parse a file and print the canonical rendering
  monkey program.mk

  # Dump the tokens or the syntax tree
  monkey program.mk --tokens
  echo \"let x = 1 + 2;\" | monkey - --ast
".toList

end MonkeySyntax.Cli
