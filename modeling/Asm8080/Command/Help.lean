import Asm8080.Text.Basic

/-!
Contract: the texts that the program prints about itself.

Owns: the version, the summary of the options and the full description.

Does not own: when they are printed.
-/

namespace Asm8080.Help

def version : Text :=
  "altair80 0.1.0\n".toList

def summary : Text :=
  "Intel 8080 assembler

Usage: altair80 [OPTIONS] [SOURCE]

Arguments:
  [SOURCE]  Assembly source file

Options:
  -s, --sample <NAME>          Assemble a bundled sample program instead of a file
      --format <FORMAT>        Output format [default: text] [possible values: text, json]
  -l, --listing                Print the listing
      --octal                  Print the octal dump
  -x, --hex                    Print the hex image
  -o, --output <OUTPUT>        Output file (default: stdout)
      --log-level <LOG_LEVEL>  One of `TRACE`, `DEBUG`, `INFO`, `WARN`, or `ERROR` [default: WARN]
  -h, --help                   Print help (see more with '--help')
  -V, --version                Print version
".toList

def description : Text :=
  "Two-pass Intel 8080 assembler.

Prints the annotated listing, an octal dump for toggling the program in from
a front panel, and a hex image for loaders. Select sections with --listing,
--octal and --hex; with none given, all three are printed. The exit status is
non-zero if the source has errors, but the output is still written.

Usage: altair80 [OPTIONS] [SOURCE]

Arguments:
  [SOURCE]
          Assembly source file

Options:
  -s, --sample <NAME>
          Assemble a bundled sample program instead of a file

      --format <FORMAT>
          Output format
          
          [default: text]
          [possible values: text, json]

  -l, --listing
          Print the listing

      --octal
          Print the octal dump

  -x, --hex
          Print the hex image

  -o, --output <OUTPUT>
          Output file (default: stdout)

      --log-level <LOG_LEVEL>
          One of `TRACE`, `DEBUG`, `INFO`, `WARN`, or `ERROR`
          
          [default: WARN]

  -h, --help
          Print help (see a summary with '-h')

  -V, --version
          Print version
".toList

def text (long : Bool) : Text :=
  if long then description else summary

end Asm8080.Help
