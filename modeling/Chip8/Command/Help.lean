/-!
# Help

Help is laid out for lines of a hundred characters. On the command that lists an image there is a
brief and a full one; the full one goes on about what the command does, and sets its options apart.

## Main definitions

* `Command.Extent`, `Command.Subject` — what help is asked for
* `Command.headline` — what the program is for
* `Command.helpOn` — how it is used
* `Command.version`
-/

namespace Chip8.Command

/-- The given lines, each closed by a line break. -/
def ofLines (lines : List String) : String := String.join (lines.map (· ++ "\n"))

/-- What is printed when the version is asked for. -/
def version : String := ofLines ["chip8-disasm 0.1.0"]

/-- What the program is for. -/
def headline : String := "Tools to run, debug, and (dis)assemble CHIP-8 ROMs"

/-- How much is to be said. -/
inductive Extent
  | brief
  | full
  deriving DecidableEq, Repr

/-- What help is asked for. -/
inductive Subject
  | program
  | disassemble (extent : Extent)
  /-- The command that prints help. -/
  | help
  deriving DecidableEq, Repr

/-- What is printed when help is asked for. -/
def helpOn : Subject → String
  | .program => ofLines
    [headline,
      "",
      "Usage: chip8 <COMMAND>",
      "",
      "Commands:",
      "  disassemble  Disassemble a CHIP-8 ROM file [aliases: d]",
      "  help         Print this message or the help of the given subcommand(s)",
      "",
      "Options:",
      "  -h, --help     Print help",
      "  -V, --version  Print version"]
  | .disassemble .brief => ofLines
    ["Disassemble a CHIP-8 ROM file",
      "",
      "Usage: chip8 disassemble [OPTIONS] <ROM_PATH>",
      "",
      "Arguments:",
      "  <ROM_PATH>  Path to the ROM file to disassemble",
      "",
      "Options:",
      "  -o, --output <OUTPUT>",
      "          Output file to write to [default: stdout]",
      "      --load-address <LOAD_ADDRESS>",
      "          Virtual address of the first ROM byte [default: 512]",
      "      --bare-unknown",
      "          Print unknown opcodes without their address and bytes",
      "      --strict",
      "          Fail on ROMs with an odd number of bytes instead of dropping the last one",
      "  -h, --help",
      "          Print help (see more with '--help')"]
  | .disassemble .full => ofLines
    ["Disassemble a CHIP-8 ROM file",
      "",
      "Reads the ROM, splits it into two-byte opcodes and maps each one to its instruction. Writes to",
      "stdout unless an output file is given.",
      "",
      "Usage: chip8 disassemble [OPTIONS] <ROM_PATH>",
      "",
      "Arguments:",
      "  <ROM_PATH>",
      "          Path to the ROM file to disassemble",
      "",
      "Options:",
      "  -o, --output <OUTPUT>",
      "          Output file to write to",
      "          ",
      "          [default: stdout]",
      "",
      "      --load-address <LOAD_ADDRESS>",
      "          Virtual address of the first ROM byte",
      "          ",
      "          [default: 512]",
      "",
      "      --bare-unknown",
      "          Print unknown opcodes without their address and bytes",
      "",
      "      --strict",
      "          Fail on ROMs with an odd number of bytes instead of dropping the last one",
      "",
      "  -h, --help",
      "          Print help (see a summary with '-h')"]
  | .help => ofLines
    ["Print this message or the help of the given subcommand(s)",
      "",
      "Usage: chip8 help [COMMAND]...",
      "",
      "Arguments:",
      "  [COMMAND]...  Print help for the subcommand(s)"]

end Chip8.Command
