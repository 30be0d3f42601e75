/-! What the command line tells about itself. -/
namespace Chip8.CommandLine

def usage : String := "Usage: chip8vm [OPTIONS] <ROM>\n"

def optionHelp : List (String × String) := [
  ("      --base <ADDR>", "Load address of the program (hex with 0x prefix, or decimal) [default: 512]"),
  ("      --cycles-per-frame <CYCLES_PER_FRAME>", "Instructions executed between two frames [default: 11]"),
  ("      --fps <FPS>", "Frames per second [default: 60]"),
  ("      --max-cycles <N>", "Stop after this many instructions"),
  ("      --exit-address <ADDR>", "Instruction pointer value that ends the program [default: 16]"),
  ("      --headless", "Do not draw the display"),
  ("      --legacy-carry", "Use the legacy 8XY4 carry test"),
  ("  -h, --help", "Print help")]

def help : String :=
  "Run a CHIP-8 program image in the terminal.\n\n" ++ usage ++
  "\nArguments:\n  <ROM>  Program image, a flat sequence of big-endian 16-bit words\n\nOptions:\n" ++
  String.join (optionHelp.map fun (option, purpose) => option ++ "\n          " ++ purpose ++ "\n")

end Chip8.CommandLine
