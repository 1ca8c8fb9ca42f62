namespace RingTape
namespace CommandLine

/-!
# The usage text

The text that explains the command line.  It names the program as it was
called and ends with an empty line.
-/

/-- The usage text of a program with this name. -/
def usage (program : String) : String :=
  "Usage:\n" ++
  "  " ++ program ++ " [OPTIONS] <PATH> [TAPE_LEN]   # Run the program in PATH (a .bf file)\n" ++
  "  " ++ program ++
    " [OPTIONS] --code \"<code>\" [TAPE_LEN] # Run code given on the command line\n" ++
  "\n" ++
  "Options:\n" ++
  "  --code,     -c <CODE>        Run CODE instead of reading a file\n" ++
  "  --mode,     -m <char|numeric> Output and input as characters (default) or numbers\n" ++
  "  --tape-len, -t <N>           Number of tape cells (default 30000)\n" ++
  "  --debug,    -d               " ++
    "Print a step-by-step table of operations instead of executing\n" ++
  "  --max-steps <N>              Abort after N instructions\n" ++
  "  --timeout   <MS>             Abort after MS milliseconds of wall-clock time\n" ++
  "  --help,     -h               Show this help\n" ++
  "\n" ++
  "Notes:\n" ++
  "- Characters other than ><+-.,[] are comments.\n" ++
  "- Input (`,`) reads one line: a single character in char mode, 0-255 in numeric mode.\n" ++
  "  Anything else ends the run.\n" ++
  "- Settings also come from BFTAPE_TAPE_LEN, BFTAPE_MODE, BFTAPE_MAX_STEPS,\n" ++
  "  BFTAPE_TIMEOUT_MS and the [run] section of <config dir>/bftape.toml.\n" ++
  "\n"

end CommandLine
end RingTape
