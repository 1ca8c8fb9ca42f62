import RingTape.Instruction
import RingTape.Position

namespace RingTape

/-!
# Programs and their brackets

A program is a sequence of instructions.  Reading one from a source text
drops the commentary and refuses texts whose loop brackets do not match, so
everything that runs afterwards may rely on balance.  Reading stops at the
first closing bracket that has nothing to close; brackets that are still
open at the end are reported together, in the order of the text.

The reader keeps only the places of the open brackets.  The pairing that
this implies is recomputed when a program runs; see `Program.matchingEnd?`.
-/

/-- A sequence of instructions. -/
abbrev Program := Array Instruction

/-- Why the brackets of a source text do not match. -/
inductive BracketError where
  /-- The closing bracket at this place has no opening one before it. -/
  | unmatchedClose (place : Position)
  /-- The opening brackets at these places are never closed. -/
  | unmatchedOpen (places : List Position)
  deriving DecidableEq, Repr

namespace BracketError

/-- Every place that an error is about, in the order of the text. -/
def places : BracketError → List Position
  | unmatchedClose place => [place]
  | unmatchedOpen places => places

/-- The report on one place of an error. -/
def messageAt (error : BracketError) (place : Position) : String :=
  "Error on " ++ place.describe ++
    match error with
    | unmatchedClose _ => ": closing ']' without a matching '['"
    | unmatchedOpen _ => ": '[' is never closed with a matching ']'"

/-- The whole report: one line for each place. -/
def message (error : BracketError) : String :=
  "\n".intercalate (error.places.map error.messageAt)

end BracketError

namespace Program

/-- Read the characters from the place `here` on.  The places in `opened`
are those of the brackets that are still open, innermost first, and `read`
holds the instructions in front of `here`. -/
def readFrom (here : Position) (opened : List Position) (read : Program) :
    List Char → Except BracketError Program
  | [] =>
    match opened with
    | [] => .ok read
    | _ :: _ => .error (.unmatchedOpen opened.reverse)
  | character :: rest =>
    match Instruction.ofChar? character with
    | none => readFrom (here.next character) opened read rest
    | some .loopStart =>
      readFrom (here.next character) (here :: opened) (read.push .loopStart) rest
    | some .loopEnd =>
      match opened with
      | [] => .error (.unmatchedClose here)
      | _ :: outer => readFrom (here.next character) outer (read.push .loopEnd) rest
    | some (.command action) =>
      readFrom (here.next character) opened (read.push (.command action)) rest

/-- The program that a source text holds, if its brackets match. -/
def parse (source : String) : Except BracketError Program :=
  readFrom .start [] #[] source.toList

/-- A program as text, without any commentary. -/
def render (program : Program) : String :=
  String.ofList (program.toList.map Instruction.toChar)

end Program
end RingTape
