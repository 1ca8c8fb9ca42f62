import RingTape.CommandLine.Checks

namespace RingTape
namespace CommandLine

/-!
# Ways to spell a command

A program can be named by a path or given as code, and a tape length can
stand behind either as a positional argument, behind its option, or in one of
the layers below the arguments.  Around these words there may be others, and
`FurtherOptions` says which: flags, and the options for everything but the
program and the length, in any spelling that options have.  Whether the values
of these options can be read, and whether one of them is given twice, is left
open.
-/

/-- The option is about neither the program nor the length of its tape. -/
def ValueOption.IsFurther : ValueOption → Prop
  | code | tapeLength => False
  | mode | stepLimit | timeout => True

/-- Letters behind a dash: flags, and behind them perhaps a further option.
The mark tells whether the value of that option is still to come. -/
inductive FurtherLetters : List Char → Bool → Prop
  | none : FurtherLetters [] false
  | flag {letter : Char} {rest : List Char} {waiting : Bool} {flag : Flag} :
      Switch.short? letter = some (.flag flag) → FurtherLetters rest waiting →
      FurtherLetters (letter :: rest) waiting
  | option {letter : Char} {rest : List Char} {option : ValueOption} :
      Switch.short? letter = some (.value option) → option.IsFurther →
      FurtherLetters (letter :: rest) rest.isEmpty

/-- One argument that is about flags and further options alone.  The mark
tells whether a value is still to come. -/
inductive FurtherWord : String → Bool → Prop
  | letters {text : String} {letter : Char} {rest : List Char} {waiting : Bool} :
      text.toList = '-' :: letter :: rest → letter ≠ '-' →
      FurtherLetters (letter :: rest) waiting → FurtherWord text waiting
  | flag {text : String} {name : List Char} {flag : Flag} :
      text.toList = '-' :: '-' :: name → Switch.long? name = some (.flag flag) →
      FurtherWord text false
  | option {text : String} {name : List Char} {option : ValueOption} :
      text.toList = '-' :: '-' :: name → Switch.long? name = some (.value option) →
      option.IsFurther → FurtherWord text true
  | assigned {text : String} {name value : List Char} {option : ValueOption} :
      text.toList = '-' :: '-' :: (name ++ '=' :: value) →
      Switch.long? name = some (.value option) → option.IsFurther → FurtherWord text false

/-- Arguments that are about flags and further options alone, values
included. -/
inductive FurtherOptions : List String → Prop
  | none : FurtherOptions []
  | alone {text : String} {rest : List String} :
      FurtherWord text false → FurtherOptions rest → FurtherOptions (text :: rest)
  | valued {text : String} {rest : List String} (value : String) :
      FurtherWord text true → FurtherOptions rest → FurtherOptions (text :: value :: rest)

namespace Surroundings

/-- Two surroundings differ at most in their files and in what their layers
say about the tape length. -/
structure AlikeButForLength (first second : Surroundings) : Prop where
  program : first.program = second.program
  terminal : first.terminal = second.terminal
  inputTerminal : first.inputTerminal = second.inputTerminal
  log : first.log = second.log
  memory : first.memory = second.memory
  breakdown : first.breakdown = second.breakdown
  handlerFailure : first.handlerFailure = second.handlerFailure
  supply : ∀ layer setting, setting ≠ Setting.tapeLength →
    first.supply layer setting = second.supply layer setting

/-- What this layer says about the tape length is a length, if it says
anything. -/
def SoundLength (surroundings : Surroundings) (layer : Layer) : Prop :=
  ∀ text, surroundings.supply layer .tapeLength = some text →
    Setting.tapeLength.accepts layer text = true

/-- The layers give the tape this length: a variable does, or, in absence of
that, the settings file. -/
inductive GivesLength (surroundings : Surroundings) (length : Nat) : Prop
  | environment {text : String} :
      surroundings.supply .environment .tapeLength = some text →
      Setting.readLength? text = some length → surroundings.SoundLength .file →
      GivesLength surroundings length
  | file {text : String} :
      surroundings.supply .environment .tapeLength = none →
      surroundings.supply .file .tapeLength = some text →
      Setting.readLength? text = some length → GivesLength surroundings length

end Surroundings

/-- An answer with these words in front of all others. -/
def Answer.behind (words : String) (answer : Answer) : Answer :=
  { answer with remarks := words ++ answer.remarks }

/-- Answers in two surroundings are the same but for the words about the
settings file.  These are the first ones, if the command gets that far. -/
inductive AlikeButForLoading (first second : Surroundings) :
    Option Answer → Option Answer → Prop
  | unsaid (answer : Option Answer) : AlikeButForLoading first second answer answer
  | said (answer : Option Answer) :
      AlikeButForLoading first second
        (answer.map (.behind (first.log.text first.loading)))
        (answer.map (.behind (second.log.text second.loading)))

end CommandLine
end RingTape
