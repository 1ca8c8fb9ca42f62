namespace RingTape

/-!
# Painted text

A style paints a text by writing an escape sequence in front of it and
another one behind it.  The second one switches every style off, so styles
do not nest and a text painted twice is not what one would expect.  The
plain style writes nothing at all, while a colored style writes both
sequences even around an empty text.
-/

/-- How a piece of a report is painted. -/
inductive Style where
  | plain
  | colored (bold : Bool) (red green blue : Nat)
  deriving DecidableEq, Repr

namespace Style

/-- The sequence that begins a style. -/
def opening : Style → String
  | plain => ""
  | colored bold red green blue =>
    "\x1b[" ++ (if bold then "1;" else "") ++ "38;2;" ++ toString red ++ ";" ++
      toString green ++ ";" ++ toString blue ++ "m"

/-- The sequence that ends a style. -/
def closing : Style → String
  | plain => ""
  | colored _ _ _ _ => "\x1b[0m"

/-- A text in a style. -/
def paint (style : Style) (text : String) : String :=
  style.opening ++ text ++ style.closing

end Style

/-- The styles of the pieces that reports are made of. -/
structure Palette where
  error : Style
  location : Style
  source : Style
  caret : Style
  notice : Style
  deriving DecidableEq, Repr

namespace Palette

/-- Nothing is painted. -/
def plain : Palette := ⟨.plain, .plain, .plain, .plain, .plain⟩

/-- Messages and carets are bold; the rest is colored only. -/
def colored : Palette where
  error := .colored true 243 139 168
  location := .colored false 137 180 250
  source := .colored false 205 214 244
  caret := .colored true 249 226 175
  notice := .colored false 108 112 134

/-- The palette for a wish to see colors. -/
def forColor (color : Bool) : Palette := if color then colored else plain

end Palette
end RingTape
