/-!
# Styled text

`paint` shows a text in a style of a terminal, or plainly where styles are switched off.
-/

namespace MidiPatch.Text

inductive Style
  | normal
  | bold
  | dimmed
  | red
  | green
  | yellow
  | blue
  | magenta
  | white
  | boldRed
  | boldCyan
  | boldUnderlined
  | brightRed
  | brightGreen
  | brightYellow
  | brightBlue
  | brightMagenta
  | brightCyan
  deriving DecidableEq, Repr

/-- The numbers that switch to a style, one after the other. Normal text has none. -/
def Style.codes : Style → List String
  | .normal => []
  | .bold => ["1"]
  | .dimmed => ["2"]
  | .red => ["31"]
  | .green => ["32"]
  | .yellow => ["33"]
  | .blue => ["34"]
  | .magenta => ["35"]
  | .white => ["37"]
  | .boldRed => ["1", "31"]
  | .boldCyan => ["1;36"]
  | .boldUnderlined => ["1", "4"]
  | .brightRed => ["91"]
  | .brightGreen => ["92"]
  | .brightYellow => ["93"]
  | .brightBlue => ["94"]
  | .brightMagenta => ["95"]
  | .brightCyan => ["96"]

def styleCode (code : String) : List Char := '\x1b' :: '[' :: code.toList ++ ['m']

def Style.start (s : Style) : List Char := s.codes.flatMap styleCode

def styleEnd : List Char := ['\x1b', '[', '0', 'm']

/-- Switches to a style again wherever a text switches back to normal. -/
def restyle (start : List Char) : List Char → List Char
  | [] => []
  | '\x1b' :: '[' :: '0' :: 'm' :: rest => styleEnd ++ start ++ restyle start rest
  | c :: rest => c :: restyle start rest

/-- A text of at least the given width in a style. The filling is in that style too. -/
def paintWide (color : Bool) (style : Style) (width : Nat) (s : String) : String :=
  String.ofList <|
    if color && style != .normal then
      style.start ++ (restyle style.start s.toList).rightpad width ' ' ++ styleEnd
    else s.toList.rightpad width ' '

def paint (color : Bool) (style : Style) (s : String) : String := paintWide color style 0 s

end MidiPatch.Text
