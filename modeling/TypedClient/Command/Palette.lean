import TypedClient.Text.Split

/-!
# The colors of messages

Every part of a message has a role, and a theme gives each role a color. Text is
painted by control sequences; without colors the sequences select the color of the
terminal, so they are written all the same.
-/

namespace TypedClient.Command

open Text

inductive Color where
  | rgb (red green blue : UInt8)
  | indexed (number : UInt8)
  | terminalDefault
  deriving DecidableEq, Repr

/-- The parameters of the control sequence that selects a color for text. -/
def Color.selection : Color → String
  | .rgb red green blue =>
      "38;2;" ++ toString red ++ ";" ++ toString green ++ ";" ++ toString blue
  | .indexed number => "38;5;" ++ toString number
  | .terminalDefault => "39"

/-- The control sequence that selects a color for text. -/
def Color.sequence (color : Color) : String :=
  "\x1b[" ++ color.selection ++ "m"

/-- A text in a color, followed by a return to the color of the terminal. -/
def Color.paint (color : Color) (text : String) : String :=
  color.sequence ++ text ++ Color.terminalDefault.sequence

/-- When colors are used. -/
inductive ColorMode where
  | always
  | never
  | auto
  deriving DecidableEq, Repr

def ColorMode.ofName? : String → Option ColorMode
  | "always" => some .always
  | "never" => some .never
  | "auto" => some .auto
  | _ => none

/-- Which theme is used. -/
inductive ThemeMode where
  | dark
  | light
  | auto
  deriving DecidableEq, Repr

def ThemeMode.ofName? : String → Option ThemeMode
  | "dark" => some .dark
  | "light" => some .light
  | "auto" => some .auto
  | _ => none

inductive Theme where
  | dark
  | light
  deriving DecidableEq, Repr

/-- What a part of a message is. -/
inductive Role where
  | timestamp
  | primary
  | accent
  | info
  | success
  | label
  | value
  deriving DecidableEq, Repr

def Theme.color : Theme → Role → Color
  | .dark, .timestamp => .rgb 118 166 166
  | .dark, .primary => .rgb 191 126 4
  | .dark, .accent => .rgb 166 84 55
  | .dark, .info => .rgb 118 166 166
  | .dark, .success => .rgb 118 166 166
  | .dark, .label => .rgb 217 164 4
  | .dark, .value => .rgb 242 211 56
  | .light, .timestamp => .rgb 92 62 38
  | .light, .primary => .rgb 70 42 25
  | .light, .accent => .rgb 211 99 70
  | .light, .info => .rgb 40 111 170
  | .light, .success => .rgb 34 142 90
  | .light, .label => .rgb 176 103 66
  | .light, .value => .rgb 199 146 76

/-- What the surroundings of a run tell about colors: whether the output is a terminal,
whether the user refuses colors, and the terminal's colors as `foreground;background`. -/
structure Surroundings where
  isTerminal : Bool
  refusesColors : Bool
  terminalColors : Option String
  deriving DecidableEq, Repr

def ColorMode.isEnabled (surroundings : Surroundings) : ColorMode → Bool
  | .always => true
  | .never => false
  | .auto => surroundings.isTerminal && !surroundings.refusesColors

/-- The number that digits spell, if it fits a byte. -/
def byteOfDigits? (digits : List Char) : Option Nat :=
  if digits.isEmpty || !digits.all Char.isDigit then
    none
  else
    let number := digits.foldl (fun number digit => number * 10 + (digit.toNat - 0x30)) 0
    if number < 256 then some number else none

/-- A byte written in decimal, with an optional plus sign. -/
def byteOfText? : List Char → Option Nat
  | '+' :: digits => byteOfDigits? digits
  | digits => byteOfDigits? digits

/-- The background color of a terminal: the number after the last semicolon. -/
def background? (terminalColors : String) : Option Nat :=
  (splitAtChar ';' terminalColors.toList).getLast?.bind byteOfText?

/-- The theme for a terminal. Background colors from 7 on are light. -/
def Theme.ofTerminalColors (terminalColors : Option String) : Theme :=
  match terminalColors.bind background? with
  | some number => if 7 ≤ number then .light else .dark
  | none => .dark

def ThemeMode.theme (surroundings : Surroundings) : ThemeMode → Theme
  | .dark => .dark
  | .light => .light
  | .auto => .ofTerminalColors surroundings.terminalColors

/-- How the parts of a message are colored. -/
structure Palette where
  isEnabled : Bool
  theme : Theme
  deriving DecidableEq, Repr

namespace Palette

def ofModes (surroundings : Surroundings) (color : ColorMode) (theme : ThemeMode) : Palette :=
  ⟨color.isEnabled surroundings, theme.theme surroundings⟩

def color (palette : Palette) (role : Role) : Color :=
  if palette.isEnabled then palette.theme.color role else .terminalDefault

def paint (palette : Palette) (role : Role) (text : String) : String :=
  (palette.color role).paint text

end Palette

end TypedClient.Command
