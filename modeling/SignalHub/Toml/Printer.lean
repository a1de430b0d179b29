import SignalHub.Json.Basic
/-!
# Writing TOML

A document of sections is written with one header for each, one line for each setting and an empty
line between sections.

A text is written in the first of these forms that shows every character as it is: between double
quotes, between single quotes, between three double quotes, between three single quotes. A text that
fits none stands between double quotes, with escapes, three of them if it has line ends. Between
three quotes two may stand together; of a longer run every third one is escaped. A text with line
ends begins on a line of its own.

Results:
* `textStyle`: how a text is quoted.
* `textOf`: a text in quotes.
* `render`: a document.
* `toJson`: what a document says, as a value.
-/
namespace SignalHub.Toml

/-- How a text is quoted. -/
inductive Style where
  /-- Between double quotes. -/
  | basic
  /-- Between single quotes. -/
  | literal
  /-- Between three double quotes. -/
  | longBasic
  /-- Between three single quotes. -/
  | longLiteral
  deriving DecidableEq, Repr

/-- The longest run of a character; `run` of them stand in front already. -/
def longestRun (c : Char) : Nat → List Char → Nat
  | run, [] => run
  | run, x :: rest => if x = c then longestRun c (run + 1) rest else max run (longestRun c 0 rest)

/-- A control character other than a tab and a line end. -/
def isControl (c : Char) : Bool := (c < ' ' && c != '\t' && c != '\n') || c == '\x7f'

/-- How a text is quoted. -/
def textStyle (cs : List Char) : Style :=
  let singles := longestRun '\'' 0 cs
  let doubles := longestRun '"' 0 cs
  let backslash := cs.any (· == '\\')
  let lines := cs.any (· == '\n')
  if cs.any isControl then if lines then .longBasic else .basic
  else if !backslash && doubles == 0 && !lines then .basic
  else if singles == 0 && !lines then .literal
  else if !backslash && doubles ≤ 2 then .longBasic
  else if singles ≤ 2 then .longLiteral
  else if lines then .longBasic
  else .basic

/-- An upper-case hexadecimal digit. -/
def hexDigit (n : Nat) : Char := Char.ofNat (if n < 10 then '0'.toNat + n else 'A'.toNat + n - 10)

/-- The last `width` hexadecimal digits of a number. -/
def hexDigits : Nat → Nat → List Char
  | 0, _ => []
  | width + 1, n => hexDigits width (n / 16) ++ [hexDigit (n % 16)]

/-- The escape of a character other than a quote and a line end, if it needs one. -/
def escape? (c : Char) : Option (List Char) :=
  if c = '\x08' then some ['\\', 'b']
  else if c = '\t' then some ['\\', 't']
  else if c = '\x0c' then some ['\\', 'f']
  else if c = '\r' then some ['\\', 'r']
  else if c = '\\' then some ['\\', '\\']
  else if (c < ' ' ∧ c ≠ '\n') ∨ c = '\x7f' then some ('\\' :: 'u' :: hexDigits 4 c.toNat)
  else none

/-- A character between double quotes. -/
def escape (c : Char) : List Char :=
  if c = '"' then ['\\', '"']
  else if c = '\n' then ['\\', 'n']
  else (escape? c).getD [c]

/-- Characters between three double quotes; `quotes` of them stand in front without an escape. -/
def escapeLong : Nat → List Char → List Char
  | _, [] => []
  | quotes, c :: rest =>
    if c = '"' then
      if quotes < 2 then c :: escapeLong (quotes + 1) rest
      else '\\' :: c :: escapeLong 0 rest
    else (escape? c).getD [c] ++ escapeLong 0 rest

/-- What stands before a text with line ends. -/
def opening (cs : List Char) : List Char := if cs.any (· == '\n') then ['\n'] else []

/-- A text in quotes of a style. -/
def quote (cs : List Char) : Style → List Char
  | .basic => '"' :: cs.flatMap escape ++ ['"']
  | .literal => '\'' :: cs ++ ['\'']
  | .longBasic => ['"', '"', '"'] ++ opening cs ++ escapeLong 0 cs ++ ['"', '"', '"']
  | .longLiteral => ['\'', '\'', '\''] ++ opening cs ++ cs ++ ['\'', '\'', '\'']

/-- A text in quotes. -/
def textOf (cs : List Char) : List Char := quote cs (textStyle cs)

/-- A value that is neither a list nor a table. -/
inductive Scalar where
  | text (s : String)
  | bool (b : Bool)
  | int (i : Int)
  deriving DecidableEq, Repr

/-- A scalar in a document. -/
def Scalar.render : Scalar → List Char
  | .text s => textOf s.toList
  | .bool b => (if b then "true" else "false").toList
  | .int i => (toString i).toList

/-- A section: its name and its settings in order. -/
structure Section where
  name : String
  settings : List (String × Scalar)
  deriving DecidableEq, Repr

/-- A setting on its line. -/
def renderSetting (e : String × Scalar) : List Char :=
  e.1.toList ++ [' ', '=', ' '] ++ e.2.render ++ ['\n']

/-- A section with its header. -/
def Section.render (s : Section) : List Char :=
  '[' :: s.name.toList ++ [']', '\n'] ++ s.settings.flatMap renderSetting

/-- Sections with empty lines between them. -/
def renderSections : List Section → List Char
  | [] => []
  | [s] => s.render
  | s :: rest => s.render ++ '\n' :: renderSections rest

/-- A document. -/
def render (ss : List Section) : String := String.ofList (renderSections ss)

/-- What a scalar stands for. -/
def Scalar.toJson : Scalar → Json
  | .text s => .str s
  | .bool b => .bool b
  | .int i => .num (.int i)

/-- What a section stands for. -/
def Section.toJson (s : Section) : Json := .obj (s.settings.map fun e => (e.1, e.2.toJson))

/-- What a document stands for. -/
def toJson (ss : List Section) : Json := .obj (ss.map fun s => (s.name, s.toJson))

end SignalHub.Toml
