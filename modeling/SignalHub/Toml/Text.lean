/-!
# Text in TOML

A text stands between double quotes, with escapes, or between single quotes, as it is; three quotes
on each side let it run over several lines. A line end right after three opening quotes does not
count. Of the quotes that end a long text three close it, and up to two more belong to it. In a
long text with escapes, a backslash at the end of a line takes away all blanks and line ends up to
the next character.

Results:
* `readBasic`, `readLiteral`, `readLongBasic`, `readLongLiteral`: the four forms, after their
  opening quotes.
* `readText`: a text in any form.
-/
namespace SignalHub.Toml

/-- Why a text is no TOML. -/
inductive Fault where
  /-- Something stands where it must not. -/
  | unexpected
  /-- A name stands for two things. -/
  | redefined (name : String)
  /-- A number is too large. -/
  | outOfRange
  /-- Values are nested too deeply. -/
  | tooDeep
  deriving DecidableEq, Repr

/-- What reading from the left comes to: a result and the rest. -/
abbrev Reader (α : Type) := List Char → Except Fault (α × List Char)

/-- Puts something in front of what has been read. -/
def after {α : Type} (a : α) (r : Except Fault (List α × List Char)) :
    Except Fault (List α × List Char) :=
  r.map fun p => (a :: p.1, p.2)

/-- A blank that is no line end. -/
def isBlank (c : Char) : Bool := c == ' ' || c == '\t'

/-- A character that may stand for itself in a comment or a text. -/
def isPlain (c : Char) : Bool := c == '\t' || (' ' ≤ c && c != '\x7f')

/-- The value of a hexadecimal digit. -/
def hexValue? (c : Char) : Option Nat :=
  if '0' ≤ c ∧ c ≤ '9' then some (c.toNat - '0'.toNat)
  else if 'a' ≤ c ∧ c ≤ 'f' then some (c.toNat - 'a'.toNat + 10)
  else if 'A' ≤ c ∧ c ≤ 'F' then some (c.toNat - 'A'.toNat + 10)
  else none

/-- The number that hexadecimal digits spell. -/
def hexNumber? (cs : List Char) : Option Nat :=
  cs.foldlM (fun n c => (hexValue? c).map (n * 16 + ·)) 0

/-- The character with the number that hexadecimal digits spell. -/
def numbered? (cs : List Char) : Option Char := do
  let n ← hexNumber? cs
  if h : n.isValidChar then some (Char.ofNatAux n h) else none

/-- The character that a one-letter escape stands for. -/
def escaped? (c : Char) : Option Char :=
  match c with
  | 'b' => some '\x08'
  | 't' => some '\t'
  | 'n' => some '\n'
  | 'f' => some '\x0c'
  | 'r' => some '\r'
  | '"' => some '"'
  | '\\' => some '\\'
  | _ => none

/-- A text with escapes on one line. -/
def readBasic : Reader (List Char)
  | [] => .error .unexpected
  | '"' :: rest => .ok ([], rest)
  | '\\' :: 'u' :: a :: b :: c :: d :: rest =>
    match numbered? [a, b, c, d] with
    | some x => after x (readBasic rest)
    | none => .error .unexpected
  | '\\' :: 'U' :: a :: b :: c :: d :: e :: f :: g :: h :: rest =>
    match numbered? [a, b, c, d, e, f, g, h] with
    | some x => after x (readBasic rest)
    | none => .error .unexpected
  | '\\' :: c :: rest =>
    match escaped? c with
    | some x => after x (readBasic rest)
    | none => .error .unexpected
  | c :: rest => if isPlain c then after c (readBasic rest) else .error .unexpected

/-- A text as it is on one line. -/
def readLiteral : Reader (List Char)
  | [] => .error .unexpected
  | '\'' :: rest => .ok ([], rest)
  | c :: rest => if isPlain c then after c (readLiteral rest) else .error .unexpected

/-- The quotes that belong to a long text although they stand after three of them. -/
def readExtraQuotes (quote : Char) : List Char → List Char × List Char
  | a :: b :: rest =>
    if a = quote then if b = quote then ([quote, quote], rest) else ([quote], b :: rest)
    else ([], a :: b :: rest)
  | [a] => if a = quote then ([quote], []) else ([], [a])
  | [] => ([], [])

/-- Whether only blanks stand before the end of the line. -/
def endsLine (cs : List Char) : Bool :=
  match cs.dropWhile isBlank with
  | '\n' :: _ => true
  | '\r' :: '\n' :: _ => true
  | _ => false

/-- A text with escapes on several lines; `folding` says that blanks and line ends are being taken
away. -/
def readLongBasic (folding : Bool) : Reader (List Char)
  | [] => .error .unexpected
  | '"' :: '"' :: '"' :: rest => .ok (readExtraQuotes '"' rest)
  | '\\' :: 'u' :: a :: b :: c :: d :: rest =>
    match numbered? [a, b, c, d] with
    | some x => after x (readLongBasic false rest)
    | none => .error .unexpected
  | '\\' :: 'U' :: a :: b :: c :: d :: e :: f :: g :: h :: rest =>
    match numbered? [a, b, c, d, e, f, g, h] with
    | some x => after x (readLongBasic false rest)
    | none => .error .unexpected
  | '\\' :: c :: rest =>
    match escaped? c with
    | some x => after x (readLongBasic false rest)
    | none => if endsLine (c :: rest) then readLongBasic true (c :: rest) else .error .unexpected
  | '\r' :: '\n' :: rest =>
    if folding then readLongBasic true rest else after '\n' (readLongBasic false rest)
  | c :: rest =>
    if folding && (isBlank c || c == '\n') then readLongBasic true rest
    else if isPlain c || c == '\n' then after c (readLongBasic false rest)
    else .error .unexpected

/-- A text as it is on several lines. -/
def readLongLiteral : Reader (List Char)
  | [] => .error .unexpected
  | '\'' :: '\'' :: '\'' :: rest => .ok (readExtraQuotes '\'' rest)
  | '\r' :: '\n' :: rest => after '\n' (readLongLiteral rest)
  | c :: rest =>
    if isPlain c || c == '\n' then after c (readLongLiteral rest) else .error .unexpected

/-- Drops a line end in front. -/
def dropLineEnd : List Char → List Char
  | '\n' :: rest => rest
  | '\r' :: '\n' :: rest => rest
  | cs => cs

/-- Characters that have been read, as a text. -/
def asText (r : Except Fault (List Char × List Char)) : Except Fault (String × List Char) :=
  r.map fun p => (String.ofList p.1, p.2)

/-- A text in any form. -/
def readText : Reader String
  | '"' :: '"' :: '"' :: rest => asText (readLongBasic false (dropLineEnd rest))
  | '"' :: rest => asText (readBasic rest)
  | '\'' :: '\'' :: '\'' :: rest => asText (readLongLiteral (dropLineEnd rest))
  | '\'' :: rest => asText (readLiteral rest)
  | _ => .error .unexpected

/-- A text on one line. -/
def readShortText : Reader String
  | '"' :: rest => asText (readBasic rest)
  | '\'' :: rest => asText (readLiteral rest)
  | _ => .error .unexpected

end SignalHub.Toml
