import SignalHub.Toml.Number
import SignalHub.Toml.Tree
/-!
# Reading TOML

A document is read line by line: headers, assignments, comments. It comes out as a JSON value;
dates and times are texts in it. Lists and inline tables may be nested 79 deep and names may have
79 parts.

Results:
* `readKey`: a dotted name.
* `readValue`: a value.
* `parse`: a document.
-/
namespace SignalHub.Toml

/-- Drops blanks in front. -/
def skipBlanks (cs : List Char) : List Char := cs.dropWhile isBlank

/-- How many parts a name may have less one, and how deep values may be nested. -/
def depthLimit : Nat := 79

/-- A character that may stand in a name without quotes. -/
def isBare (c : Char) : Bool := c.isAlphanum || c == '_' || c == '-'

/-- A part of a name. -/
def readPart (cs : List Char) : Except Fault (String × List Char) :=
  match cs with
  | '"' :: _ => readShortText cs
  | '\'' :: _ => readShortText cs
  | _ =>
    let part := cs.takeWhile isBare
    if part.isEmpty then .error .unexpected else .ok (String.ofList part, cs.dropWhile isBare)

/-- A dotted name with at most so many parts: all parts but the last one, and the last one. Blanks
may stand around each. -/
def readParts : Nat → Reader (List String × String)
  | 0, _ => .error .tooDeep
  | n + 1, cs => do
    let (part, rest) ← readPart (skipBlanks cs)
    match skipBlanks rest with
    | '.' :: rest => do
      let ((path, last), rest) ← readParts n rest
      pure ((part :: path, last), rest)
    | rest => pure (([], part), rest)

/-- A dotted name. -/
def readKey : Reader (List String × String) := readParts depthLimit

/-- Drops a comment in front, up to the end of the line. -/
def skipComment : List Char → List Char
  | '#' :: rest => rest.dropWhile isPlain
  | cs => cs

/-- What follows the end of a line, if it is here. -/
def lineEnd? : List Char → Option (List Char)
  | '\n' :: rest => some rest
  | '\r' :: '\n' :: rest => some rest
  | _ => none

/-- What follows the rest of a line in which nothing more is said. -/
def endLine (cs : List Char) : Except Fault (List Char) :=
  match skipComment (skipBlanks cs) with
  | [] => .ok []
  | rest =>
    match lineEnd? rest with
    | some rest => .ok rest
    | none => .error .unexpected

/-- Drops blanks, line ends and comments in front, where values are listed. -/
def skipLines : Nat → List Char → Except Fault (List Char)
  | 0, cs => .ok cs
  | fuel + 1, cs =>
    match skipBlanks cs with
    | '#' :: rest =>
      match lineEnd? (rest.dropWhile isPlain) with
      | some rest => skipLines fuel rest
      | none => .error .unexpected
    | rest =>
      match lineEnd? rest with
      | some rest => skipLines fuel rest
      | none => .ok rest

/-- A bare word. -/
def readWord (word : List Char) (v : Value) : Reader Value := fun cs =>
  if word.isPrefixOf cs then .ok (v, cs.drop word.length) else .error .unexpected

/-- A value that is neither a list nor an inline table. -/
def readScalar (cs : List Char) : Except Fault (Value × List Char) :=
  match cs with
  | '"' :: _ => (readText cs).map fun p => (.text p.1, p.2)
  | '\'' :: _ => (readText cs).map fun p => (.text p.1, p.2)
  | 't' :: _ => readWord ['t', 'r', 'u', 'e'] (.bool true) cs
  | 'f' :: _ => readWord ['f', 'a', 'l', 's', 'e'] (.bool false) cs
  | _ =>
    match readMoment? cs with
    | some r => r.map fun p => (.moment p.1, p.2)
    | none => (readNumber cs).map fun p => (.num p.1, p.2)

mutual

/-- A value; lists and inline tables may be nested `depth` deep. -/
def readValue : Nat → Nat → Reader Value
  | 0, _, _ => .error .unexpected
  | fuel + 1, depth, cs =>
    match cs, depth with
    | '[' :: _, 0 => .error .tooDeep
    | '{' :: _, 0 => .error .tooDeep
    | '[' :: rest, depth + 1 => do
      let rest ← skipLines rest.length rest
      match rest with
      | ']' :: rest => pure (.list [], rest)
      | _ => do
        let (items, rest) ← readItems fuel depth rest
        pure (.list items, rest)
    | '{' :: rest, depth + 1 =>
      match skipBlanks rest with
      | '}' :: rest => .ok (.table [], rest)
      | rest => do
        let (entries, rest) ← readPairs fuel depth [] rest
        pure (.table (entriesValue entries), rest)
    | cs, _ => readScalar cs

/-- Items up to the closing bracket; a comma may stand before it. -/
def readItems : Nat → Nat → Reader (List Value)
  | 0, _, _ => .error .unexpected
  | fuel + 1, depth, cs => do
    let (v, rest) ← readValue fuel depth cs
    let rest ← skipLines rest.length rest
    match rest with
    | ']' :: rest => pure ([v], rest)
    | ',' :: rest => do
      let rest ← skipLines rest.length rest
      match rest with
      | ']' :: rest => pure ([v], rest)
      | _ => do
        let (vs, rest) ← readItems fuel depth rest
        pure (v :: vs, rest)
    | _ => .error .unexpected

/-- Assignments to an inline table up to the closing brace. -/
def readPairs : Nat → Nat → Entries → Reader Entries
  | 0, _, _, _ => .error .unexpected
  | fuel + 1, depth, es, cs => do
    let ((path, name), rest) ← readKey cs
    match rest with
    | '=' :: rest => do
      let (v, rest) ← readValue fuel depth (skipBlanks rest)
      let es ← assign path name v .header es
      match skipBlanks rest with
      | '}' :: rest => pure (es, rest)
      | ',' :: rest => readPairs fuel depth es rest
      | _ => .error .unexpected
    | _ => .error .unexpected

end

/-- What has been read of a document: its tables, and the path to the table of the last header. -/
structure Draft where
  entries : Entries
  path : List String

/-- Changes the tables of a document. -/
def Draft.change (d : Draft) (c : Change) : Except Fault Draft :=
  (c .header d.entries).map fun es => { d with entries := es }

/-- A header, after its opening bracket. -/
def readHeader (d : Draft) : Reader Draft
  | '[' :: rest => do
    let ((path, name), rest) ← readKey rest
    match rest with
    | ']' :: ']' :: rest => do
      let d ← d.change (openItem path name)
      pure ({ d with path := path ++ [name] }, rest)
    | _ => .error .unexpected
  | rest => do
    let ((path, name), rest) ← readKey rest
    match rest with
    | ']' :: rest => do
      let d ← d.change (openTable path name)
      pure ({ d with path := path ++ [name] }, rest)
    | _ => .error .unexpected

/-- An assignment. -/
def readAssignment (d : Draft) : Reader Draft := fun cs => do
  let ((path, name), rest) ← readKey cs
  match rest with
  | '=' :: rest => do
    let (v, rest) ← readValue (rest.length + 1) depthLimit (skipBlanks rest)
    let d ← d.change (descend .implied (assign path name v) d.path)
    pure (d, rest)
  | _ => .error .unexpected

/-- Reads lines. -/
def readLines : Nat → Draft → List Char → Except Fault Draft
  | 0, d, _ => .ok d
  | fuel + 1, d, cs =>
    match skipBlanks cs with
    | [] => .ok d
    | '#' :: rest => do
      let rest ← endLine ('#' :: rest)
      readLines fuel d rest
    | '[' :: rest => do
      let (d, rest) ← readHeader d rest
      let rest ← endLine rest
      readLines fuel d rest
    | rest =>
      match lineEnd? rest with
      | some rest => readLines fuel d rest
      | none => do
        let (d, rest) ← readAssignment d rest
        let rest ← endLine rest
        readLines fuel d rest

/-- A byte order mark, which may stand in front of a text. -/
def dropMark : List Char → List Char
  | '\uFEFF' :: rest => rest
  | cs => cs

/-- A document. -/
def parse (s : String) : Except Fault Json :=
  let cs := dropMark s.toList
  (readLines (cs.length + 1) ⟨[], []⟩ cs).bind fun d => tableJson (entriesValue d.entries)

end SignalHub.Toml
