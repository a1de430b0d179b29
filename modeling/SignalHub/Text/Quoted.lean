import SignalHub.Text.Unprintable
/-!
# Quoted text in messages

A text quoted inside a message stands between double quotes; quotes, backslashes and the common
controls are written with a backslash, any other unprintable character by its number.

Results:
* `quoteChar`: how one character is written.
* `quoted`: how a text is written.
-/
namespace SignalHub.Text

/-- A number in lower-case hexadecimal digits. -/
def hexText (n : Nat) : String := String.ofList (Nat.toDigits 16 n)

/-- One character between the quotes. -/
def quoteChar (c : Char) : String :=
  if c == '\t' then "\\t"
  else if c == '\r' then "\\r"
  else if c == '\n' then "\\n"
  else if c == '"' then "\\\""
  else if c == '\\' then "\\\\"
  else if c.toNat == 0 then "\\0"
  else if isUnprintable c then "\\u\x7b" ++ hexText c.toNat ++ "\x7d"
  else String.singleton c

/-- A text between double quotes. -/
def quoted (s : String) : String :=
  "\"" ++ String.join (s.toList.map quoteChar) ++ "\""

end SignalHub.Text
