import SignalHub.Json.Parser
import SignalHub.Json.Codec
/-!
# Decoding texts and values

Results:
* `Codec.ofText`: a text that holds one value and nothing else.
* `Codec.ofFirst`: the first value of some bytes, whatever follows.
* `Codec.ofJson`: a value.
-/
namespace SignalHub.Json.Codec

/-- Reads a text that holds one value and nothing else. -/
def ofText {α : Type} (c : Codec α) (s : String) : Decoded α := do
  let (n, rest) := parse (Text.bytes s)
  let a ← c.decode .text n
  orFault (endOfText rest)
  pure a

/-- Reads the first value of some bytes; what follows it does not matter. -/
def ofFirst {α : Type} (c : Codec α) (bs : List UInt8) : Decoded α := c.decode .text (parse bs).1

/-- Reads a value. -/
def ofJson {α : Type} (c : Codec α) (j : Json) : Decoded α := c.decode .value (Node.ofJson j)

end SignalHub.Json.Codec
