/-!
# The ranges of machine words
-/
namespace SignalHub.Word

/-- The largest unsigned 64-bit integer. -/
abbrev top : Nat := 18446744073709551615

/-- How many signed 64-bit integers are not negative, and how many are. -/
abbrev half : Nat := 9223372036854775808

/-- The largest unsigned 16-bit integer. -/
abbrev top16 : Nat := 65535

/-- How many signed 32-bit integers are not negative, and how many are. -/
abbrev half32 : Nat := 2147483648

end SignalHub.Word
