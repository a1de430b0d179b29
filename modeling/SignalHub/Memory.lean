import SignalHub.Settings.Basic
import SignalHub.Signal
import SignalHub.Word
/-!
# Memory for the archives

An archive is given the memory for all the records that it may keep when it is made, in one block.
Sizes are signed words, so there are no blocks of half the range of a word or more. Whether a
smaller block is to be had is up to the machine, and may depend on what it has given before.

Results:
* `StorageSettings.room`: how large a block an archive needs.
* `Memory.reserve`: takes the blocks of the three archives of a hub.
-/
namespace SignalHub

/-- The bytes of a record in the block of its archive: three words for a text, which may be absent,
six for the attributes, one for a number or a choice. What is in the texts and the attributes is
kept elsewhere. -/
def Signal.recordBytes : Signal → Nat
  | .traces => 8 * (6 * 3 + 6 + 3)
  | .logs => 8 * (5 * 3 + 6 + 1)
  | .metrics => 8 * (2 * 3 + 6 + 3)

/-- How many records of a signal are retained at most. A capacity of zero counts as one. -/
def StorageSettings.capacity (storage : StorageSettings) : Signal → Nat
  | .traces => max storage.traceCapacity.toNat 1
  | .logs => max storage.logCapacity.toNat 1
  | .metrics => max storage.metricCapacity.toNat 1

/-- The bytes of the archive of a signal. -/
def StorageSettings.room (storage : StorageSettings) (s : Signal) : Nat :=
  storage.capacity s * s.recordBytes

/-- What a machine has in store. -/
structure Memory where
  /-- Whether a block of so many bytes is given when so many bytes have been given before. -/
  gives : (bytes given : Nat) → Bool

/-- Why a block is not given. -/
inductive MemoryError where
  /-- There are no blocks of that size. -/
  | tooLarge
  | refused (bytes : Nat)
  deriving DecidableEq, Repr

/-- The wording of the reason. -/
def MemoryError.message : MemoryError → String
  | .tooLarge => "capacity overflow"
  | .refused bytes => "memory allocation of " ++ toString bytes ++ " bytes failed"

namespace Memory

/-- All that can be addressed with 47 bits. -/
def ample : Memory where
  gives bytes given := given + bytes < 0x800000000000

/-- Takes a block when so many bytes have been given before. -/
def take (m : Memory) (given bytes : Nat) : Except MemoryError Nat :=
  if Word.half ≤ bytes then .error .tooLarge
  else if m.gives bytes given then .ok (given + bytes)
  else .error (.refused bytes)

/-- Takes the blocks of the archives of a hub one after another. -/
def reserve (m : Memory) (storage : StorageSettings) : Except MemoryError Nat :=
  [Signal.traces, .logs, .metrics].foldlM (fun given s => m.take given (storage.room s)) 0

end Memory

end SignalHub
