/-!
# Windows onto an endless log

A `Window α` is a ring buffer: it keeps the newest records of a log that never ends. Every record
has a position, its index in the log, which is never given to another record. When the window is
full, the oldest record makes room for the new one.

The retained records are held in two lists, the older ones oldest first and the newer ones newest
first, so that appending takes constant time on average. `toList` is the view that every other
operation is described by.

Results:
* `toList_append`: appending drops the oldest record of a full window and adds the new one.
* `next_append`, `evicted_append`: how the counts change.
* `newest_eq`: reading newest first is reading the view backwards.
-/
namespace SignalHub

/-- The newest records of an endless log. -/
structure Window (α : Type) where
  capacity : Nat
  /-- Oldest first. -/
  older : List α
  /-- Newest first. -/
  newer : List α
  /-- How many records are retained. -/
  size : Nat
  /-- How many records were dropped. -/
  evicted : Nat
  capacity_pos : 0 < capacity
  size_eq : size = older.length + newer.length
  size_le : size ≤ capacity
  evicted_full : evicted ≠ 0 → size = capacity

namespace Window

variable {α : Type}

/-- An empty window. A capacity of zero counts as one. -/
def empty (capacity : Nat) : Window α where
  capacity := max capacity 1
  older := []
  newer := []
  size := 0
  evicted := 0
  capacity_pos := by omega
  size_eq := rfl
  size_le := by omega
  evicted_full := by simp

/-- The retained records, oldest first. -/
def toList (w : Window α) : List α := w.older ++ w.newer.reverse

/-- The position that the next record gets, which is the number of records so far. -/
def next (w : Window α) : Nat := w.evicted + w.size

/-- The position of the oldest retained record. -/
def first (w : Window α) : Nat := w.evicted

@[simp] theorem length_toList (w : Window α) : w.toList.length = w.size := by
  simp [toList, w.size_eq]

/-- Whether the next record pushes out the oldest one. -/
def isFull (w : Window α) : Bool := w.capacity ≤ w.size

theorem size_eq_of_isFull {w : Window α} (h : w.isFull) : w.size = w.capacity :=
  Nat.le_antisymm w.size_le (by simpa [isFull] using h)

/-- Adds a record at the end. -/
def append (w : Window α) (a : α) : Window α :=
  if h : w.isFull then
    match ho : w.older with
    | _ :: rest =>
      { w with
        older := rest
        newer := a :: w.newer
        evicted := w.evicted + 1
        size_eq := by have := w.size_eq; simp [ho] at this ⊢; omega
        evicted_full := fun _ => size_eq_of_isFull h }
    | [] =>
      { w with
        older := w.newer.reverse.drop 1
        newer := [a]
        evicted := w.evicted + 1
        size_eq := by
          have h1 := w.size_eq
          have h2 := w.capacity_pos
          have h3 := size_eq_of_isFull h
          simp [ho] at h1 ⊢
          omega
        evicted_full := fun _ => size_eq_of_isFull h }
  else
    { w with
      newer := a :: w.newer
      size := w.size + 1
      size_eq := by have := w.size_eq; simp; omega
      size_le := by simp [isFull] at h; omega
      evicted_full := fun he => absurd (w.evicted_full he) (by simp [isFull] at h; omega) }

/-- Appending to a full window drops its oldest record. -/
theorem toList_append (w : Window α) (a : α) :
    (w.append a).toList = w.toList.drop (if w.isFull then 1 else 0) ++ [a] := by
  unfold append
  by_cases h : w.isFull
  · rw [dif_pos h]
    rw [if_pos h]
    split
    · rename_i ho; simp [toList, ho]
    · rename_i ho; simp [toList, ho]
  · rw [dif_neg h, if_neg h]; simp [toList]

@[simp] theorem capacity_append (w : Window α) (a : α) :
    (w.append a).capacity = w.capacity := by
  unfold append; split
  · split <;> rfl
  · rfl

theorem evicted_append (w : Window α) (a : α) :
    (w.append a).evicted = w.evicted + if w.isFull then 1 else 0 := by
  by_cases h : w.isFull
  · rw [append, dif_pos h, if_pos h]; split <;> rfl
  · rw [append, dif_neg h, if_neg h]; rfl

/-- Every record takes the next position. -/
@[simp] theorem next_append (w : Window α) (a : α) : (w.append a).next = w.next + 1 := by
  unfold append next; split
  · split <;> simp <;> omega
  · simp; omega

/-- The retained records at positions from `lo` to `hi`, oldest first. -/
def range (w : Window α) (lo hi : Nat) : List α :=
  let lo := max lo w.first
  (w.toList.drop (lo - w.first)).take (hi + 1 - lo)

/-- The records of a range that satisfy `p`. -/
def rangeWhere (w : Window α) (lo hi : Nat) (p : α → Bool) : List α :=
  (w.range lo hi).filter p

/-- At most `limit` records that satisfy `p`, newest first. -/
def newest (w : Window α) (limit : Nat) (p : α → Bool) : List α :=
  ((w.newer ++ w.older.reverse).filter p).take limit

theorem newest_eq (w : Window α) (limit : Nat) (p : α → Bool) :
    w.newest limit p = (w.toList.reverse.filter p).take limit := by
  simp [newest, toList]

/-- Adds records in order. -/
def appendAll (w : Window α) (as : List α) : Window α := as.foldl append w

end Window

end SignalHub
