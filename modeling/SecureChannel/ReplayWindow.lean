/-!
# The replay window

A receiver of numbered messages remembers the highest number it accepted and, in a bitmap, which of
the numbers just below it were accepted too. A number is fresh if nothing was accepted yet, if it
lies above the highest one, or if it lies inside the window and its bit is clear. Everything behind
the window counts as seen.

The lower edge of the window is found by adding the size to the number, and that sum stops at the
largest 64-bit number.
-/

namespace SecureChannel

/-- A sliding window over 64-bit message numbers. -/
structure ReplayWindow where
  /-- How many numbers, up to and including the highest, the window tells apart. -/
  size : UInt64
  latest : Option UInt64
  /-- Bit `i` is set when the number `i` below the highest was accepted. -/
  seen : BitVec 128
  /-- The bitmap can hold the window, and the window holds at least the highest number. -/
  size_bounds : 1 ≤ size.toNat ∧ size.toNat ≤ 128
deriving DecidableEq

namespace ReplayWindow

def maxSize : UInt64 := 128

/-- The size of a window when none is asked for. -/
def defaultSize : UInt64 := 64

/-- A requested size, moved to the nearest one that is possible. -/
def clampSize (size : UInt64) : UInt64 :=
  if size < 1 then 1 else if maxSize < size then maxSize else size

theorem clampSize_bounds (size : UInt64) :
    1 ≤ (clampSize size).toNat ∧ (clampSize size).toNat ≤ 128 := by
  unfold clampSize maxSize
  split
  · decide
  · split
    · decide
    · next low high =>
      simp only [UInt64.not_lt, UInt64.le_iff_toNat_le] at low high
      exact ⟨low, high⟩

def ofSize (size : UInt64) : ReplayWindow :=
  ⟨clampSize size, none, 0, clampSize_bounds size⟩

def highest (w : ReplayWindow) : UInt64 :=
  w.latest.getD 0

/-- The sum of two words, or the largest word where the sum does not fit. -/
def saturatingAdd (a b : UInt64) : UInt64 :=
  if a.toNat + b.toNat < UInt64.size then a + b else UInt64.ofNat (UInt64.size - 1)

def fresh (w : ReplayWindow) (n : UInt64) : Bool :=
  match w.latest with
  | none => true
  | some top =>
      if top < n then true
      else if saturatingAdd n w.size ≤ top then false
      else !w.seen.getLsbD (top - n).toNat

/-- Marks a fresh number as accepted and moves the window up to it where it is the highest. -/
def mark (w : ReplayWindow) (n : UInt64) : ReplayWindow :=
  match w.latest with
  | none => { w with latest := some n, seen := 1 }
  | some top =>
      if top < n then
        { w with
          latest := some n
          seen := if 128 ≤ (n - top).toNat then 1 else w.seen <<< (n - top).toNat ||| 1 }
      else { w with seen := w.seen ||| (1 <<< (top - n).toNat) }

/-- Accepts a number if it is fresh; the flag says whether it was. -/
def accept (w : ReplayWindow) (n : UInt64) : Bool × ReplayWindow :=
  if w.fresh n then (true, w.mark n) else (false, w)

@[simp] theorem size_ofSize (size : UInt64) : (ofSize size).size = clampSize size := rfl

end ReplayWindow

end SecureChannel
