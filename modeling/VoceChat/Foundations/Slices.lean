import VoceChat.Foundations.Guards
import VoceChat.Foundations.Machine

/-!
# Slices that can be out of range

An access outside of a byte string is a result of its own here (`Fault.outOfRange`), next to the
errors that a function returns by itself: that a function never goes there is then something to
prove of it.
-/

namespace Slices

open Guards Machine

/-- How a function over byte strings can fail. -/
inductive Fault (ε : Type) where
  /-- An index that is not there, or a subtraction below zero. -/
  | outOfRange
  | rejected (e : ε)
  deriving DecidableEq, Repr

variable {ε : Type}

/-- `&bytes[lo..hi]`. -/
def slice (bytes : Bytes) (lo hi : ℕ) : Except (Fault ε) Bytes :=
  if lo ≤ hi ∧ hi ≤ bytes.length then .ok ((bytes.take hi).drop lo) else .error .outOfRange

/-- `&bytes[lo..]`. -/
def sliceFrom (bytes : Bytes) (lo : ℕ) : Except (Fault ε) Bytes := slice bytes lo bytes.length

/-- `a - b` of lengths. -/
def minus (a b : ℕ) : Except (Fault ε) ℕ := if b ≤ a then .ok (a - b) else .error .outOfRange

/-- Go on if `p` holds, reject with `e` otherwise. -/
def accept (p : Prop) [Decidable p] (e : ε) : Except (Fault ε) Unit := ensure p (.rejected e)

variable {bytes : Bytes} {lo hi a b : ℕ}

theorem slice_of_le (h : lo ≤ hi) (h' : hi ≤ bytes.length) :
    (slice bytes lo hi : Except (Fault ε) Bytes) = .ok ((bytes.take hi).drop lo) :=
  if_pos ⟨h, h'⟩

theorem sliceFrom_of_le (h : lo ≤ bytes.length) :
    (sliceFrom bytes lo : Except (Fault ε) Bytes) = .ok (bytes.drop lo) := by
  rw [sliceFrom, slice_of_le h (Nat.le_refl _), List.take_length]

theorem minus_of_le (h : b ≤ a) : (minus a b : Except (Fault ε) ℕ) = .ok (a - b) := if_pos h

end Slices
