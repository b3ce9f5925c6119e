/-!
# Double-precision numbers

Readings, thresholds and numeric properties are double-precision numbers. The finite magnitudes of
a binary format, in increasing order and starting at zero, are numbered by their *rank*; infinity
takes the rank after the greatest of them. A number is NaN or a sign with a rank, so comparing
numbers is comparing signed ranks, and nothing here depends on machine arithmetic.
-/

namespace Alerting

/-- A binary floating-point format: the number of bits after the leading one, the exponent of the
least positive value, and the number of exponent codes below infinity. -/
structure Format where
  fractionBits : Nat
  leastExponent : Int
  finiteCodes : Nat

namespace Format

def double : Format := ⟨52, -1074, 2047⟩

def single : Format := ⟨23, -149, 255⟩

def stride (format : Format) : Nat := Nat.pow 2 format.fractionBits

def infiniteRank (format : Format) : Nat := format.finiteCodes * format.stride

def mantissa (format : Format) (rank : Nat) : Nat :=
  if rank < format.stride then rank else format.stride + rank % format.stride

def exponent (format : Format) (rank : Nat) : Int :=
  if rank < format.stride then format.leastExponent
  else format.leastExponent + (rank / format.stride : Nat) - 1

end Format

structure Magnitude where
  rank : Nat
  rank_le : rank ≤ Format.double.infiniteRank
deriving DecidableEq, Repr

namespace Magnitude

def zero : Magnitude := ⟨0, Nat.zero_le _⟩

def infinite : Magnitude := ⟨Format.double.infiniteRank, Nat.le_refl _⟩

def ofRank (rank : Nat) : Magnitude :=
  ⟨min rank Format.double.infiniteRank, Nat.min_le_right _ _⟩

def isFinite (magnitude : Magnitude) : Bool :=
  magnitude.rank < Format.double.infiniteRank

def numerator (magnitude : Magnitude) : Nat :=
  Format.double.mantissa magnitude.rank *
    Nat.pow 2 (Format.double.exponent magnitude.rank).toNat

def denominator (magnitude : Magnitude) : Nat :=
  Nat.pow 2 (-Format.double.exponent magnitude.rank).toNat

end Magnitude

inductive Number where
  | nan
  | signed (negative : Bool) (magnitude : Magnitude)
deriving DecidableEq, Repr

namespace Number

def zero : Number := .signed false .zero

def infinity : Number := .signed false .infinite

def isFinite : Number → Bool
  | .nan => false
  | .signed _ magnitude => magnitude.isFinite

/-- The place of a number in the order of all numbers that are not NaN. Both zeros stand at 0. -/
def place? : Number → Option Int
  | .nan => none
  | .signed false magnitude => some magnitude.rank
  | .signed true magnitude => some (-(magnitude.rank : Int))

protected def Lt (left right : Number) : Prop :=
  match left.place?, right.place? with
  | some a, some b => a < b
  | _, _ => False

protected def Le (left right : Number) : Prop :=
  match left.place?, right.place? with
  | some a, some b => a ≤ b
  | _, _ => False

instance : LT Number := ⟨Number.Lt⟩

instance : LE Number := ⟨Number.Le⟩

instance (left right : Number) : Decidable (left < right) := by
  change Decidable (Number.Lt left right)
  unfold Number.Lt
  split <;> infer_instance

instance (left right : Number) : Decidable (left ≤ right) := by
  change Decidable (Number.Le left right)
  unfold Number.Le
  split <;> infer_instance

end Number

end Alerting
