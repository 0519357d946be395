import JobQueue.Decimal.Binary64

/-!
The shortest decimal of a double: the fewest digits that lie in the interval of numbers which
round to it, and of those the nearest to it. The interval is closed when the significand is
even. Digits of one count lie on a grid, and a grid that meets the interval does so at one of
the two points around the number itself.
-/

namespace JobQueue.Decimal

/-- Decimal digits, most significant first, and the power of ten of the first. -/
structure Digits where
  digits : List Char
  exponent : Int
  deriving DecidableEq, Repr

/-- The interval of numbers that round to a rank, in units of `2 ^ scale`. -/
structure Rounding where
  low : Nat
  value : Nat
  high : Nat
  closed : Bool
  scale : Int

/-- The interval of a positive rank. Below the first number of a binade the gap is half as
wide, the least binade apart. -/
def Rounding.ofRank (rank : Nat) : Rounding :=
  let m := significandOfRank rank
  let narrow := m = binadeSize ∧ binadeSize < rank
  { low := if narrow then 4 * m - 1 else 4 * m - 2
    value := 4 * m
    high := 4 * m + 2
    closed := m % 2 = 0
    scale := exponentOfRank rank - 2 }

def digitCount (n : Nat) : Nat :=
  (Nat.toDigits 10 n).length

def leadingExponent (num den : Nat) : Int :=
  if den ≤ num then (digitCount (num / den) : Int) - 1
  else
    let below := digitCount (den / num)
    if den ≤ num * Nat.pow 10 (below - 1) then 1 - (below : Int) else -(below : Int)

def scaleByTen (num den : Nat) (k : Int) : Nat × Nat :=
  if 0 ≤ k then (num, den * Nat.pow 10 k.toNat) else (num * Nat.pow 10 (-k).toNat, den)

/-- The point nearest to the number on the grid of powers `k` of ten, if one of the two points
around it lies in the interval; of two equally near points the even one. -/
def Rounding.onGrid (r : Rounding) (k : Int) : Option Nat :=
  let (n, d) := scaleByTwo 1 1 (-r.scale)
  let (n, d) := scaleByTen n d k
  let down := r.value * n / d
  let inside (p : Nat) : Bool :=
    if r.closed then r.low * n ≤ p * d && p * d ≤ r.high * n
    else r.low * n < p * d && p * d < r.high * n
  -- the nearer point is tried first, the other one only if that lies outside
  let rest := r.value * n - down * d
  let preferUp : Bool := if 2 * rest = d then down % 2 = 1 else d < 2 * rest
  let first := if preferUp then down + 1 else down
  let second := if preferUp then down else down + 1
  if inside first then some first else if inside second then some second else none

/-- The first hit on ever finer grids, `count` of them from `k` downwards. -/
def Rounding.search (r : Rounding) : (count : Nat) → (k : Int) → Nat × Int
  | 0, k => (r.value, k)
  | count + 1, k =>
    match r.onGrid k with
    | some p => (p, k)
    | none => r.search count (k - 1)

/-- The shortest digits of a positive rank. Seventeen digits always reach the interval. -/
def shortest (rank : Nat) : Digits :=
  let (num, den) := ratioOfRank rank
  let (p, k) := (Rounding.ofRank rank).search 17 (leadingExponent num den)
  let all := Nat.toDigits 10 p
  -- a hit on a finer grid than needed ends in zeros
  let kept := (all.reverse.dropWhile (· = '0')).reverse
  { digits := kept, exponent := k + all.length - 1 }

end JobQueue.Decimal
