/-!
Finite double-precision numbers, held by sign and by rank: the place of the magnitude among
all magnitudes, counted up from zero. The rank is the 63-bit pattern of the number, so each
magnitude has one rank and the order of ranks is the order of magnitudes. Every operation is
exact arithmetic on whole numbers followed by one rounding to the nearest rank, ties to the
even one.
-/

namespace JobQueue.Decimal

/-- Magnitudes of one exponent: two to the 52, the width of the stored fraction. -/
def binadeSize : Nat := 0x10000000000000

/-- The first rank past the finite magnitudes. -/
def rankLimit : Nat := 2047 * binadeSize

/-- A finite double. -/
structure Binary64 where
  negative : Bool
  rank : Nat
  rank_lt : rank < rankLimit
  deriving DecidableEq, Repr

/-- The quotient rounded to the nearest whole number, ties to the even one. -/
def nearestQuotient (num den : Nat) : Nat :=
  let whole := num / den
  let rest := num % den
  if 2 * rest < den then whole
  else if den < 2 * rest then whole + 1
  else whole + whole % 2

/-- The fraction `num / den` divided by two to the power `q`. -/
def scaleByTwo (num den : Nat) (q : Int) : Nat × Nat :=
  if 0 ≤ q then (num, den * Nat.pow 2 q.toNat) else (num * Nat.pow 2 (-q).toNat, den)

/-- The rank nearest to `num / den`; `rankLimit` or more when that is too large. -/
def rankOfRatio (num den : Nat) : Nat :=
  if num = 0 then 0
  else
    -- the quotient lies between two to the power `size - 1` and two to the power `size + 1`
    let size : Int := (num.log2 : Int) - den.log2
    let least : Int := max (size - 53) (-1074)
    let (n, d) := scaleByTwo num den least
    let q := if n / d < 2 * binadeSize then least else least + 1
    let (n, d) := scaleByTwo num den q
    -- a carry out of the rounding leads to the first rank of the next binade, as it should
    (q + 1074).toNat * binadeSize + nearestQuotient n d

/-- The significand of a rank: the magnitude is `significand * 2 ^ exponent`. -/
def significandOfRank (rank : Nat) : Nat :=
  if rank < binadeSize then rank else binadeSize + rank % binadeSize

def exponentOfRank (rank : Nat) : Int :=
  if rank < binadeSize then -1074 else ((rank / binadeSize : Nat) : Int) - 1075

def ratioOfRank (rank : Nat) : Nat × Nat :=
  scaleByTwo (significandOfRank rank) 1 (-exponentOfRank rank)

def rankOfTenPow (k : Nat) : Nat :=
  rankOfRatio (Nat.pow 10 k) 1

def mulRank (x y : Nat) : Nat :=
  let (a, b) := ratioOfRank x
  let (c, d) := ratioOfRank y
  rankOfRatio (a * c) (b * d)

def divRank (x y : Nat) : Nat :=
  let (a, b) := ratioOfRank x
  let (c, d) := ratioOfRank y
  rankOfRatio (a * d) (b * c)

def greatestTenPow : Nat := 308

/-- A magnitude divided by ten to the power `k`, one greatest power of ten at a time. Two such
divisions leave zero of any magnitude that a 64-bit whole number has. -/
def divTenPow : (rounds : Nat) → (rank k : Nat) → Nat
  | 0, _, _ => 0
  | rounds + 1, rank, k =>
    if k ≤ greatestTenPow then divRank rank (rankOfTenPow k)
    else divTenPow rounds (divRank rank (rankOfTenPow greatestTenPow)) (k - greatestTenPow)

/-- The rank of `significand * 10 ^ exponent`, each step rounded: the significand first, then
its product or quotient with the power of ten. -/
def rankOfParts (significand : Nat) (exponent : Int) : Nat :=
  let rank := rankOfRatio significand 1
  if rank = 0 then 0
  else if exponent < 0 then divTenPow 3 rank (-exponent).toNat
  else if exponent.toNat ≤ greatestTenPow then mulRank rank (rankOfTenPow exponent.toNat)
  else rankLimit

def Binary64.ofRank? (negative : Bool) (rank : Nat) : Option Binary64 :=
  if h : rank < rankLimit then some ⟨negative, rank, h⟩ else none

def Binary64.ofParts? (negative : Bool) (significand : Nat) (exponent : Int) : Option Binary64 :=
  Binary64.ofRank? negative (rankOfParts significand exponent)

end JobQueue.Decimal
