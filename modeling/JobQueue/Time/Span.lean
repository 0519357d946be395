/-!
Lengths of time, in whole nanoseconds.
-/

namespace JobQueue.Time

structure Span where
  nanoseconds : Nat
  deriving DecidableEq, Repr, Inhabited

namespace Span

def perSecond : Nat := 1000000000

def ofSeconds (n : Nat) : Span := ⟨n * perSecond⟩

def ofMilliseconds (n : Nat) : Span := ⟨n * 1000000⟩

def maxSeconds : Nat := UInt64.size - 1

/-- The seconds of a span, a started one counted whole, at most `maxSeconds`. -/
def wholeSeconds (s : Span) : Nat :=
  min ((s.nanoseconds + (perSecond - 1)) / perSecond) maxSeconds

def wholeMilliseconds (s : Span) : Nat :=
  (s.nanoseconds + 999999) / 1000000

/-- The seconds that a wait cannot be as long as. -/
def secondsLimit : Nat := 0x8000000000000000

def thirtyYears : Nat := 30 * 365 * 86400 * 1000

/-- How many milliseconds a wait for the span takes: a started one is waited for whole, and a
wait that cannot be counted takes thirty years. -/
def waitMilliseconds (s : Span) : Nat :=
  if s.nanoseconds / perSecond < secondsLimit then s.wholeMilliseconds else thirtyYears

/-- The longest span that instants are compared by: two to the 63rd less one milliseconds. -/
def longest : Span := ofMilliseconds 0x7fffffffffffffff

def capped (s : Span) : Span := ⟨min s.nanoseconds longest.nanoseconds⟩

end Span

end JobQueue.Time
