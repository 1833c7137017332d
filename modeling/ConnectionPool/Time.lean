namespace ConnectionPool

/-- Milliseconds since the clock was started. -/
abbrev Instant := Nat

/-- A length of time.  `longest` stands for every span whose end is out of reach. -/
inductive Span
  | ms (n : Nat)
  | longest
  deriving DecidableEq

namespace Span

def after (now : Instant) : Span → Option Instant
  | ms n => some (now + n)
  | longest => none

def hasPassed (since now : Instant) : Span → Bool
  | ms n => since + n ≤ now
  | longest => false

private def thousandths (n : Nat) : String :=
  let digits := [n / 100 % 10, n / 10 % 10, n % 10]
  String.join ((digits.reverse.dropWhile (· = 0)).reverse.map toString)

def text : Span → String
  | ms n =>
    if n = 0 then "0ns"
    else if n < 1000 then s!"{n}ms"
    else if n % 1000 = 0 then s!"{n / 1000}s"
    else s!"{n / 1000}.{thousandths n}s"
  | longest => "18446744073709551615.999999999s"

end Span

def sooner : Option Instant → Option Instant → Option Instant
  | some a, some b => some (min a b)
  | some a, none => some a
  | none, b => b

@[simp] theorem sooner_none_left (b : Option Instant) : sooner none b = b := by
  cases b <;> rfl

@[simp] theorem sooner_none_right (a : Option Instant) : sooner a none = a := by
  cases a <;> rfl

end ConnectionPool
