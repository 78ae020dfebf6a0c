import SourceMutation.Value

/-!
# Bars

What is shown of a bar over the sources of a run, in one line: the bar, forty characters wide, how
much of it is behind in percent, and a time.

- The bar is drawn in halves of a character, without those that are only begun.
- Percents are rounded, and half goes to the even neighbour.  Both come from quotients in double
  precision.
- The time of a bar that was left at its end is how long that took; that of any other one is how
  long the rest is expected to take, as far as something is known of that.
-/

namespace SourceMutation.Bar

/-- The width of a bar. -/
def width : Nat := 40

/-- The halves of a bar that are drawn. -/
def halves (done total : Nat) : Nat :=
  let (m, e) := Real.quotient (2 * width * done) total
  m * Nat.pow 2 e.toNat / Nat.pow 2 (-e).toNat

/-- How much of a bar is behind, in percent. -/
def percentage (done total : Nat) : Nat :=
  let (m, e) := Real.quotient done total
  let (m, e) := Real.quotient (m * Nat.pow 2 e.toNat * 100) (Nat.pow 2 (-e).toNat)
  min 100 (Rounding.nearest (m * Nat.pow 2 e.toNat) (Nat.pow 2 (-e).toNat))

/-- The bar itself. -/
def drawn (done total : Nat) : String :=
  let halves := halves done total
  String.ofList (List.replicate (halves / 2) '━' ++ List.replicate (halves % 2) '╸')

/-- The whole seconds of a time. -/
def seconds : Value → Nat
  | .int n => n.toNat
  | .real x => (x.truncate?.getD 0).toNat
  | _ => 0

/-- A number with two digits at least. -/
def twoDigits (n : Nat) : String := if n < 10 then s!"0{n}" else toString n

/-- A time in hours, minutes and seconds. -/
def clock (seconds : Nat) : String :=
  s!"{seconds / 3600}:{twoDigits (seconds / 60 % 60)}:{twoDigits (seconds % 60)}"

/-- A text with blanks behind it up to a width, or before it. -/
def padded (width : Nat) (before : Bool) (text : String) : String :=
  let blanks := String.ofList (List.replicate (width - text.length) ' ')
  if before then blanks ++ text else text ++ blanks

/-- What is shown of a bar. -/
def text (time : Value) (done total : Nat) : String :=
  let rest := if done < total && seconds time = 0 then "-:--:--" else clock (seconds time)
  let percentage := padded 3 true (toString (percentage done total))
  s!"Mutating {padded width false (drawn done total)} {percentage}% {rest}"

end SourceMutation.Bar
