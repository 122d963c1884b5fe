import Std.Time.DateTime
import TableJoin.Exchange
import TableJoin.Numeral.Digits

/-!
The program: runs the join exchange and prints its report.
-/

namespace TableJoin

/-- A time in universal time, given in microseconds since the epoch: to the second,
and with the microseconds. -/
def timeTexts (micros : Int) : String × String :=
  let seconds := micros / 1000000
  let date := Std.Time.PlainDate.ofEpochDay ⟨seconds / 86400⟩
  let second := (seconds % 86400).toNat
  let pad := Numeral.paddedDigits
  let year := pad 4 date.year.toInt.toNat
  let day := s!"{year}-{pad 2 date.month.val.toNat}-{pad 2 date.day.val.toNat}"
  let time := s!"{pad 2 (second / 3600)}:{pad 2 (second / 60 % 60)}:{pad 2 (second % 60)}"
  (s!"{day}T{time}Z", s!"{day}T{time}.{pad 6 (micros % 1000000).toNat}Z")

def currentTime : IO (String × String) := do
  let now ← Std.Time.Timestamp.now
  return timeTexts (now.toNanosecondsSinceUnixEpoch.val / 1000)

end TableJoin

open TableJoin in
/-- Prints the report; an exchange that fails ends the program with an error. -/
def main : IO UInt32 := do
  match Exchange.report (← currentTime).1 with
  | .ok lines =>
    for line in lines do
      match line with
      | .printed text => IO.println text
      | .logged l => IO.println (l.renderAt (← currentTime).2)
    return 0
  | .error e =>
    IO.eprintln ("Error: " ++ e.message)
    return 1
