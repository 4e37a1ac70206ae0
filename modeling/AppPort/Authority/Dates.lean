import AppPort.Authority.Basic
import AppPort.Lib.IsoDate

/-!
# ISO timestamps

The timestamps of the services as they are: instants, compared as the texts that
`toISOString` writes for them. `Date.parse` is modelled on texts of that form; what a host
makes of other texts is left open by answering nothing.
-/

namespace AppPort

open Effects

/-- The date of a count of milliseconds, if it is in range. -/
def dateOfTime (time : Int) : Option IsoDate :=
  if h : -8640000000000000 ≤ time ∧ time ≤ 8640000000000000 then some ⟨time, h⟩ else none

/-- The number some digits denote. -/
def numberOf (digits : Units) : Nat := digits.foldl (fun n c => 10 * n + (c - 48)) 0

/-- The year at the start of a text, and what follows it. -/
def takeYear (text : Units) : Int × Units :=
  match text.head? with
  | some 45 => (-(numberOf (text.tail.take 6)), text.drop 7)
  | some 43 => (numberOf (text.tail.take 6), text.drop 7)
  | _ => (numberOf (text.take 4), text.drop 4)

/-- `new Date(Date.parse(text))` of a text that `toISOString` writes: its fields are read
where they stand, and the date has to be written like it. -/
def parseIsoDate (text : Units) : Option IsoDate :=
  let (year, rest) := takeYear text
  let field (start length : Nat) : Nat := numberOf ((rest.drop start).take length)
  let leap := dayFromYear (year + 1) == dayFromYear year + 366
  let day := dayFromYear year + (monthStarts leap).getD (field 1 2 - 1) 0 + field 4 2 - 1
  let clock := ((field 7 2 * 60 + field 10 2) * 60 + field 13 2) * 1000 + field 16 3
  (dateOfTime (day * 86400000 + clock)).filter fun date => date.text == text

instance : Timestamp IsoDate where
  getTime t := t.time
  after t ms := dateOfTime (t.time + ms)
  before t ms := dateOfTime (t.time - ms)
  parse s := parseIsoDate (jsUnits s)
  within ms a b := decide ((a.time - b.time).natAbs ≤ ms)
  text t := String.ofList (t.text.map Char.ofNat)

@[simp] theorem getTime_isoDate (t : IsoDate) : Timestamp.getTime t = t.time := rfl

/-- Timestamps are compared as the instants they denote exactly if the ways their years are
written put them in order. -/
theorem le_iff_getTime (a b : IsoDate) :
    (a ≤ b ↔ Timestamp.getTime a ≤ Timestamp.getTime b) ↔ a.InOrder b :=
  IsoDate.inOrder_iff a b

end AppPort
