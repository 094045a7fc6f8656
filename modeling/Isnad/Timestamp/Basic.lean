/-! # Dates and times -/

namespace Isnad

/-- Whether February has 29 days. -/
def isLeapYear (year : Int) : Bool := year % 4 = 0 && (year % 100 ≠ 0 || year % 400 = 0)

def daysInMonth (year : Int) (month : Nat) : Nat :=
  match month with
  | 2 => if isLeapYear year then 29 else 28
  | 4 | 6 | 9 | 11 => 30
  | _ => 31

/-- The first and the last year of the calendar. -/
def firstYear : Int := -262143
def lastYear : Int := 262142

/-- A day of the calendar that has no Julian part. -/
structure Date where
  year : Int
  month : Nat
  day : Nat
  valid : firstYear ≤ year ∧ year ≤ lastYear ∧ 1 ≤ month ∧ month ≤ 12 ∧ 1 ≤ day ∧
    day ≤ daysInMonth year month
deriving DecidableEq, Repr

namespace Date

def mk? (year : Int) (month day : Nat) : Option Date :=
  if h : firstYear ≤ year ∧ year ≤ lastYear ∧ 1 ≤ month ∧ month ≤ 12 ∧ 1 ≤ day ∧
      day ≤ daysInMonth year month then
    some ⟨year, month, day, h⟩
  else none

@[simp] theorem mk?_self (d : Date) : mk? d.year d.month d.day = some d := by
  simp [mk?, d.valid]

/-- The day after. -/
def next? (d : Date) : Option Date :=
  if d.day < daysInMonth d.year d.month then mk? d.year d.month (d.day + 1)
  else if d.month < 12 then mk? d.year (d.month + 1) 1
  else mk? (d.year + 1) 1 1

/-- The day before. -/
def previous? (d : Date) : Option Date :=
  if 1 < d.day then mk? d.year d.month (d.day - 1)
  else if 1 < d.month then mk? d.year (d.month - 1) (daysInMonth d.year (d.month - 1))
  else mk? (d.year - 1) 12 31

end Date

/-- A point in time, in coordinated universal time. The second 60 is a leap second. -/
structure Timestamp where
  date : Date
  hour : Fin 24
  minute : Fin 60
  second : Fin 61
  nanosecond : Fin 1000000000
deriving DecidableEq, Repr

namespace Timestamp

/-- The time of the given fields, if they are in range. -/
def ofFields? (year : Int) (month day hour minute second nanosecond : Nat) : Option Timestamp := do
  let date ← Date.mk? year month day
  if h : hour < 24 ∧ minute < 60 ∧ second < 61 ∧ nanosecond < 1000000000 then
    some ⟨date, ⟨hour, h.1⟩, ⟨minute, h.2.1⟩, ⟨second, h.2.2.1⟩, ⟨nanosecond, h.2.2.2⟩⟩
  else none

/-- The time in universal time of a local time that is `offset` minutes ahead of it. -/
def ofLocal? (t : Timestamp) (offset : Int) : Option Timestamp := do
  let minutes : Int := t.hour.val * 60 + t.minute.val - offset
  let date ← if minutes < 0 then t.date.previous? else if minutes < 1440 then some t.date
    else t.date.next?
  let ofDay := (minutes % 1440).toNat
  some { t with date, hour := Fin.ofNat 24 (ofDay / 60), minute := Fin.ofNat 60 ofDay }

end Timestamp
end Isnad
