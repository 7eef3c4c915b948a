namespace Parlance.Calendar

/-! The Gregorian calendar, extended to all years. -/

def isLeap (year : Nat) : Bool :=
  year % 4 == 0 && (year % 100 != 0 || year % 400 == 0)

/-- The number of days of a month, counted from one; zero for no month. -/
def daysIn (year month : Nat) : Nat :=
  if month == 2 then (if isLeap year then 29 else 28)
  else if month == 4 || month == 6 || month == 9 || month == 11 then 30
  else if 1 ≤ month && month ≤ 12 then 31
  else 0

def isDate (year month day : Nat) : Bool :=
  1 ≤ day && day ≤ daysIn year month

def dayNumber (year month day : Nat) : Nat :=
  let leaps := if year = 0 then 0 else (year - 1) / 4 - (year - 1) / 100 + (year - 1) / 400 + 1
  let before := ((List.range month).drop 1).foldl (fun days month => days + daysIn year month) 0
  365 * year + leaps + before + (day - 1)

def yearOf (number : Nat) : Nat :=
  let guess := number * 400 / 146097
  if number < dayNumber guess 1 1 then guess - 1
  else if dayNumber (guess + 1) 1 1 ≤ number then guess + 1
  else guess

def ofDayNumber (number : Nat) : Nat × Nat × Nat :=
  let year := yearOf number
  let month := ((List.range 13).drop 1).countP fun month => dayNumber year month 1 ≤ number
  (year, month, number - dayNumber year month 1 + 1)

end Parlance.Calendar
