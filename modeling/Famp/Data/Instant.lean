import Mathlib.Algebra.Group.Nat.Defs
import Mathlib.Data.List.Basic
import Mathlib.Data.List.DropRight
import Mathlib.Order.Basic

/-!
# Instants and their text

Instants as nanoseconds since the Unix epoch, differences in whole seconds, and
the RFC 3339 texts of instants.  A `Clock` is what a program uses of a date library: a parser, a
formatter of whole seconds, and that no fraction comes back from such a text.
-/

set_option autoImplicit false

namespace Famp.Data

def second : Int := 1000000000

/-- The whole seconds of a difference, rounded toward zero. -/
def wholeSeconds (difference : Int) : Int := difference.tdiv second

theorem wholeSeconds_eq (difference : Int) :
    wholeSeconds difference = difference / second +
      if 0 ≤ difference ∨ second ∣ difference then 0 else 1 :=
  Int.tdiv_eq_ediv

theorem le_wholeSeconds_iff {n difference : Int} (positive : 0 < n) :
    n ≤ wholeSeconds difference ↔ n * second ≤ difference := by
  rw [wholeSeconds_eq]
  unfold second
  split <;> omega

theorem wholeSeconds_lt_iff {n difference : Int} (positive : 0 < n) :
    wholeSeconds difference < n ↔ difference < n * second := by
  have reached := @le_wholeSeconds_iff n difference positive
  omega

theorem natAbs_wholeSeconds_le_iff {n : Nat} {difference : Int} :
    (wholeSeconds difference).natAbs ≤ n ↔
      -((n + 1) * second) < difference ∧ difference < (n + 1) * second := by
  rw [wholeSeconds_eq]
  unfold second
  split <;> omega

def floorSecond (instant : Int) : Int := instant / second * second

theorem floorSecond_bounds (instant : Int) :
    floorSecond instant ≤ instant ∧ instant < floorSecond instant + second := by
  unfold floorSecond second
  omega

theorem floorSecond_dvd (instant : Int) : second ∣ floorSecond instant :=
  Int.dvd_mul_left _ _

structure Clock where
  parse : String → Option Int
  format : Int → String
  parse_format_whole : ∀ {instant parsed : Int},
    parse (format instant) = some parsed → second ∣ parsed

namespace Rfc3339

/-! ## The calendar -/

structure Date where
  year : Int
  month : Int
  day : Int
  deriving DecidableEq, Repr

/-- Days since the epoch, in years that start with March so that a leap day is
the last of its year. -/
def daysOf (date : Date) : Int :=
  let year := if date.month ≤ 2 then date.year - 1 else date.year
  let era := year / 400
  let yearOfEra := year - era * 400
  let monthFromMarch := if date.month ≤ 2 then date.month + 9 else date.month - 3
  let dayOfYear := (153 * monthFromMarch + 2) / 5 + date.day - 1
  let dayOfEra := yearOfEra * 365 + yearOfEra / 4 - yearOfEra / 100 + dayOfYear
  era * 146097 + dayOfEra - 719468

def dateOf (days : Int) : Date :=
  let shifted := days + 719468
  let era := shifted / 146097
  let dayOfEra := shifted - era * 146097
  let yearOfEra := (dayOfEra - dayOfEra / 1460 + dayOfEra / 36524 - dayOfEra / 146096) / 365
  let dayOfYear := dayOfEra - (365 * yearOfEra + yearOfEra / 4 - yearOfEra / 100)
  let monthFromMarch := (5 * dayOfYear + 2) / 153
  let day := dayOfYear - (153 * monthFromMarch + 2) / 5 + 1
  let month := if monthFromMarch < 10 then monthFromMarch + 3 else monthFromMarch - 9
  let year := yearOfEra + era * 400
  ⟨if month ≤ 2 then year + 1 else year, month, day⟩

def isLeap (year : Nat) : Bool := year % 4 == 0 && (year % 100 != 0 || year % 400 == 0)

def monthLength (year month : Nat) : Nat :=
  if month = 2 then (if isLeap year then 29 else 28)
  else if month = 4 ∨ month = 6 ∨ month = 9 ∨ month = 11 then 30
  else 31

/-! ## Parsing -/

def digit? (c : Char) : Option Nat :=
  if '0' ≤ c ∧ c ≤ '9' then some (c.toNat - '0'.toNat) else none

def number (digits : List Char) : Option Nat :=
  digits.foldlM (fun value c => (digit? c).map fun digit => 10 * value + digit) 0

/-- Nanoseconds of an optional fraction, and what follows it.  Digits after the
ninth do not count. -/
def fraction : List Char → Option (Nat × List Char)
  | '.' :: rest =>
    let digits := rest.takeWhile fun c => (digit? c).isSome
    if digits.isEmpty then none
    else (number ((digits ++ List.replicate 9 '0').take 9)).map fun nanos =>
      (nanos, rest.dropWhile fun c => (digit? c).isSome)
  | rest => some (0, rest)

/-- Minutes east of UTC. -/
def offset : List Char → Option Int
  | ['Z'] => some 0
  | ['z'] => some 0
  | [sign, h, h', ':', m, m'] => do
    let hours ← number [h, h']
    let minutes ← number [m, m']
    if hours ≤ 23 ∧ minutes ≤ 59 then
      if sign = '+' then some (60 * hours + minutes)
      else if sign = '-' then some (-(60 * hours + minutes))
      else none
    else none
  | _ => none

/-- A leap second is the last of a month in UTC; it is taken as the nanosecond
before the next month. -/
def leapSecond (instant : Int) : Option Int :=
  let next := instant + 1
  if next % (86400 * second) = 0 ∧ (dateOf (next / (86400 * second))).day = 1 then some instant
  else none

def instantOf (year month day hour minute sec nanos : Nat) (east : Int) : Int :=
  ((((daysOf ⟨year, month, day⟩ * 24 + hour) * 60 + minute - east) * 60) + sec) * second + nanos

def compose (year month day hour minute sec nanos : Nat) (east : Int) : Option Int :=
  if 1 ≤ month ∧ month ≤ 12 ∧ 1 ≤ day ∧ day ≤ monthLength year month ∧ hour ≤ 23 ∧ minute ≤ 59 then
    if sec ≤ 59 then some (instantOf year month day hour minute sec nanos east)
    else if sec = 60 then leapSecond (instantOf year month day hour minute 59 999999999 east)
    else none
  else none

/-- Date and time of fixed width, apart by any one byte, then fraction and
offset. -/
def parse (text : String) : Option Int :=
  match text.toList.take 19 with
  | [y₁, y₂, y₃, y₄, '-', mo, mo', '-', d, d', separator, h, h', ':', mi, mi', ':', s, s'] => do
    let year ← number [y₁, y₂, y₃, y₄]
    let month ← number [mo, mo']
    let day ← number [d, d']
    let hour ← number [h, h']
    let minute ← number [mi, mi']
    let sec ← number [s, s']
    let (nanos, rest) ← fraction (text.toList.drop 19)
    let east ← offset rest
    if separator.toNat < 128 then compose year month day hour minute sec nanos east else none
  | _ => none

/-! ## Formatting -/

def pad (width value : Nat) : List Char :=
  let digits := Nat.toDigits 10 value
  List.replicate (width - digits.length) '0' ++ digits

/-- A sign counts toward the width. -/
def padYear (year : Int) : List Char :=
  if 0 ≤ year then pad 4 year.toNat else '-' :: pad 3 year.natAbs

/-- The whole seconds of an instant: `YYYY-MM-DDTHH:MM:SSZ`. -/
def format (instant : Int) : String :=
  let seconds := instant / second
  let date := dateOf (seconds / 86400)
  let ofDay := (seconds % 86400).toNat
  String.ofList ((padYear date.year ++ '-' :: pad 2 date.month.toNat ++ '-' :: pad 2 date.day.toNat ++
    'T' :: pad 2 (ofDay / 3600) ++ ':' :: pad 2 (ofDay / 60 % 60) ++ [':']) ++
      (pad 2 (ofDay % 60) ++ ['Z']))

/-! ## A formatted instant has no fraction -/

theorem pad_seconds : ∀ sec < 60, ∃ s s', pad 2 sec = [s, s'] ∧ number [s, s'] = some sec := by
  intro sec small
  have both : (pad 2 sec).length = 2 ∧ number (pad 2 sec) = some sec := by
    revert sec
    decide
  obtain ⟨s, s', same⟩ := List.length_eq_two.mp both.1
  exact ⟨s, s', same, same ▸ both.2⟩

theorem isDigit_of_mem_pad {width value : Nat} {c : Char} (member : c ∈ pad width value) :
    c.isDigit = true := by
  rcases List.mem_append.mp member with zero | digit
  · obtain rfl := List.eq_of_mem_replicate zero
    decide
  · exact Nat.isDigit_of_mem_toDigits (by decide) (by decide) digit

theorem dot_not_mem_pad (width value : Nat) : '.' ∉ pad width value :=
  fun member => absurd (isDigit_of_mem_pad member) (by decide)

theorem dot_not_mem_padYear (year : Int) : '.' ∉ padYear year := by
  unfold padYear
  split
  · exact dot_not_mem_pad 4 _
  · simp [dot_not_mem_pad]

theorem fraction_of_no_dot {tail : List Char} (clean : '.' ∉ tail) :
    fraction tail = some (0, tail) := by
  unfold fraction
  split
  · simp at clean
  · rfl

theorem offset_of_zulu {front : List Char} {east : Int}
    (read : offset (front ++ ['Z']) = some east) : front = [] := by
  unfold offset at read
  split at read
  next same => simpa using same
  next same =>
    have whole : front ++ ['Z'] = [] ++ ['z'] := same
    exact absurd (List.append_inj' whole rfl).2 (by decide)
  next sign h h' m m' same =>
    have whole : front ++ ['Z'] = [sign, h, h', ':', m] ++ [m'] := same
    obtain ⟨rfl, last⟩ := List.append_inj' whole rfl
    obtain rfl : 'Z' = m' := by simpa using last
    have unread : number [m, 'Z'] = none := by
      cases first : digit? m <;> simp [number, first, show digit? 'Z' = none by decide]
    simp [unread] at read
  next => cases read

theorem compose_whole {year month day hour minute sec : Nat} {east instant : Int} (short : sec ≤ 59)
    (composed : compose year month day hour minute sec 0 east = some instant) : second ∣ instant := by
  unfold compose at composed
  split at composed
  · cases composed
    simp [instantOf]
  · cases composed

theorem dot_not_mem_of_number {s s' : Char} {value : Nat} (read : number [s, s'] = some value) :
    '.' ∉ [s, s'] := by
  intro member
  rcases List.mem_pair.mp member with rfl | rfl
  · simp [number, show digit? '.' = none by decide] at read
  · cases first : digit? s <;> simp [number, first, show digit? '.' = none by decide] at read

theorem parse_zulu {front : List Char} {s s' : Char} {sec : Nat} {instant : Int} (clean : '.' ∉ front)
    (read : number [s, s'] = some sec) (short : sec ≤ 59)
    (parsed : parse (String.ofList (front ++ [s, s'] ++ ['Z'])) = some instant) :
    second ∣ instant := by
  unfold parse at parsed
  rw [String.toList_ofList] at parsed
  split at parsed
  next y₁ y₂ y₃ y₄ mo mo' d d' separator h h' mi mi' t t' head =>
    simp only [Option.bind_eq_bind, Option.bind_eq_some_iff] at parsed
    obtain ⟨year, -, month, -, day, -, hour, -, minute, -, sec', read', ⟨nanos, rest⟩, cut, east, zone,
      composed⟩ := parsed
    have split : front ++ [s, s'] ++ ['Z'] =
        ([y₁, y₂, y₃, y₄, '-', mo, mo', '-', d, d', separator, h, h', ':', mi, mi', ':'] ++ [t, t']) ++
          (front ++ [s, s'] ++ ['Z']).drop 19 := by
      rw [show _ ++ [t, t'] = _ from head.symm, List.take_append_drop]
    generalize (front ++ [s, s'] ++ ['Z']).drop 19 = tail at split cut
    -- The tail ends in `Z` and is an offset, so it is that `Z`.
    have ends : tail = ['Z'] := by
      rcases List.eq_nil_or_concat tail with rfl | ⟨before, last, rfl⟩
      · obtain ⟨rfl, rfl⟩ : 0 = nanos ∧ [] = rest := by simpa [fraction] using cut
        cases zone
      · rw [List.concat_eq_append, ← List.append_assoc] at split
        obtain ⟨body, ended⟩ := List.append_inj' split rfl
        obtain rfl : 'Z' = last := List.singleton_inj.mp ended
        have clean' : '.' ∉ before ++ ['Z'] := by
          intro member
          rcases List.mem_append.mp member with inside | zulu
          · rcases List.mem_append.mp (body ▸ List.mem_append_right _ inside) with early | late
            · exact clean early
            · exact dot_not_mem_of_number read late
          · exact absurd (List.mem_singleton.mp zulu) (by decide)
        rw [List.concat_eq_append, fraction_of_no_dot clean'] at cut
        obtain ⟨rfl, rfl⟩ : 0 = nanos ∧ before ++ ['Z'] = rest := by simpa using cut
        rw [offset_of_zulu zone]
        rfl
    subst ends
    obtain ⟨seconds, -⟩ := List.append_inj' split rfl
    obtain ⟨-, same⟩ := List.append_inj' seconds rfl
    obtain ⟨rfl, rfl⟩ : s = t ∧ s' = t' := by simpa using same
    obtain rfl : sec = sec' := Option.some.inj (read.symm.trans read')
    obtain ⟨rfl, rfl⟩ : 0 = nanos ∧ ['Z'] = rest := by simpa [fraction] using cut
    split at composed
    · exact compose_whole short composed
    · cases composed
  next => cases parsed

theorem parse_format_whole {instant parsed : Int} (read : parse (format instant) = some parsed) :
    second ∣ parsed := by
  obtain ⟨s, s', same, number⟩ := pad_seconds (((instant / second) % 86400).toNat % 60)
    (Nat.mod_lt _ (by decide))
  simp only [format] at read
  rw [same, ← List.append_assoc] at read
  refine parse_zulu ?_ number (Nat.le_of_lt_succ (Nat.mod_lt _ (by decide))) read
  simp [dot_not_mem_pad, dot_not_mem_padYear]

/-! ## The text of a date and a time -/

/-- A date and a time of UTC, in the ranges that a calendar library keeps them in. -/
structure DateTime where
  year : Int
  month : Fin 13
  day : Fin 32
  hour : Fin 24
  minute : Fin 60
  second : Fin 60
  nanosecond : Fin 1000000000

/-- The digits of a fraction without the zeros at their end; nothing for a whole
second. -/
def subseconds (nanos : Nat) : List Char :=
  if nanos = 0 then [] else '.' :: (pad 9 nanos).rdropWhile (· == '0')

def DateTime.wholeText (time : DateTime) : List Char :=
  pad 4 time.year.toNat ++ '-' :: pad 2 time.month ++ '-' :: pad 2 time.day ++
    'T' :: pad 2 time.hour ++ ':' :: pad 2 time.minute ++ ':' :: pad 2 time.second

/-- Years of more than four digits, or before the first, have no text. -/
def DateTime.text (time : DateTime) : Option String :=
  if 0 ≤ time.year ∧ time.year ≤ 9999 then
    some (String.ofList (time.wholeText ++ subseconds time.nanosecond ++ ['Z']))
  else none

theorem length_pad {width value : Nat} (positive : 0 < width) (small : value < 10 ^ width) :
    (pad width value).length = width := by
  have fits := (Nat.length_toDigits_le_iff (by decide : 1 < 10) positive).mpr small
  rw [pad, List.length_append, List.length_replicate]
  omega

end Rfc3339

/-- The texts of RFC 3339. -/
def rfc3339 : Clock where
  parse := Rfc3339.parse
  format := Rfc3339.format
  parse_format_whole := Rfc3339.parse_format_whole

end Famp.Data
