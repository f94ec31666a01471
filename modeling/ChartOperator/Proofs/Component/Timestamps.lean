import ChartOperator.Timestamp
import Mathlib.Data.List.TakeWhile
import Mathlib.Tactic.IntervalCases

set_option autoImplicit false

/-!
# Points in time are read as they are written

The calendar gives each day its date and each date its day (`Timestamp.dayNumber_dateOf`), and a point in time is read
from its text again (`Timestamp.read?_text`), if its year is one that points in time have.
-/

namespace ChartOperator.Timestamp

/-! ## The calendar -/

/-- The days of an era in front of one of its years, which begin in March. -/
def daysBefore (year : Nat) : Nat := 365 * year + year / 4 - year / 100

/-- The days of an era up to one of them, without the leap days. -/
def commonDays (day : Nat) : Nat := day - day / 1460 + day / 36524 - day / 146096

theorem commonDays_mono {d e : Nat} (h : d ≤ e) : commonDays d ≤ commonDays e := by
  have hd : d / 146096 = d / 36524 / 4 := (Nat.div_div_eq_div_mul d 36524 4).symm
  have he : e / 146096 = e / 36524 / 4 := (Nat.div_div_eq_div_mul e 36524 4).symm
  have hcentury : d / 36524 ≤ e / 36524 := Nat.div_le_div_right h
  have hquad : d - d / 1460 ≤ e - e / 1460 := by omega
  rw [commonDays, commonDays, hd, he]
  generalize d / 36524 = p at hcentury ⊢
  generalize e / 36524 = q at hcentury ⊢
  omega

theorem commonDays_daysBefore : ∀ year < 400, 365 * year ≤ commonDays (daysBefore year) ∧
    (0 < year → commonDays (daysBefore year - 1) < 365 * year) := by
  decide +kernel

theorem daysBefore_succ (year : Nat) : daysBefore (year + 1) ≤ daysBefore year + 365 ∨
    daysBefore (year + 1) = daysBefore year + 366 ∧ (year + 1) % 4 = 0 ∧ (year + 1) % 100 ≠ 0 := by
  unfold daysBefore
  omega

/-- The year of a day of an era: it has begun, and the next one has not. -/
theorem year_of_era {day : Nat} (h : day < 146097) :
    commonDays day / 365 < 400 ∧ daysBefore (commonDays day / 365) ≤ day ∧
      (commonDays day / 365 < 399 → day < daysBefore (commonDays day / 365 + 1)) := by
  have hlt : commonDays day / 365 < 400 := by
    unfold commonDays
    omega
  refine ⟨hlt, Nat.le_of_not_lt fun hbefore => ?_, fun hnext => Nat.lt_of_not_le fun hbehind => ?_⟩
  · have hpos : 0 < commonDays day / 365 := by
      rcases Nat.eq_zero_or_pos (commonDays day / 365) with hzero | hpos
      · rw [hzero] at hbefore
        simp [daysBefore] at hbefore
      · exact hpos
    have hless := (commonDays_daysBefore _ hlt).2 hpos
    have hmono := commonDays_mono (Nat.le_sub_one_of_lt hbefore)
    omega
  · have hmore := (commonDays_daysBefore (commonDays day / 365 + 1) (by omega)).1
    have hmono := commonDays_mono hbehind
    omega

/-- The date of a day of a year that begins in March. -/
def marchDate (year : Int) (day : Nat) : Int × Nat × Nat :=
  let m := (5 * day + 2) / 153
  let month := if m < 10 then m + 3 else m - 9
  (if month ≤ 2 then year + 1 else year, month, day - (153 * m + 2) / 5 + 1)

/-- A year that begins in March has 365 days, and one more if the year in which it ends is a leap year. -/
def InYear (year : Int) (day : Nat) : Prop := day < 365 ∨ day = 365 ∧ isLeapYear (year + 1) = true

theorem isLeapYear_iff {year : Int} :
    isLeapYear year = true ↔ year % 4 = 0 ∧ year % 100 ≠ 0 ∨ year % 400 = 0 := by
  simp [isLeapYear]

/-- A day is a day of a year of an era, and its date is told by these. -/
theorem dateOf_eq (d : Int) : ∃ (era : Int) (year day : Nat), year < 400 ∧ InYear (year + era * 400) day ∧
    d + 719468 = era * 146097 + ((daysBefore year + day : Nat) : Int) ∧
    dateOf d = marchDate (year + era * 400) day := by
  have hlt : ((d + 719468) - (d + 719468) / 146097 * 146097).toNat < 146097 := by omega
  have hday : (((d + 719468) - (d + 719468) / 146097 * 146097).toNat : Int) =
      (d + 719468) - (d + 719468) / 146097 * 146097 := by omega
  obtain ⟨hyear, hbegun, hnext⟩ := year_of_era hlt
  generalize hera : (d + 719468) / 146097 = era at hlt hday hyear hbegun hnext
  generalize hdayOfEra : ((d + 719468) - era * 146097).toNat = dayOfEra at hlt hday hyear hbegun hnext
  refine ⟨era, commonDays dayOfEra / 365, dayOfEra - daysBefore (commonDays dayOfEra / 365), hyear, ?_, ?_, ?_⟩
  · generalize commonDays dayOfEra / 365 = year at hyear hbegun hnext
    have hsucc := daysBefore_succ year
    rw [InYear, isLeapYear_iff]
    rcases Nat.lt_or_ge year 399 with hless | hmost
    · have hbefore := hnext hless
      omega
    · -- The last day of an era is the leap day of its last year.
      obtain rfl : year = 399 := by omega
      have hlast : daysBefore 399 = 145731 := rfl
      omega
  · omega
  · unfold dateOf marchDate
    simp only [hera, hdayOfEra]
    rfl

theorem marchDate_valid {year : Int} {day : Nat} (h : InYear year day) :
    1 ≤ (marchDate year day).2.1 ∧ (marchDate year day).2.1 ≤ 12 ∧ 1 ≤ (marchDate year day).2.2 ∧
      (marchDate year day).2.2 ≤ daysOfMonth (marchDate year day).1 (marchDate year day).2.1 := by
  have hday : day ≤ 365 := by
    rcases h with h | ⟨h, -⟩ <;> omega
  have hlast : day = 365 → isLeapYear (year + 1) = true := fun he => h.elim (fun hlt => by omega) And.right
  have hm : (5 * day + 2) / 153 < 12 := by omega
  unfold marchDate
  generalize hmonth : (5 * day + 2) / 153 = m at hm ⊢
  -- The months have their own lengths.
  interval_cases m <;> simp [daysOfMonth] <;> first | omega | skip
  cases hleap : isLeapYear (year + 1) with
  | true => simp; omega
  | false =>
    have hne : day ≠ 365 := fun he => by simp [hlast he] at hleap
    simp; omega

theorem dayNumber_marchDate {era : Int} {year day : Nat} (hyear : year < 400) (h : InYear (year + era * 400) day) :
    dayNumber (marchDate (year + era * 400) day).1 (marchDate (year + era * 400) day).2.1
      (marchDate (year + era * 400) day).2.2 = era * 146097 + ((daysBefore year + day : Nat) : Int) - 719468 := by
  have hday : day ≤ 365 := by
    rcases h with h | ⟨h, -⟩ <;> omega
  have hm : (5 * day + 2) / 153 < 12 := by omega
  have hbegun : (153 * ((5 * day + 2) / 153) + 2) / 5 ≤ day := by omega
  have hera : (year + era * 400) / 400 = era := by omega
  unfold marchDate dayNumber daysBefore
  generalize (5 * day + 2) / 153 = m at hm hbegun ⊢
  by_cases hearly : m < 10
  · have hmonth : ¬ m + 3 ≤ 2 := by omega
    have hback : 2 < m + 3 := by omega
    simp only [hearly, hmonth, hback, if_true, if_false, hera, Nat.add_sub_cancel]
    omega
  · have hmonth : m - 9 ≤ 2 := by omega
    have hback : ¬ 2 < m - 9 := by omega
    simp only [hearly, hmonth, hback, if_true, if_false, Int.add_sub_cancel, hera]
    omega

/-- Every day has a date. -/
theorem dateOf_valid (d : Int) : 1 ≤ (dateOf d).2.1 ∧ (dateOf d).2.1 ≤ 12 ∧ 1 ≤ (dateOf d).2.2 ∧
    (dateOf d).2.2 ≤ daysOfMonth (dateOf d).1 (dateOf d).2.1 := by
  obtain ⟨era, year, day, -, hday, -, hdate⟩ := dateOf_eq d
  rw [hdate]
  exact marchDate_valid hday

/-- The day of the date of a day is that day. -/
theorem dayNumber_dateOf (d : Int) : dayNumber (dateOf d).1 (dateOf d).2.1 (dateOf d).2.2 = d := by
  obtain ⟨era, year, day, hyear, hday, hd, hdate⟩ := dateOf_eq d
  rw [hdate, dayNumber_marchDate hyear hday]
  omega

/-! ## Dates and times of day -/

/-- The point in time has one of the years, and a leap second ends its minute. -/
structure Sound (t : Timestamp) : Prop where
  year : isYear t.year = true
  leap : t.leap = true → t.seconds % 60 = 59

variable {t : Timestamp} {p : Parts}

theorem parts_eq (t : Timestamp) : t.parts =
    ⟨(dateOf (t.seconds / 86400)).1, (dateOf (t.seconds / 86400)).2.1, (dateOf (t.seconds / 86400)).2.2,
      (t.seconds % 86400).toNat / 3600, (t.seconds % 86400).toNat / 60 % 60,
      (t.seconds % 86400).toNat % 60 + t.leap.toNat, 0⟩ :=
  rfl

/-- A point in time is that of its date and time of day. -/
theorem timestamp?_parts (h : t.Sound) : t.parts.timestamp? = some t := by
  obtain ⟨seconds, leap⟩ := t
  obtain ⟨hmonth, hmonths, hday, hdays⟩ := dateOf_valid (seconds / 86400)
  have hnumber := dayNumber_dateOf (seconds / 86400)
  have hyear : isYear (dateOf (seconds / 86400)).1 = true := h.year
  have hhour : (seconds % 86400).toNat / 3600 < 24 := by omega
  have hminute : (seconds % 86400).toNat / 60 % 60 < 60 := by omega
  have hoffset : (0 : Int).natAbs < 86400 := by decide
  have hsecond : (seconds % 86400).toNat % 60 + leap.toNat ≤ 60 ∧
      min ((seconds % 86400).toNat % 60 + leap.toNat) 59 = (seconds % 86400).toNat % 60 ∧
      ((seconds % 86400).toNat % 60 + leap.toNat == 60) = leap := by
    cases leap with
    | false =>
      simp
      omega
    | true =>
      have hends : seconds % 60 = 59 := h.leap rfl
      have hlast : (seconds % 86400).toNat % 60 = 59 := by omega
      simp [hlast]
  rw [parts_eq, Parts.timestamp?, if_pos ⟨hyear, hmonth, hmonths, hday, hdays, hhour, hminute, hsecond.1, hoffset⟩]
  simp only [hnumber, hsecond.2.1, hsecond.2.2]
  have hseconds : seconds / 86400 * 86400 + (((seconds % 86400).toNat / 3600 * 3600 +
      (seconds % 86400).toNat / 60 % 60 * 60 + (seconds % 86400).toNat % 60 : Nat) : Int) - 0 = seconds := by
    omega
  rw [hseconds, if_pos h.year]

theorem sound_of_timestamp? (h : p.timestamp? = some t) (hoffset : p.offset % 60 = 0) : t.Sound := by
  unfold Parts.timestamp? at h
  split at h
  · dsimp only at h
    split at h
    · next hyear =>
      cases h
      refine ⟨hyear, fun hleap => ?_⟩
      have hsixty : p.second = 60 := by simpa using hleap
      simp only [hsixty]
      omega
    · cases h
  · cases h

/-! ## Reading what is written -/

variable {ds rest : List Char} {n width : Nat}

theorem isBlank_of_isDigit {c : Char} (h : Text.isDigit c = true) : Text.isBlank c = false := by
  simp only [Text.isDigit, Bool.and_eq_true, decide_eq_true_eq] at h
  have hbounds : 48 ≤ c.toNat ∧ c.toNat ≤ 57 := h
  simp only [Text.isBlank, Bool.or_eq_false_iff, Bool.and_eq_false_iff, decide_eq_false_iff_not, beq_eq_false_iff_ne]
  omega

theorem isDigit_of_mem_paddedDigits {c : Char} (h : c ∈ Text.paddedDigits width n) : Text.isDigit c = true := by
  rcases List.mem_append.1 h with h | h
  · rw [(List.mem_replicate.1 h).2]
    rfl
  · exact Text.isDigit_of_mem_digits h

theorem ofDigits_paddedDigits : Text.ofDigits (Text.paddedDigits width n) = n := by
  have hzeros : ∀ k ds, Text.ofDigits (List.replicate k '0' ++ ds) = Text.ofDigits ds := by
    intro k ds
    induction k with
    | zero => rfl
    | succ k ih => exact ih
  rw [Text.paddedDigits, hzeros, Text.ofDigits_digits]

theorem length_paddedDigits_of_lt (hwidth : 0 < width) (h : n < 10 ^ width) :
    (Text.paddedDigits width n).length = width := by
  have hlength : (Text.digits n).length ≤ width := (Nat.length_toDigits_le_iff (by decide) hwidth).2 h
  rw [Text.paddedDigits, List.length_append, List.length_replicate]
  omega

theorem paddedDigits_ne_nil : Text.paddedDigits width n ≠ [] :=
  List.append_ne_nil_of_right_ne_nil _ Nat.toDigits_ne_nil

/-- Digits are read if there are as many as may be read, or something else follows them. -/
theorem digits?_append {most : Nat} (hne : ds ≠ []) (hall : ∀ c ∈ ds, Text.isDigit c = true)
    (hends : ds.length = most ∨ ds.length ≤ most ∧ ∀ c cs, rest = c :: cs → Text.isDigit c = false) :
    digits? most (ds ++ rest) = some (Text.ofDigits ds, rest) := by
  have hread : ((ds ++ rest).take most).takeWhile Text.isDigit = ds := by
    rcases hends with rfl | ⟨hroom, hstop⟩
    · rw [List.take_left]
      exact List.takeWhile_eq_self_iff.2 hall
    · rw [List.take_append, List.take_of_length_le hroom, List.takeWhile_append_of_pos hall]
      cases rest with
      | nil => simp
      | cons c cs => cases most - ds.length <;> simp [hstop c cs rfl]
  simp [digits?, hread, hne]

theorem trimStart_digits (hne : ds ≠ []) (hall : ∀ c ∈ ds, Text.isDigit c = true) :
    Text.trimStart (ds ++ rest) = ds ++ rest := by
  cases ds with
  | nil => exact absurd rfl hne
  | cons d ds => exact Text.trimStart_of_not_blank (isBlank_of_isDigit (hall d List.mem_cons_self))

theorem field?_text (h : n < 100) : field? (Text.paddedDigits 2 n ++ rest) = some (n, rest) := by
  have hall : ∀ c ∈ Text.paddedDigits 2 n, Text.isDigit c = true := fun _ => isDigit_of_mem_paddedDigits
  rw [field?, trimStart_digits paddedDigits_ne_nil hall,
    digits?_append paddedDigits_ne_nil hall (.inl (length_paddedDigits_of_lt (by decide) h)), ofDigits_paddedDigits]

theorem isDigit_of_append_eq_cons {c : Char} {cs : List Char} (hne : ds ≠ [])
    (hall : ∀ c ∈ ds, Text.isDigit c = true) (h : ds ++ rest = c :: cs) : Text.isDigit c = true := by
  cases ds with
  | nil => exact absurd rfl hne
  | cons d ds =>
    cases h
    exact hall c List.mem_cons_self

/-- A year is read as it is written, in front of the mark between it and the month. -/
theorem year?_text (year : Int) : year? (yearText year ++ '-' :: rest) = some (year, '-' :: rest) := by
  have hall : ∀ c ∈ Text.paddedDigits 4 year.natAbs, Text.isDigit c = true := fun _ => isDigit_of_mem_paddedDigits
  unfold yearText
  split
  · next hfour =>
    have hread : digits? 4 (Text.paddedDigits 4 year.natAbs ++ '-' :: rest) = some (year.natAbs, '-' :: rest) := by
      rw [digits?_append paddedDigits_ne_nil hall (.inl (length_paddedDigits_of_lt (by decide) (by omega))),
        ofDigits_paddedDigits]
    have hyear : ((year.natAbs : Nat) : Int) = year := by omega
    rw [year?, trimStart_digits paddedDigits_ne_nil hall]
    split
    · next heq => cases isDigit_of_append_eq_cons paddedDigits_ne_nil hall heq
    · next heq => cases isDigit_of_append_eq_cons paddedDigits_ne_nil hall heq
    · simp only [hread, Option.map_some, hyear]
  · -- Behind a sign all digits are read, up to the mark.
    have hread : digits? (Text.paddedDigits 4 year.natAbs ++ '-' :: rest).length
        (Text.paddedDigits 4 year.natAbs ++ '-' :: rest) = some (year.natAbs, '-' :: rest) := by
      rw [digits?_append paddedDigits_ne_nil hall (.inr ⟨by simp, by rintro _ _ ⟨⟩; rfl⟩), ofDigits_paddedDigits]
    split
    · next hnegative =>
      have hyear : -((year.natAbs : Nat) : Int) = year := by omega
      rw [List.cons_append, year?, Text.trimStart_of_not_blank rfl]
      simp only [hread, Option.map_some, hyear]
    · next hpositive =>
      have hyear : ((year.natAbs : Nat) : Int) = year := by omega
      rw [List.cons_append, year?, Text.trimStart_of_not_blank rfl]
      simp only [hread, Option.map_some, hyear]

theorem skip?_cons {c : Char} (h : Text.isBlank c = false) : skip? c (c :: rest) = some rest := by
  rw [skip?, Text.trimStart_of_not_blank h]
  exact if_pos rfl

/-- A date and a time of day in UTC are read as they are written. -/
theorem readParts?_text (hmonth : p.month < 100) (hday : p.day < 100) (hhour : p.hour < 100)
    (hminute : p.minute < 100) (hsecond : p.second < 100) (hoffset : p.offset = 0) : readParts? p.text = some p := by
  obtain ⟨year, month, day, hour, minute, second, offset⟩ := p
  cases hoffset
  have hdash : ∀ cs, skip? '-' ('-' :: cs) = some cs := fun _ => skip?_cons rfl
  have hcolon : ∀ cs, skip? ':' (':' :: cs) = some cs := fun _ => skip?_cons rfl
  have hmark : ∀ cs, skipMark? ('T' :: cs) = some cs := fun _ => rfl
  have hfraction : skipFraction? ['Z'] = some ['Z'] := rfl
  have hzulu : offset? ['Z'] = some (0, []) := by decide
  simp only [readParts?, Parts.text, Option.bind_eq_bind, Option.bind_some, year?_text, hdash, hcolon, hmark, hfraction,
    hzulu, field?_text hmonth, field?_text hday, field?_text hhour, field?_text hminute, field?_text hsecond]
  rfl

/-- An offset that is read is one of whole minutes. -/
theorem offset?_whole {cs : List Char} {offset : Int} (h : offset? cs = some (offset, rest)) : offset % 60 = 0 := by
  unfold offset? at h
  dsimp only at h
  split at h
  · cases h
    rfl
  · split at h
    · cases h
      rfl
    · cases h
      rfl
    · obtain ⟨sign, -, h⟩ := Option.bind_eq_some_iff.1 h
      obtain ⟨hours, -, h⟩ := Option.bind_eq_some_iff.1 h
      split at h
      · obtain ⟨minutes, -, h⟩ := Option.bind_eq_some_iff.1 h
        split at h
        · cases h
          have hwhole : (hours * 3600 + minutes * 60 : Nat) = (hours * 60 + minutes) * 60 := by omega
          rw [hwhole, Int.natCast_mul, ← Int.mul_assoc]
          exact Int.mul_emod_left _ _
        · cases h
      · cases h
    · cases h

theorem offset_of_readParts? {cs : List Char} (h : readParts? cs = some p) : p.offset % 60 = 0 := by
  unfold readParts? at h
  simp only [Option.bind_eq_bind, Option.bind_eq_some_iff] at h
  obtain ⟨_, -, _, -, _, -, _, -, _, -, _, -, _, -, _, -, _, -, _, -, _, -, _, -, ⟨offset, rest⟩, hoffset, h⟩ := h
  dsimp only at h
  split at h
  · cases h
    exact offset?_whole hoffset
  · cases h

/-- A point in time is read as it is written. -/
theorem read?_text (h : t.Sound) : read? t.text = some t := by
  obtain ⟨-, hmonth, -, hday⟩ := dateOf_valid (t.seconds / 86400)
  have hlength : daysOfMonth (dateOf (t.seconds / 86400)).1 (dateOf (t.seconds / 86400)).2.1 ≤ 31 := by
    unfold daysOfMonth
    split
    · split <;> decide
    · split <;> decide
  have hleap : t.leap.toNat ≤ 1 := Bool.toNat_le t.leap
  have hparts : readParts? t.parts.text = some t.parts := by
    rw [parts_eq]
    refine readParts?_text ?_ ?_ ?_ ?_ ?_ rfl <;> dsimp only <;> omega
  rw [read?, text, String.toList_ofList, hparts]
  exact timestamp?_parts h

/-- Points in time that are read can be written and read again. -/
theorem sound_of_read? {s : String} (h : read? s = some t) : t.Sound := by
  obtain ⟨p, hp, ht⟩ := Option.bind_eq_some_iff.1 h
  exact sound_of_timestamp? ht (offset_of_readParts? hp)

end ChartOperator.Timestamp
