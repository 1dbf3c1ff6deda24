import Mathlib.Algebra.Group.Nat.Defs
import Metering.Proofs.Calendar

/-!
# Instants written and read back

Every part of the written form of an instant is read off the front of a text
that starts with it, and leaves the rest: digits up to a width, a year with or
without a sign, a date, a fraction of a second and a time of day. So the written
form of an instant is read as that instant (`ofText?_text`).
-/

namespace Metering

namespace Instant

/-! ## Digits -/

section Digits

variable {width number : Nat}

/-- The characters of a number with leading zeros. -/
theorem toList_paddedDigits (width number : Nat) :
    (paddedDigits width number).toList =
      List.replicate (width - (Nat.toDigits 10 number).length) '0' ++ Nat.toDigits 10 number := by
  simp [paddedDigits]

/-- A number with leading zeros is written in digits. -/
theorem isDigit_of_mem_paddedDigits {char : Char}
    (member : char ∈ (paddedDigits width number).toList) : char.isDigit := by
  rw [toList_paddedDigits, List.mem_append, List.mem_replicate] at member
  rcases member with ⟨_, rfl⟩ | member
  · rfl
  · exact Nat.isDigit_of_mem_toDigits (by decide) (by decide) member

/-- A number with leading zeros has at least as many digits as its width. -/
theorem le_length_paddedDigits (width number : Nat) :
    width ≤ (paddedDigits width number).toList.length := by
  rw [toList_paddedDigits, List.length_append, List.length_replicate]
  omega

/-- A number that has no more digits than its width takes up the width. -/
theorem length_paddedDigits (positive : 0 < width) (less : number < 10 ^ width) :
    (paddedDigits width number).toList.length = width := by
  have short := (Nat.length_toDigits_le_iff (by decide) positive).2 less
  rw [toList_paddedDigits, List.length_append, List.length_replicate]
  omega

/-- A number with leading zeros stands for the number. -/
theorem digitsValue_paddedDigits (width number : Nat) :
    digitsValue (paddedDigits width number).toList = number := by
  change Nat.ofDigitChars 10 _ 0 = number
  rw [toList_paddedDigits, Nat.ofDigitChars_append, Nat.ofDigitChars_replicate_zero, Nat.mul_zero,
    Nat.ofDigitChars_ten_toDigits]

/-- A number is read off the front up to its width. -/
theorem takeDigits?_paddedDigits (positive : 0 < width) (less : number < 10 ^ width)
    (rest : List Char) :
    takeDigits? width ((paddedDigits width number).toList ++ rest) = some (number, rest) := by
  have length := length_paddedDigits positive less
  have digits : (paddedDigits width number).toList.all Char.isDigit :=
    List.all_eq_true.2 fun char member => isDigit_of_mem_paddedDigits member
  unfold takeDigits?
  rw [List.take_append_of_le_length (Nat.le_of_eq length.symm), List.drop_append_of_le_length
    (Nat.le_of_eq length.symm), List.take_of_length_le (Nat.le_of_eq length),
    List.drop_of_length_le (Nat.le_of_eq length)]
  simp only [length, decide_true, digits, Bool.and_self, if_true, digitsValue_paddedDigits,
    List.nil_append]

/-- The digits of a number end where another character follows. -/
theorem takeWhile_paddedDigits (width number : Nat) {next : Char} (stops : next.isDigit = false)
    (rest : List Char) :
    ((paddedDigits width number).toList ++ next :: rest).takeWhile Char.isDigit =
        (paddedDigits width number).toList ∧
      ((paddedDigits width number).toList ++ next :: rest).dropWhile Char.isDigit =
        next :: rest := by
  rw [List.takeWhile_append_of_pos fun char => isDigit_of_mem_paddedDigits,
    List.dropWhile_append_of_pos fun char => isDigit_of_mem_paddedDigits]
  simp [stops]

end Digits

/-! ## Dates -/

/-- A character is read off the front. -/
theorem takeChar?_cons (char : Char) (rest : List Char) :
    takeChar? char (char :: rest) = some rest := if_pos rfl

/-- A year after its sign is read off the front. -/
theorem signed_paddedDigits (sign : Int) (number : Nat) (rest : List Char) :
    takeYear?.signed sign ((paddedDigits 4 number).toList ++ '-' :: rest) =
      some (sign * number, '-' :: rest) := by
  have dash : '-'.isDigit = false := rfl
  obtain ⟨taken, left⟩ := takeWhile_paddedDigits 4 number dash rest
  unfold takeYear?.signed
  rw [taken, left, if_pos (le_length_paddedDigits 4 number), digitsValue_paddedDigits]

/-- A minus sign starts a year. -/
theorem takeYear?_minus (rest : List Char) :
    takeYear? ('-' :: rest) = takeYear?.signed (-1) rest := rfl

/-- A plus sign starts a year. -/
theorem takeYear?_plus (rest : List Char) :
    takeYear? ('+' :: rest) = takeYear?.signed 1 rest := rfl

/-- A text that starts with a digit starts with a year of four digits. -/
theorem takeYear?_of_isDigit {first : Char} (digit : first.isDigit) (rest : List Char) :
    takeYear? (first :: rest) =
      (takeDigits? 4 (first :: rest)).map fun (year, rest) => ((year : Int), rest) := by
  unfold takeYear?
  split
  · rename_i plus
    obtain ⟨rfl, rfl⟩ := List.cons.inj plus
    cases digit
  · rename_i minus
    obtain ⟨rfl, rfl⟩ := List.cons.inj minus
    cases digit
  · rfl

/-- A year is read off the front. -/
theorem takeYear?_yearText (year : Int) (rest : List Char) :
    takeYear? ((yearText year).toList ++ '-' :: rest) = some (year, '-' :: rest) := by
  unfold yearText
  split
  · rename_i negative
    have sign : "-".toList = ['-'] := rfl
    rw [String.toList_append, sign, List.append_assoc, List.singleton_append, takeYear?_minus,
      signed_paddedDigits]
    simp only [Option.some.injEq, Prod.mk.injEq, and_true]
    omega
  · split
    · rename_i nonneg large
      have sign : "+".toList = ['+'] := rfl
      rw [String.toList_append, sign, List.append_assoc, List.singleton_append, takeYear?_plus,
        signed_paddedDigits]
      simp only [Option.some.injEq, Prod.mk.injEq, and_true]
      omega
    · rename_i nonneg small
      have less : year.toNat < 10 ^ 4 := by omega
      have read := takeDigits?_paddedDigits (by decide) less ('-' :: rest)
      have digits : ∀ char ∈ (paddedDigits 4 year.toNat).toList, char.isDigit :=
        fun _ => isDigit_of_mem_paddedDigits
      have four := length_paddedDigits (by decide) less
      cases parts : (paddedDigits 4 year.toNat).toList with
      | nil => rw [parts] at four; cases four
      | cons first others =>
        rw [parts] at read digits
        rw [List.cons_append] at read ⊢
        rw [takeYear?_of_isDigit (digits first List.mem_cons_self), read]
        simp only [Option.map_some, Option.some.injEq, Prod.mk.injEq, and_true]
        omega

/-- A date of the calendar is read off the front. -/
theorem takeDate?_dateText {date : Date} (valid : date.isValid)
    (within : isCalendarYear date.year) (rest : List Char) :
    takeDate? ((dateText date).toList ++ rest) = some (date, rest) := by
  obtain ⟨months, days⟩ := (Date.isValid_iff date).1 valid
  have shortMonth : date.month < 10 ^ 2 := by omega
  have shortDay : date.day < 10 ^ 2 := by
    have most : Date.daysInMonth date.year date.month ≤ 31 := by
      unfold Date.daysInMonth
      split <;> split <;> decide
    omega
  have dash : "-".toList = ['-'] := rfl
  unfold takeDate? dateText
  simp only [String.toList_append, dash, List.append_assoc, List.cons_append, List.nil_append,
    takeYear?_yearText, takeChar?_cons, takeDigits?_paddedDigits (by decide) shortMonth,
    takeDigits?_paddedDigits (by decide) shortDay, Option.bind_eq_bind, Option.bind_some]
  rw [if_pos (Bool.and_eq_true_iff.2 ⟨valid, within⟩)]

/-! ## Times of day -/

/-- The digits of a fraction are filled up with zeros to nine. -/
theorem takeFraction?_paddedDigits {width number : Nat} (positive : 0 < width) (le : width ≤ 9)
    (less : number < 10 ^ width) {next : Char} (stops : next.isDigit = false) (rest : List Char) :
    takeFraction? ('.' :: ((paddedDigits width number).toList ++ next :: rest)) =
      some (number * Nat.pow 10 (9 - width), next :: rest) := by
  obtain ⟨taken, left⟩ := takeWhile_paddedDigits width number stops rest
  have length := length_paddedDigits positive less
  have digits : (paddedDigits width number).toList.isEmpty = false := by
    rw [List.isEmpty_eq_false_iff, ← List.length_pos_iff, length]
    exact positive
  have kept : (paddedDigits width number).toList.take 9 = (paddedDigits width number).toList :=
    List.take_of_length_le (Nat.le_trans (Nat.le_of_eq length) le)
  unfold takeFraction?
  simp only [taken, left, digits, kept, length, digitsValue_paddedDigits, Bool.false_eq_true,
    if_false]

/-- A text that does not start with a point starts with no fraction. -/
theorem takeFraction?_of_ne {next : Char} (apart : next ≠ '.') (rest : List Char) :
    takeFraction? (next :: rest) = some (0, next :: rest) := by
  unfold takeFraction?
  split
  · rename_i point
    exact absurd (List.cons.inj point).1 apart
  · rfl

/-- A fraction of a second is read off the front. -/
theorem takeFraction?_fractionText {nanos : Nat} (less : nanos < 1000000000) {next : Char}
    (stops : next.isDigit = false) (apart : next ≠ '.') (rest : List Char) :
    takeFraction? ((fractionText nanos).toList ++ next :: rest) = some (nanos, next :: rest) := by
  have point : ".".toList = ['.'] := rfl
  have written {width part : Nat} (positive : 0 < width) (le : width ≤ 9)
      (short : part < 10 ^ width) (same : part * Nat.pow 10 (9 - width) = nanos) :
      takeFraction? (("." ++ paddedDigits width part).toList ++ next :: rest) =
        some (nanos, next :: rest) := by
    rw [String.toList_append, point, List.append_assoc, List.singleton_append,
      takeFraction?_paddedDigits positive le short stops, same]
  unfold fractionText
  split
  · rename_i none_
    rw [none_]
    exact takeFraction?_of_ne apart rest
  · split
    · exact written (by decide) (by decide) (by omega) (by simp only [Nat.pow_eq]; omega)
    · split
      · exact written (by decide) (by decide) (by omega) (by simp only [Nat.pow_eq]; omega)
      · exact written (by decide) (by decide) (by omega) (by simp only [Nat.pow_eq]; omega)

/-- A time of day is read off the front. -/
theorem takeTime?_timeText {nanosOfDay : Nat} (less : nanosOfDay < 86400000000000) {next : Char}
    (stops : next.isDigit = false) (apart : next ≠ '.') (rest : List Char) :
    takeTime? ((timeText nanosOfDay).toList ++ next :: rest) = some (nanosOfDay, next :: rest) := by
  have colon : ":".toList = [':'] := rfl
  have hours : nanosOfDay / 1000000000 / 3600 < 24 := by omega
  have minutes : nanosOfDay / 1000000000 / 60 % 60 < 60 := by omega
  have seconds : nanosOfDay / 1000000000 % 60 < 60 := by omega
  have fraction : nanosOfDay % 1000000000 < 1000000000 := by omega
  have two {part : Nat} (bound : part < 60) (rest : List Char) :
      takeDigits? 2 ((paddedDigits 2 part).toList ++ rest) = some (part, rest) :=
    takeDigits?_paddedDigits (by decide) (by omega) rest
  unfold takeTime? timeText
  simp only [String.toList_append, colon, List.append_assoc, List.cons_append, List.nil_append,
    two (Nat.lt_trans hours (by decide)), two minutes, two seconds, takeChar?_cons,
    takeFraction?_fractionText fraction stops apart, Option.bind_eq_bind, Option.bind_some]
  simp only [hours, minutes, seconds, decide_true, Bool.and_self, if_true, Option.some.injEq,
    Prod.mk.injEq, and_true]
  omega

/-! ## Instants -/

/-- An instant is a time of day on a day. -/
theorem nanos_eq (time : Instant) :
    time.nanosOfDay < 86400000000000 ∧
      time.nanos / nanosPerDay * nanosPerDay + time.nanosOfDay = time.nanos := by
  have day : nanosPerDay = 86400000000000 := rfl
  unfold nanosOfDay
  rw [day]
  omega

/-- The date of an instant is one of the calendar, in one of the years that it has. -/
theorem date_spec (time : Instant) : time.date.isValid ∧ isCalendarYear time.date.year := by
  have first := time.first_le
  have last := time.le_last
  have day : nanosPerDay = 86400000000000 := rfl
  unfold firstNanos at first
  unfold lastNanos at last
  have within : -96465292 ≤ time.nanos / nanosPerDay ∧ time.nanos / nanosPerDay ≤ 95026236 := by
    rw [day]
    omega
  refine ⟨Date.isValid_ofDayNumber _, ?_⟩
  unfold isCalendarYear date
  rw [Bool.and_eq_true, decide_eq_true_eq, decide_eq_true_eq]
  exact Date.year_ofDayNumber within.1 within.2

/-- The written form of an instant is read as the instant. -/
theorem ofText?_text (time : Instant) : ofText? time.text = some time := by
  obtain ⟨valid, within⟩ := time.date_spec
  obtain ⟨short, same⟩ := time.nanos_eq
  have mark : "T".toList = ['T'] := rfl
  have ending : "Z".toList = ['Z'] := rfl
  have stops : 'Z'.isDigit = false := rfl
  have apart : 'Z' ≠ '.' := by decide
  unfold ofText? text
  simp only [String.toList_append, mark, ending, List.append_assoc, List.cons_append,
    List.nil_append, takeDate?_dateText valid within, takeChar?_cons,
    takeTime?_timeText short stops apart, Option.bind_eq_bind, Option.bind_some]
  change ofNanos? (time.date.dayNumber * nanosPerDay + time.nanosOfDay - 0 * Span.nanosPerSecond) =
    some time
  unfold date
  rw [Int.zero_mul, Int.sub_zero, Date.dayNumber_ofDayNumber, ofNanos?_eq_some_iff, same]

end Instant

end Metering
