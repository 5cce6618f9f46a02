import DenyPolicy.Time.Rfc3339
import DenyPolicy.Proofs.JsonReading
/-!
# Timestamps read back

Instants are written in RFC 3339 form in universal time (`Instant.render`) and
stored documents are read with the relaxed reader (`Instant.readRelaxed`).  The
two agree on every instant a calendar clock can hold (`Instant.OnClock`): a year
the calendar holds, and nanoseconds under a second except within a leap
second, which only the last second of a minute has.

Two facts carry the round trip.  The day count of the date that
`CivilDate.ofDays` finds is the day it started from, and that date exists in the
calendar (`CivilDate.toDays_ofDays`, `CivilDate.isValid_ofDays`); both follow from
the ranges of the era, year, day and month the conversion passes through.  And
each field the reader meets is a number written with leading zeros, which it
reads back up to the separator after it (`Time.fieldDigits_padded`).
-/

namespace DenyPolicy

namespace CivilDate


/-- Within an era of 146097 days, the year that `ofDays` finds for a day
starts on or before it and less than a year before it. -/
theorem dayOfYear_bounds (doe yoe : Int) (h0 : 0 ≤ doe) (h1 : doe ≤ 146096)
    (hyoe : yoe = (doe - doe / 1460 + doe / 36524 - doe / 146096) / 365) :
    0 ≤ yoe ∧ yoe ≤ 399 ∧ doe / 36524 - doe / 146096 = yoe / 100 ∧
    0 ≤ doe - (365 * yoe + yoe / 4 - yoe / 100) ∧ doe - (365 * yoe + yoe / 4 - yoe / 100) ≤ 365 ∧
    (doe - (365 * yoe + yoe / 4 - yoe / 100) = 365 → yoe % 4 = 3 ∧ (yoe % 100 = 99 → yoe = 399)) := by
  have hleap : yoe / 4 ≤ doe / 1460 ∧ doe / 1460 ≤ yoe / 4 + 1 := by omega
  have hcent : doe / 36524 - doe / 146096 = yoe / 100 := by
    have hcases : doe < 36524 ∨ (36524 ≤ doe ∧ doe < 73048) ∨ (73048 ≤ doe ∧ doe < 109572) ∨
        (109572 ≤ doe ∧ doe < 146096) ∨ doe = 146096 := by omega
    rcases hcases with h | h | h | h | h <;> omega
  omega

theorem leapYear_of_lastDay (era yoe : Int) (h : yoe % 4 = 3)
    (hcent : yoe = 399 ∨ yoe % 100 ≠ 99) : isLeapYear (yoe + era * 400 + 1) = true := by
  simp [isLeapYear]
  omega

theorem ofDays_stages (z : Int) : ∃ era doe yoe doy mp : Int,
    z + 719468 = era * 146097 + doe ∧ 0 ≤ doe ∧ doe ≤ 146096 ∧
    yoe = (doe - doe / 1460 + doe / 36524 - doe / 146096) / 365 ∧
    doy = doe - (365 * yoe + yoe / 4 - yoe / 100) ∧ mp = (5 * doy + 2) / 153 ∧
    ofDays z = ⟨yoe + era * 400 + (if (if mp < 10 then mp + 3 else mp - 9) ≤ 2 then 1 else 0),
      (if mp < 10 then mp + 3 else mp - 9).toNat, (doy - (153 * mp + 2) / 5 + 1).toNat⟩ := by
  refine ⟨(z + 719468) / 146097, z + 719468 - (z + 719468) / 146097 * 146097, _, _, _,
    by omega, by omega, by omega, rfl, rfl, rfl, rfl⟩

theorem monthOfYear_bounds (doy mp : Int) (h0 : 0 ≤ doy) (h1 : doy ≤ 365)
    (hmp : mp = (5 * doy + 2) / 153) :
    0 ≤ mp ∧ mp ≤ 11 ∧ (153 * mp + 2) / 5 ≤ doy ∧ doy < (153 * (mp + 1) + 2) / 5 := by
  omega

theorem toDays_eq (d : CivilDate) {era yoe mp : Int}
    (hyear : (if d.month ≤ 2 then d.year - 1 else d.year) = era * 400 + yoe) (hy0 : 0 ≤ yoe)
    (hy1 : yoe ≤ 399) (hmp : (if d.month > 2 then (d.month : Int) - 3 else (d.month : Int) + 9) = mp) :
    d.toDays = era * 146097 + (yoe * 365 + yoe / 4 - yoe / 100 + ((153 * mp + 2) / 5 + d.day - 1)) - 719468 := by
  have hera : (era * 400 + yoe) / 400 = era := by omega
  simp only [toDays, hyear, hmp, hera]
  omega

theorem toDays_ofDays (z : Int) : (ofDays z).toDays = z := by
  obtain ⟨era, doe, yoe, doy, mp, hz, h0, h1, hyoe, hdoy, hmp, hdate⟩ := ofDays_stages z
  obtain ⟨hy0, hy1, -, hd0, hd1, -⟩ := dayOfYear_bounds doe yoe h0 h1 hyoe
  obtain ⟨hm0, hm1, hday0, -⟩ := monthOfYear_bounds doy mp (hdoy ▸ hd0) (hdoy ▸ hd1) hmp
  have hday : ((doy - (153 * mp + 2) / 5 + 1).toNat : Int) = doy - (153 * mp + 2) / 5 + 1 :=
    Int.toNat_of_nonneg (by omega)
  have hyear : (if (ofDays z).month ≤ 2 then (ofDays z).year - 1 else (ofDays z).year) = era * 400 + yoe := by
    rw [hdate]
    by_cases hm : mp < 10
    · simp only [hm, if_true, show ¬ (mp + 3 ≤ 2) by omega, if_false, show ¬ ((mp + 3).toNat ≤ 2) by omega]
      omega
    · simp only [hm, if_false, show mp - 9 ≤ 2 by omega, if_true, show (mp - 9).toNat ≤ 2 by omega]
      omega
  have hmonth : (if (ofDays z).month > 2 then ((ofDays z).month : Int) - 3 else ((ofDays z).month : Int) + 9) = mp := by
    rw [hdate]
    by_cases hm : mp < 10
    · simp only [hm, if_true, show (mp + 3).toNat > 2 by omega, Int.toNat_of_nonneg (show 0 ≤ mp + 3 by omega)]
      omega
    · simp only [hm, if_false, show ¬ ((mp - 9).toNat > 2) by omega, Int.toNat_of_nonneg (show 0 ≤ mp - 9 by omega)]
      omega
  rw [toDays_eq (ofDays z) hyear hy0 hy1 hmonth, hdate]
  simp only [hday]
  omega

/-- Every day is a date of the calendar: `ofDays` gives a month of 1 to 12 and
a day of that month, the 29th of February only in a leap year. -/
theorem isValid_ofDays (z : Int) : (ofDays z).isValid = true := by
  obtain ⟨era, doe, yoe, doy, mp, -, h0, h1, hyoe, hdoy, hmp, hdate⟩ := ofDays_stages z
  obtain ⟨hy0, -, -, hd0, hd1, hlast⟩ := dayOfYear_bounds doe yoe h0 h1 hyoe
  rw [← hdoy] at hd0 hd1 hlast
  obtain ⟨hm0, hm1, hday0, hday1⟩ := monthOfYear_bounds doy mp hd0 hd1 hmp
  rw [hdate]
  clear hdate hmp hdoy hyoe h0 h1
  have hmonths : mp = 0 ∨ mp = 1 ∨ mp = 2 ∨ mp = 3 ∨ mp = 4 ∨ mp = 5 ∨ mp = 6 ∨ mp = 7 ∨ mp = 8 ∨
      mp = 9 ∨ mp = 10 ∨ mp = 11 := by omega
  rcases hmonths with rfl | rfl | rfl | rfl | rfl | rfl | rfl | rfl | rfl | rfl | rfl | rfl
  case inr.inr.inr.inr.inr.inr.inr.inr.inr.inr.inr =>
    by_cases hleap : doy = 365
    · have hy := leapYear_of_lastDay era yoe (hlast hleap).1 (by omega)
      simp [isValid, daysInMonth, hy]
      omega
    · simp [isValid, daysInMonth]
      split <;> omega
  all_goals simp [isValid, daysInMonth]
  all_goals omega

end CivilDate

namespace Time

open JsonText

/-! ## Digits -/

theorem toNat_of_isDigit {c : Char} (h : c.isDigit = true) : 48 ≤ c.toNat ∧ c.toNat ≤ 57 := by
  simp only [Char.isDigit, Bool.and_eq_true, decide_eq_true_eq, UInt32.le_iff_toNat_le] at h
  exact h

theorem not_isBlank_of_isDigit {c : Char} (h : c.isDigit = true) : Text.isBlank c = false := by
  have := toNat_of_isDigit h
  simp [Text.isBlank]
  omega

theorem toList_padded (w n : Nat) :
    (Instant.padded w n).toList = List.replicate (w - (Nat.toDigits 10 n).length) '0' ++ Nat.toDigits 10 n := by
  simp [Instant.padded, Nat.toList_repr, ← String.length_toList]

theorem digitValue_eq_ofDigitChars (ds : List Char) : digitValue ds = Nat.ofDigitChars 10 ds 0 := rfl

theorem digitValue_padded (w n : Nat) : digitValue (Instant.padded w n).toList = n := by
  rw [toList_padded, digitValue_eq_ofDigitChars, Nat.ofDigitChars_append, Nat.ofDigitChars_replicate_zero, Nat.mul_zero, Nat.ofDigitChars_ten_toDigits]

theorem isDigit_of_mem_padded {w n : Nat} {c : Char} (hc : c ∈ (Instant.padded w n).toList) :
    c.isDigit = true := by
  rw [toList_padded, List.mem_append, List.mem_replicate] at hc
  rcases hc with ⟨-, rfl⟩ | hc
  · rfl
  · exact Nat.isDigit_of_mem_toDigits (by decide) (by decide) hc

theorem padded_ne_nil {w n : Nat} : (Instant.padded w n).toList ≠ [] := by
  simp [toList_padded, List.ne_nil_of_length_pos Nat.length_toDigits_pos]

theorem length_padded {w n : Nat} (hw : 0 < w) (hn : n < Nat.pow 10 w) :
    (Instant.padded w n).toList.length = w := by
  have hlen := (Nat.length_toDigits_le_iff (show 1 < 10 by decide) hw).mpr hn
  simp only [toList_padded, List.length_append, List.length_replicate]
  omega

theorem one_le_byteCount {cs : List Char} (hcs : cs ≠ []) : 1 ≤ byteCount cs := by
  have hne : String.ofList cs ≠ "" := by simpa [String.ofList_eq_empty_iff] using hcs
  have hsize := mt String.utf8ByteSize_eq_zero_iff.mp hne
  unfold byteCount
  omega

theorem takeDigits_digits {max : Nat} {ds : List Char} (hds : ∀ d ∈ ds, d.isDigit = true)
    (hmax : ds.length ≤ max) {c : Char} (hc : c.isDigit = false) (rest : List Char) :
    takeDigits max (ds ++ c :: rest) = (ds, c :: rest) := by
  obtain ⟨htake, -⟩ := span_digits_append hds
    (by simpa using hc : ∀ x ∈ (c :: rest).head?, x.isDigit = false)
  simp [takeDigits, htake, List.take_of_length_le hmax]

theorem fieldDigits_digits {max : Nat} {ds : List Char} (hds : ∀ d ∈ ds, d.isDigit = true)
    (hne : ds ≠ []) (hmax : ds.length ≤ max) {c : Char} (hc : c.isDigit = false) (rest : List Char) :
    fieldDigits 1 max (ds ++ c :: rest) = .ok (digitValue ds, c :: rest) := by
  have hbytes : ¬ byteCount (ds ++ c :: rest) < 1 := Nat.not_lt.mpr (one_le_byteCount (by simp))
  have hlen : ¬ ds.length < 1 := Nat.not_lt.mpr (List.length_pos_iff.mpr hne)
  simp only [fieldDigits, hbytes, if_false, takeDigits_digits hds hmax hc, hlen]

/-- A number written with leading zeros is read back as a relaxed field, up to
the character after it. -/
theorem fieldDigits_padded {w max n : Nat} (hw : 0 < w) (hn : n < Nat.pow 10 w) (hmax : w ≤ max)
    {c : Char} (hc : c.isDigit = false) (rest : List Char) :
    fieldDigits 1 max (skipBlanks ((Instant.padded w n).toList ++ c :: rest)) = .ok (n, c :: rest) := by
  have hlen := length_padded hw hn
  obtain ⟨d, ds, hcons⟩ := List.exists_cons_of_ne_nil
    (List.ne_nil_of_length_pos (by omega : 0 < (Instant.padded w n).toList.length))
  have hd : d.isDigit = true := isDigit_of_mem_padded (hcons ▸ List.mem_cons_self)
  have hskip : skipBlanks ((Instant.padded w n).toList ++ c :: rest) =
      (Instant.padded w n).toList ++ c :: rest := by
    rw [hcons, List.cons_append]
    simp [skipBlanks, not_isBlank_of_isDigit hd]
  rw [hskip, fieldDigits_digits (fun _ h => isDigit_of_mem_padded h) (by simp [hcons]) (by omega) hc,
    digitValue_padded]

theorem fieldDigits_all {ds : List Char} (hds : ∀ d ∈ ds, d.isDigit = true) (hne : ds ≠ [])
    (rest : List Char) :
    fieldDigits 1 (ds ++ '-' :: rest).length (ds ++ '-' :: rest) = .ok (digitValue ds, '-' :: rest) :=
  fieldDigits_digits hds hne (by simp) (by decide) rest

/-- The year of a date the calendar holds is read back up to the hyphen after
it: four digits from 0 to 9999, a plus sign before a later year and a minus
sign before an earlier one. -/
theorem relaxedYear_yearText {y : Int} (hlo : minYear ≤ y) (hhi : y ≤ maxYear) (rest : List Char) :
    relaxedYear ((Instant.yearText y).toList ++ '-' :: rest) = .ok (y, '-' :: rest) := by
  have hpow : Int.pow 2 31 = 2147483648 := by decide
  have hrange : ¬ (y < -Int.pow 2 31 ∨ Int.pow 2 31 ≤ y) := by
    simp only [minYear, maxYear] at hlo hhi
    rw [hpow]
    omega
  by_cases hsmall : 0 ≤ y ∧ y ≤ 9999
  · have hn : y.toNat < Nat.pow 10 4 := by
      change y.toNat < 10000
      omega
    have hlen := length_padded (by decide) hn
    obtain ⟨d, ds, hcons⟩ := List.exists_cons_of_ne_nil
      (List.ne_nil_of_length_pos (by omega : 0 < (Instant.padded 4 y.toNat).toList.length))
    have hd : d.isDigit = true := isDigit_of_mem_padded (hcons ▸ List.mem_cons_self)
    have hskip : skipBlanks ((Instant.padded 4 y.toNat).toList ++ '-' :: rest) =
        (Instant.padded 4 y.toNat).toList ++ '-' :: rest := by
      rw [hcons, List.cons_append]
      simp [skipBlanks, not_isBlank_of_isDigit hd]
    have hfield := fieldDigits_padded (by decide) hn (Nat.le_refl 4) (by decide : ('-' : Char).isDigit = false) rest
    rw [hskip] at hfield
    simp only [Instant.yearText, hsmall, and_self, if_true]
    unfold relaxedYear
    rw [hskip]
    dsimp only
    split
    · rename_i heq
      rw [hcons, List.cons_append, List.cons.injEq] at heq
      rw [heq.1] at hd
      exact absurd hd (by decide)
    · rename_i heq
      rw [hcons, List.cons_append, List.cons.injEq] at heq
      rw [heq.1] at hd
      exact absurd hd (by decide)
    · simp only [hfield, ok_bind, pure_eq_ok, Int.toNat_of_nonneg hsmall.1]
      rw [if_neg hrange]
  · by_cases hlarge : y > 9999
    · obtain ⟨n, rfl⟩ : ∃ n : Nat, y = n := ⟨y.toNat, by omega⟩
      have hdigits : ∀ d ∈ Nat.toDigits 10 n, d.isDigit = true :=
        fun d hd => Nat.isDigit_of_mem_toDigits (by decide) (by decide) hd
      have hfield := fieldDigits_all hdigits (List.ne_nil_of_length_pos Nat.length_toDigits_pos) rest
      have htext : (Instant.yearText (n : Int)).toList = '+' :: Nat.toDigits 10 n := by
        simp only [Instant.yearText, hsmall, if_false, hlarge, if_true, String.toList_append]
        exact congrArg ('+' :: ·) Nat.toList_repr
      have hbig : ¬ Nat.pow 2 63 ≤ digitValue (Nat.toDigits 10 n) := by
        simp only [maxYear] at hhi
        rw [digitValue_eq_ofDigitChars, Nat.ofDigitChars_ten_toDigits]
        change ¬ 9223372036854775808 ≤ n
        omega
      have hskip : skipBlanks ('+' :: (Nat.toDigits 10 n ++ '-' :: rest)) =
          '+' :: (Nat.toDigits 10 n ++ '-' :: rest) := by
        simp [skipBlanks, Text.isBlank]
      rw [htext, List.cons_append]
      unfold relaxedYear
      simp only [hskip, hfield, ok_bind, hbig, if_false]
      rw [digitValue_eq_ofDigitChars, Nat.ofDigitChars_ten_toDigits]
      simp only [pure_eq_ok, ok_bind]
      rw [if_neg hrange]
    · have hfield := @fieldDigits_all (Instant.padded 4 y.natAbs).toList
        (fun _ h => isDigit_of_mem_padded h) padded_ne_nil rest
      have htext : (Instant.yearText y).toList = '-' :: (Instant.padded 4 y.natAbs).toList := by
        simp [Instant.yearText, hsmall, hlarge]
      have hbig : ¬ Nat.pow 2 63 ≤ digitValue (Instant.padded 4 y.natAbs).toList := by
        simp only [minYear] at hlo
        rw [digitValue_padded]
        change ¬ 9223372036854775808 ≤ y.natAbs
        omega
      have hskip : skipBlanks ('-' :: ((Instant.padded 4 y.natAbs).toList ++ '-' :: rest)) =
          '-' :: ((Instant.padded 4 y.natAbs).toList ++ '-' :: rest) := by
        simp [skipBlanks, Text.isBlank]
      have hneg : -((y.natAbs : Nat) : Int) = y := by omega
      rw [htext, List.cons_append]
      unfold relaxedYear
      simp only [hskip, hfield, ok_bind, hbig, if_false]
      rw [digitValue_padded]
      simp only [pure_eq_ok, ok_bind, hneg]
      rw [if_neg hrange]

/-- A fraction of `w` digits is read as that many ninths of a second's digits. -/
theorem strictFraction_padded {w n : Nat} (hw : 0 < w) (hw9 : w ≤ 9) (hn : n < Nat.pow 10 w)
    (rest : List Char) :
    strictFraction ((Instant.padded w n).toList ++ 'Z' :: rest) = .ok (n * Nat.pow 10 (9 - w), 'Z' :: rest) := by
  have hlen := length_padded hw hn
  obtain ⟨d, ds, hcons⟩ := List.exists_cons_of_ne_nil (padded_ne_nil : (Instant.padded w n).toList ≠ [])
  have hd : d.isDigit = true := isDigit_of_mem_padded (hcons ▸ List.mem_cons_self)
  have htake : takeDigits 9 ((Instant.padded w n).toList ++ 'Z' :: rest) =
      ((Instant.padded w n).toList, 'Z' :: rest) :=
    takeDigits_digits (fun _ h => isDigit_of_mem_padded h) (by omega) (by decide) rest
  rw [hcons, List.cons_append]
  rw [hcons, List.cons_append] at htake
  simp only [strictFraction, hd, if_true, htake]
  rw [← hcons, digitValue_padded, hlen]
  simp

/-- The fraction of a second is written with three, six or nine digits, the
fewest that are exact, and read back to the nanosecond. -/
theorem strictFraction_fractionText {f : Nat} (hf : f < 1000000000) (hf0 : f ≠ 0) (rest : List Char) :
    ∃ ds, (Instant.fractionText f).toList = '.' :: ds ∧ strictFraction (ds ++ 'Z' :: rest) = .ok (f, 'Z' :: rest) := by
  simp only [Instant.fractionText, hf0, if_false]
  by_cases hms : f % 1000000 = 0
  · refine ⟨(Instant.padded 3 (f / 1000000)).toList, by simp [hms], ?_⟩
    rw [strictFraction_padded (by decide) (by decide) (by change f / 1000000 < 1000; omega)]
    simp only [show Nat.pow 10 (9 - 3) = 1000000 by decide]
    congr 3
    omega
  · by_cases hus : f % 1000 = 0
    · refine ⟨(Instant.padded 6 (f / 1000)).toList, by simp [hms, hus], ?_⟩
      rw [strictFraction_padded (by decide) (by decide) (by change f / 1000 < 1000000; omega)]
      simp only [show Nat.pow 10 (9 - 6) = 1000 by decide]
      congr 3
      omega
    · refine ⟨(Instant.padded 9 f).toList, by simp [hms, hus], ?_⟩
      rw [strictFraction_padded (by decide) (Nat.le_refl 9) hf]
      simp

/-! ## The timestamp -/

theorem expect_skipBlanks {c : Char} (hc : Text.isBlank c = false) (rest : List Char) :
    expect c (skipBlanks (c :: rest)) = .ok rest := by
  simp [skipBlanks, hc, expect]

theorem inRange_of {lo hi v : Nat} (h : lo ≤ v ∧ v ≤ hi) : inRange lo hi v = .ok v := if_pos h

theorem fieldDigits_two {n : Nat} (hn : n < 100) {c : Char} (hc : c.isDigit = false) (rest : List Char) :
    fieldDigits 1 2 (skipBlanks ((Instant.padded 2 n).toList ++ c :: rest)) = .ok (n, c :: rest) :=
  fieldDigits_padded (by decide) hn (Nat.le_refl 2) hc rest

/-- A timestamp written field by field in universal time is read back field by
field. -/
theorem relaxedStamp_text {year : Int} {month day hour minute second nanos : Nat}
    (hlo : minYear ≤ year) (hhi : year ≤ maxYear) (hmonth : 1 ≤ month ∧ month ≤ 12)
    (hday : 1 ≤ day ∧ day ≤ 31) (hhour : hour ≤ 23) (hminute : minute ≤ 59) (hsecond : second ≤ 60)
    (hnanos : nanos < 1000000000) :
    relaxedStamp ((Instant.yearText year).toList ++ '-' :: ((Instant.padded 2 month).toList ++ '-' ::
      ((Instant.padded 2 day).toList ++ 'T' :: ((Instant.padded 2 hour).toList ++ ':' ::
      ((Instant.padded 2 minute).toList ++ ':' :: ((Instant.padded 2 second).toList ++
      ((Instant.fractionText nanos).toList ++ ['Z']))))))) =
    .ok ⟨year, month, day, hour, minute, second, nanos, 0⟩ := by
  obtain ⟨c, cs, htail, hc⟩ : ∃ c cs, (Instant.fractionText nanos).toList ++ ['Z'] = c :: cs ∧
      c.isDigit = false := by
    by_cases hf0 : nanos = 0
    · exact ⟨'Z', [], by simp [hf0, Instant.fractionText], by decide⟩
    · obtain ⟨ds, htext, -⟩ := strictFraction_fractionText hnanos hf0 []
      exact ⟨'.', ds ++ ['Z'], by simp [htext], by decide⟩
  rw [htail]
  unfold relaxedStamp
  simp only [relaxedYear_yearText hlo hhi, ok_bind, pure_bind, expect_skipBlanks (by decide : Text.isBlank '-' = false),
    expect_skipBlanks (by decide : Text.isBlank ':' = false),
    fieldDigits_two (by omega : month < 100) (by decide : ('-' : Char).isDigit = false),
    fieldDigits_two (by omega : day < 100) (by decide : ('T' : Char).isDigit = false),
    fieldDigits_two (by omega : hour < 100) (by decide : (':' : Char).isDigit = false),
    fieldDigits_two (by omega : minute < 100) (by decide : (':' : Char).isDigit = false),
    fieldDigits_two (by omega : second < 100) hc,
    inRange_of hmonth, inRange_of hday, inRange_of (⟨Nat.zero_le _, hhour⟩ : 0 ≤ hour ∧ hour ≤ 23),
    inRange_of (⟨Nat.zero_le _, hminute⟩ : 0 ≤ minute ∧ minute ≤ 59),
    inRange_of (⟨Nat.zero_le _, hsecond⟩ : 0 ≤ second ∧ second ≤ 60), true_or, if_true]
  by_cases hf0 : nanos = 0
  · have hzone : c :: cs = ['Z'] := by simp [← htail, hf0, Instant.fractionText]
    rw [hzone, hf0]
    rfl
  · obtain ⟨ds, htext, hfrac⟩ := strictFraction_fractionText hnanos hf0 []
    have hpoint : c :: cs = '.' :: (ds ++ ['Z']) := by simp [← htail, htext]
    rw [hpoint]
    simp only [hfrac, ok_bind]
    rfl

end Time

namespace CivilDate

theorem daysInMonth_le_31 (y : Int) (m : Nat) : daysInMonth y m ≤ 31 := by
  unfold daysInMonth
  split <;> (try split) <;> omega

end CivilDate

namespace Instant

/-- An instant a calendar clock can hold: a year the calendar holds, and
nanoseconds under a second except within a leap second, which only the last
second of a minute has. -/
structure OnClock (t : Instant) : Prop where
  inCalendar : Time.inCalendar t = true
  nanos_lt : t.nanos < 2000000000
  leap_second : 1000000000 ≤ t.nanos → t.seconds % 60 = 59

theorem toList_render {t : Instant} {d : CivilDate} {h m s f : Nat} (hfields : t.fields = (d, h, m, s, f)) :
    t.render.toList = (yearText d.year).toList ++ '-' :: ((padded 2 d.month).toList ++ '-' ::
      ((padded 2 d.day).toList ++ 'T' :: ((padded 2 h).toList ++ ':' ::
      ((padded 2 m).toList ++ ':' :: ((padded 2 s).toList ++ ((fractionText f).toList ++ ['Z'])))))) := by
  have hf : f = t.nanos % 1000000000 := by
    simp only [fields, Prod.mk.injEq] at hfields
    exact hfields.2.2.2.2.symm
  simp [render, dateTimeText, hfields, hf]

/-- The date of an instant exists in the calendar, and its clock fields lie in
their ranges: the seconds reach 60 only in a leap second. -/
theorem fields_bounds {t : Instant} {d : CivilDate} {h m s f : Nat} (hfields : t.fields = (d, h, m, s, f)) :
    d.isValid = true ∧ h ≤ 23 ∧ m ≤ 59 ∧ s ≤ 60 ∧ f < 1000000000 := by
  simp only [fields, Prod.mk.injEq] at hfields
  obtain ⟨hd, hh, hm, hs, hf⟩ := hfields
  have hsecs : (t.seconds % 86400).toNat < 86400 := by omega
  refine ⟨hd ▸ CivilDate.isValid_ofDays _, ?_, ?_, ?_, ?_⟩
  · rw [← hh]; omega
  · rw [← hm]; omega
  · rw [← hs]; split <;> omega
  · rw [← hf]; omega

/-- The date and clock fields of an instant name the instant again. -/
theorem toInstant_fields {t : Instant} (ht : t.OnClock) {d : CivilDate} {h m s f : Nat}
    (hfields : t.fields = (d, h, m, s, f)) :
    Time.Stamp.toInstant ⟨d.year, d.month, d.day, h, m, s, f, 0⟩ = .ok t := by
  have hyear := ht.inCalendar
  simp only [Time.inCalendar, hfields, decide_eq_true_eq] at hyear
  obtain ⟨hvalid, hh23, hm59, hs60, -⟩ := fields_bounds hfields
  simp only [fields, Prod.mk.injEq] at hfields
  obtain ⟨hd, hh, hm, hs, hf⟩ := hfields
  have hdays : d.toDays = t.seconds / 86400 := hd ▸ CivilDate.toDays_ofDays _
  have hinstant : (if s = 60 then ofCivil d h m 59 (f + 1000000000) 0 else ofCivil d h m s f 0) = t := by
    have hnanos := ht.nanos_lt
    by_cases hleap : 1000000000 ≤ t.nanos
    · have h59 := ht.leap_second hleap
      have hsixty : s = 60 := by
        simp only [hleap, if_true] at hs
        omega
      simp only [hsixty, if_true, ofCivil, hdays]
      rw [← hh, ← hm, ← hf]
      congr 1 <;> omega
    · have hs59 : s ≠ 60 := by
        simp only [hleap, if_false] at hs
        omega
      simp only [hs59, if_false, ofCivil, hdays]
      rw [← hh, ← hm, ← hs, ← hf]
      simp only [hleap, if_false]
      congr 1 <;> omega
  simp only [Time.Stamp.toInstant]
  rw [if_pos ⟨hyear.1, hyear.2, hvalid, hh23, hm59, hs60, by decide⟩, hinstant, if_pos ht.inCalendar]

/-- The relaxed reader reads back every instant the clock can hold, as written. -/
theorem readRelaxedOrFault_render {t : Instant} (ht : t.OnClock) : readRelaxedOrFault t.render = .ok t := by
  obtain ⟨d, h, m, s, f, hfields⟩ : ∃ d h m s f, t.fields = (d, h, m, s, f) := ⟨_, _, _, _, _, rfl⟩
  have hyear := ht.inCalendar
  simp only [Time.inCalendar, hfields, decide_eq_true_eq] at hyear
  obtain ⟨hvalid, hh23, hm59, hs60, hf⟩ := fields_bounds hfields
  have hmonth := CivilDate.daysInMonth_le_31 d.year d.month
  simp only [CivilDate.isValid, Bool.and_eq_true, decide_eq_true_eq] at hvalid
  have hstamp := Time.relaxedStamp_text hyear.1 hyear.2 ⟨hvalid.1.1.1, hvalid.1.1.2⟩
    ⟨hvalid.1.2, by omega⟩ hh23 hm59 hs60 hf
  rw [readRelaxedOrFault, toList_render hfields, hstamp, ok_bind, toInstant_fields ht hfields]

theorem readRelaxed_render {t : Instant} (ht : t.OnClock) : readRelaxed t.render = some t := by
  simp [readRelaxed, readRelaxedOrFault_render ht, Except.toOption]

end Instant

end DenyPolicy
