import CredentialIssuance.Timestamp

namespace CredentialIssuance.Timestamp

theorem natural_eq (digits : List Char) : natural digits = Nat.ofDigitChars 10 digits 0 := by
  rw [natural, Nat.ofDigitChars_eq_foldl]
  simp only [Nat.mul_comm]
  rfl

-- What stands in front of a digit is not skipped, and a digit is no mark.

theorem skip_cons {c : Char} (h : blank c = false) (rest : List Char) :
    skip (c :: rest) = c :: rest :=
  List.dropWhile_cons_of_neg (by simp [h])

theorem blank_of_isDigit {c : Char} (h : c.isDigit = true) : blank c = false := by
  obtain ⟨hlow, hhigh⟩ : 48 ≤ c.toNat ∧ c.toNat ≤ 57 := Char.isDigit_iff_toNat.1 h
  simp only [blank, Bool.or_eq_false_iff, Bool.and_eq_false_iff, decide_eq_false_iff_not]
  omega

section Padded

variable {width n limit : Nat} {c : Char} {rest : List Char}

theorem isDigit_padded : ∀ d ∈ padded width n, d.isDigit = true := by
  intro d hd
  rcases List.mem_append.1 hd with hzero | hdigit
  · rw [List.eq_of_mem_replicate hzero]
    rfl
  · exact Nat.isDigit_of_mem_toDigits (by decide) (by decide) hdigit

theorem natural_padded (width n : Nat) : natural (padded width n) = n := by
  rw [natural_eq, padded, Nat.ofDigitChars_append, Nat.ofDigitChars_replicate_zero, Nat.mul_zero,
    Nat.ofDigitChars_ten_toDigits]

theorem padded_cons (width n : Nat) : ∃ d ds, padded width n = d :: ds ∧ d.isDigit = true := by
  cases h : padded width n with
  | nil => exact absurd (List.append_eq_nil_iff.1 h).2 Nat.toDigits_ne_nil
  | cons d ds => exact ⟨d, ds, rfl, isDigit_padded d (h ▸ List.mem_cons_self)⟩

theorem length_padded (hwidth : 0 < width) (h : n < Nat.pow 10 width) :
    (padded width n).length = width := by
  have hlength := (Nat.length_toDigits_le_iff (by decide) hwidth).2 h
  simp only [padded, List.length_append, List.length_replicate]
  omega

theorem takeWhile_padded (h : c.isDigit = false) :
    (padded width n ++ c :: rest).takeWhile Char.isDigit = padded width n := by
  rw [List.takeWhile_append_of_pos isDigit_padded, List.takeWhile_cons_of_neg (by simp [h]),
    List.append_nil]

theorem skip_padded (rest : List Char) : skip (padded width n ++ rest) = padded width n ++ rest := by
  obtain ⟨d, ds, hpadded, hdigit⟩ := padded_cons width n
  rw [hpadded, List.cons_append, skip_cons (blank_of_isDigit hdigit)]

-- A number is read up to the next mark, if it has no more digits than it may have.
theorem number?_padded (fits : (padded width n).length ≤ limit) (h : c.isDigit = false) :
    number? limit (padded width n ++ c :: rest) = some (n, c :: rest) := by
  have hstop : ((c :: rest).take (limit - (padded width n).length)).takeWhile Char.isDigit = [] := by
    cases limit - (padded width n).length with
    | zero => rfl
    | succ k => exact List.takeWhile_cons_of_neg (by simp [h])
  have hdigits : ((padded width n ++ c :: rest).take limit).takeWhile Char.isDigit =
      padded width n := by
    rw [List.take_append, List.take_of_length_le fits,
      List.takeWhile_append_of_pos isDigit_padded, hstop, List.append_nil]
  have hnatural := natural_padded width n
  unfold number?
  rw [hdigits]
  obtain ⟨d, ds, hpadded, -⟩ := padded_cons width n
  rw [hpadded] at hnatural ⊢
  simp [hnatural]

theorem field?_padded (hn : n < 100) (h : c.isDigit = false) :
    field? (padded 2 n ++ c :: rest) = some (n, c :: rest) := by
  rw [field?, skip_padded]
  exact number?_padded (Nat.le_of_eq (length_padded (by decide) hn)) h

theorem markedField?_padded {mark : Char} (hmark : blank mark = false) (hn : n < 100)
    (h : c.isDigit = false) :
    markedField? mark (mark :: (padded 2 n ++ c :: rest)) = some (n, c :: rest) := by
  rw [markedField?, skip_cons hmark]
  simp only [if_true]
  exact field?_padded hn h

-- A fraction of up to nine digits is read in nanoseconds.
theorem fraction?_padded (hwidth : 0 < width) (hle : width ≤ 9) (hn : n < Nat.pow 10 width)
    (h : c.isDigit = false) :
    fraction? ('.' :: (padded width n ++ c :: rest)) =
      some (n * Nat.pow 10 (9 - width), c :: rest) := by
  have hlength := length_padded hwidth hn
  have hkept : (padded width n).take 9 = padded width n := List.take_of_length_le (by omega)
  have hdrop : (padded width n ++ c :: rest).drop width = c :: rest := List.drop_left' hlength
  have hnatural := natural_padded width n
  unfold fraction?
  simp only [takeWhile_padded h]
  obtain ⟨d, ds, hpadded, -⟩ := padded_cons width n
  rw [hpadded] at hnatural hlength hkept hdrop ⊢
  simp only [hkept, hnatural, hlength, hdrop, Nat.pow_eq]

end Padded

section Parts

variable {rest : List Char}

-- A sign is followed by any number of digits.
theorem number?_signed (n : Nat) :
    number? (padded 4 n ++ '-' :: rest).length (padded 4 n ++ '-' :: rest) = some (n, '-' :: rest) :=
  number?_padded (by simp) rfl

theorem year?_yearChars (year : Int) :
    year? (yearChars year ++ '-' :: rest) = some (year, '-' :: rest) := by
  unfold yearChars
  split
  · next hshort =>
    have hn : year.toNat < Nat.pow 10 4 := show year.toNat < 10000 by omega
    have hread : number? 4 (padded 4 year.toNat ++ '-' :: rest) = some (year.toNat, '-' :: rest) :=
      number?_padded (Nat.le_of_eq (length_padded (by decide) hn)) rfl
    obtain ⟨d, ds, hpadded, hdigit⟩ := padded_cons 4 year.toNat
    rw [year?, skip_padded]
    rw [hpadded] at hread ⊢
    -- A digit is no sign.
    split
    · next heq =>
      cases heq
      cases hdigit
    · next heq =>
      cases heq
      cases hdigit
    · simp only [hread, Option.map_some, Int.toNat_of_nonneg hshort.1]
  · next hlong =>
    by_cases hnegative : year < 0
    · rw [if_pos hnegative, year?, List.cons_append, skip_cons rfl]
      simp only [number?_signed, Option.map_some]
      rw [show -(year.natAbs : Int) = year by omega]
    · rw [if_neg hnegative, year?, List.cons_append, skip_cons rfl]
      simp only [number?_signed, Option.map_some]
      rw [show (year.natAbs : Int) = year by omega]

-- The seconds end at the point or at the zone.
theorem fractionChars_cons (nano : Nat) (rest : List Char) :
    ∃ c cs, fractionChars nano ++ 'Z' :: rest = c :: cs ∧ c.isDigit = false := by
  unfold fractionChars
  split
  · exact ⟨_, _, rfl, rfl⟩
  split
  · exact ⟨_, _, rfl, rfl⟩
  split <;> exact ⟨_, _, rfl, rfl⟩

theorem fraction?_fractionChars {nano : Nat} (h : nano < 1000000000) :
    fraction? (fractionChars nano ++ 'Z' :: rest) = some (nano, 'Z' :: rest) := by
  unfold fractionChars
  split
  · next hzero =>
    rw [hzero]
    rfl
  split
  · next hmilli =>
    have hfits : nano / 1000000 < Nat.pow 10 3 := show nano / 1000000 < 1000 by omega
    have hvalue : nano / 1000000 * Nat.pow 10 (9 - 3) = nano :=
      show nano / 1000000 * 1000000 = nano by omega
    rw [List.cons_append, fraction?_padded (by decide) (by decide) hfits rfl, hvalue]
  split
  · next hmicro =>
    have hfits : nano / 1000 < Nat.pow 10 6 := show nano / 1000 < 1000000 by omega
    have hvalue : nano / 1000 * Nat.pow 10 (9 - 6) = nano := show nano / 1000 * 1000 = nano by omega
    rw [List.cons_append, fraction?_padded (by decide) (by decide) hfits rfl, hvalue]
  · rw [List.cons_append, fraction?_padded (by decide) (by decide) h rfl,
      show nano * Nat.pow 10 (9 - 9) = nano from Nat.mul_one nano]

end Parts

theorem daysIn_le (year : Int) (month : Nat) : Calendar.daysIn year month ≤ 31 := by
  unfold Calendar.daysIn
  split
  · split <;> decide
  · split <;> decide

-- In the universal zone the date and the time of day stay as they are.
theorem ofZone?_universal (t : Timestamp) :
    ofZone? (t.year, t.month, t.day) t.hour t.minute t.second t.nano 0 = some t := by
  obtain ⟨hhour, hminute, -⟩ := t.isTime
  have hminutes : ((t.hour * 60 + t.minute : Nat) : Int) - 0 = (t.hour * 60 + t.minute : Nat) :=
    Int.sub_zero _
  have hmod : (((t.hour * 60 + t.minute : Nat) : Int) % 1440).toNat = t.hour * 60 + t.minute := by
    omega
  have hhours : (t.hour * 60 + t.minute) / 60 = t.hour := by omega
  have hleft : (t.hour * 60 + t.minute) % 60 = t.minute := by omega
  have hbefore : ¬((t.hour * 60 + t.minute : Nat) : Int) < 0 := by omega
  have hafter : ¬(1440 : Int) ≤ (t.hour * 60 + t.minute : Nat) := by omega
  simp only [ofZone?, t.isDate, t.isTime, and_self, if_true, hminutes, hbefore, hafter, if_false,
    hmod, hhours, hleft, dif_pos]

-- The text of a timestamp is read back to the nanosecond.
theorem ofText?_text (t : Timestamp) : ofText? t.text = some t := by
  obtain ⟨-, -, -, hmonth, -, hday⟩ := t.isDate
  obtain ⟨hhour, hminute, hsecond, hnano⟩ := t.isTime
  have hdays := daysIn_le t.year t.month
  have hlist : t.text.toList = t.chars := String.toList_ofList
  have hmonths (rest : List Char) : markedField? '-' ('-' :: (padded 2 t.month ++ '-' :: rest)) =
      some (t.month, '-' :: rest) :=
    markedField?_padded rfl (by omega) rfl
  have hdates (rest : List Char) : markedField? '-' ('-' :: (padded 2 t.day ++ 'T' :: rest)) =
      some (t.day, 'T' :: rest) :=
    markedField?_padded rfl (by omega) rfl
  have hhours (rest : List Char) :
      field? (padded 2 t.hour ++ ':' :: rest) = some (t.hour, ':' :: rest) :=
    field?_padded (by omega) rfl
  have hminutes (rest : List Char) : markedField? ':' (':' :: (padded 2 t.minute ++ ':' :: rest)) =
      some (t.minute, ':' :: rest) :=
    markedField?_padded rfl (by omega) rfl
  have hseconds : markedField? ':' (':' :: (padded 2 t.second ++ (fractionChars t.nano ++ ['Z']))) =
      some (t.second, fractionChars t.nano ++ ['Z']) := by
    obtain ⟨c, cs, hrest, hstop⟩ := fractionChars_cons t.nano []
    rw [hrest]
    exact markedField?_padded rfl (by omega) hstop
  have hzone : skip ['Z'] = ['Z'] := skip_cons rfl []
  rw [ofText?, hlist, chars, ofChars?]
  simp only [year?_yearChars, Option.bind_eq_bind, Option.bind_some, separator?, hmonths, hdates,
    hhours, hminutes, hseconds, fraction?_fractionChars hnano, hzone, offset?]
  exact ofZone?_universal t

end CredentialIssuance.Timestamp
