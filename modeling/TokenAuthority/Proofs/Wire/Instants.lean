import TokenAuthority.Time.InstantText

/-!
# Instants are read back

Date and time of day are written in fields of a fixed width, and a reader takes no more of a field
than its width (`number_padded`), so that it does not matter what stands behind. Whatever date and
time of day the fields tell, they are read as the instant that they stand for (`read_parts`). So all
instants of the calendar are read back from their texts (`Instant.ofText?_text`), also of years that
are written with a sign.
-/

namespace TokenAuthority.Time

open Text (isBlank padded digits ofDigits)

namespace InstantText

section Numbers

variable {c : Char} {n width : Nat} {rest : List Char}

theorem length_digits {k : Nat} (hk : 0 < k) (h : n < Nat.pow 10 k) : (digits n).length ≤ k :=
  (Nat.length_toDigits_le_iff (by decide) hk).2 h

theorem length_padded (h : (digits n).length ≤ width) : (padded width n).length = width := by
  rw [padded, List.length_append, List.length_replicate]
  omega

theorem padded_ne_nil (width n : Nat) : padded width n ≠ [] :=
  List.append_ne_nil_of_right_ne_nil _ Nat.toDigits_ne_nil

theorem isDigit_of_mem_padded (h : c ∈ padded width n) : c.isDigit := by
  rcases List.mem_append.1 h with h | h
  · rw [List.eq_of_mem_replicate h]
    rfl
  · exact Nat.isDigit_of_mem_toDigits (by decide) (by decide) h

theorem exists_padded_eq_cons (width n : Nat) : ∃ c s, padded width n = c :: s ∧ c.isDigit := by
  obtain ⟨c, s, hs⟩ := List.exists_cons_of_ne_nil (padded_ne_nil width n)
  exact ⟨c, s, hs, isDigit_of_mem_padded (hs ▸ List.mem_cons_self)⟩

theorem ofDigits_padded (width n : Nat) : ofDigits (padded width n) = n := by
  rw [ofDigits, padded, Nat.ofDigitChars_append, Nat.ofDigitChars_replicate_zero, Nat.mul_zero]
  exact Nat.ofDigitChars_ten_toDigits

theorem takeWhile_padded (h : rest.takeWhile Char.isDigit = []) :
    (padded width n ++ rest).takeWhile Char.isDigit = padded width n := by
  rw [List.takeWhile_append_of_pos fun c hc => isDigit_of_mem_padded hc, h, List.append_nil]

theorem number_of_takeWhile {k : Nat}
    (h : ((padded width n ++ rest).take k).takeWhile Char.isDigit = padded width n) :
    number k (padded width n ++ rest) = some (n, rest) := by
  simp only [number, h, List.drop_left, ofDigits_padded,
    List.isEmpty_eq_false_iff.2 (padded_ne_nil width n), Bool.false_eq_true, if_false]

/-- A number that is as wide as its field is read whatever stands behind it. -/
theorem number_padded (h : (digits n).length ≤ width) :
    number width (padded width n ++ rest) = some (n, rest) := by
  have hall : (padded width n ++ []).takeWhile Char.isDigit = padded width n := takeWhile_padded rfl
  refine number_of_takeWhile ?_
  rw [List.append_nil] at hall
  rw [List.take_left' (length_padded h), hall]

/-- Where any number of digits may stand, a number is read up to what is no digit. -/
theorem number_length (h : rest.takeWhile Char.isDigit = []) :
    number (padded width n ++ rest).length (padded width n ++ rest) = some (n, rest) := by
  refine number_of_takeWhile ?_
  rw [List.take_length, takeWhile_padded h]

theorem isBlank_of_isDigit (h : c.isDigit) : isBlank c = false := by
  have hdigit : 48 ≤ c.toNat ∧ c.toNat ≤ 57 := by
    simpa [Char.isDigit, UInt32.le_iff_toNat_le] using h
  simp only [isBlank, Bool.or_eq_false_iff, Bool.and_eq_false_iff, decide_eq_false_iff_not,
    beq_eq_false_iff_ne]
  omega

theorem skipBlanks_padded : skipBlanks (padded width n ++ rest) = padded width n ++ rest := by
  obtain ⟨c, s, hs, hc⟩ := exists_padded_eq_cons width n
  rw [hs, List.cons_append]
  exact List.dropWhile_cons_of_neg (by simp [isBlank_of_isDigit hc])

theorem field_padded (h : (digits n).length ≤ width) :
    field width (padded width n ++ rest) = some (n, rest) := by
  rw [field, skipBlanks_padded, number_padded h]

theorem year_minus (s : List Char) :
    year ('-' :: s) = (number s.length s).map fun (n, r) => (-(n : Int), r) := rfl

theorem year_plus (s : List Char) :
    year ('+' :: s) = (number s.length s).map fun (n, r) => ((n : Int), r) := rfl

/-- A year of four digits is read like any field, and another one as a number behind its sign. -/
theorem year_yearText {y : Int} (h : rest.takeWhile Char.isDigit = []) :
    year (yearText y ++ rest) = some (y, rest) := by
  unfold yearText
  split
  · next hy =>
    obtain ⟨n, rfl⟩ := Int.eq_ofNat_of_zero_le hy.1
    have hnumber : number 4 (padded 4 n ++ rest) = some (n, rest) :=
      number_padded (length_digits (by decide) (by show n < 10000; omega))
    rw [Int.toNat_natCast, year, skipBlanks_padded]
    obtain ⟨c, s, hs, hc⟩ := exists_padded_eq_cons 4 n
    -- The text begins with a digit, and so with no sign.
    rw [hs] at hnumber ⊢
    split
    · next heq =>
      cases heq
      cases hc
    · next heq =>
      cases heq
      cases hc
    · rw [hnumber]
      rfl
  · rw [List.cons_append]
    split
    · simp only [year_minus, number_length h, Option.map_some]
      congr 2
      omega
    · simp only [year_plus, number_length h, Option.map_some]
      congr 2
      omega

/-- A fraction of `k` digits. As many as are missing of nine are taken to be zeros. -/
theorem fraction_padded {k nanos : Nat} (hk : k ≤ 9) (h : (digits n).length ≤ k)
    (hn : Nat.pow 10 (9 - k) * n = nanos) :
    fraction ('.' :: (padded k n ++ ['Z'])) = some (nanos, ['Z']) := by
  have hdigits : (padded k n ++ ['Z']).takeWhile Char.isDigit = padded k n := takeWhile_padded rfl
  have htake : (padded k n ++ List.replicate 9 '0').take 9 =
      padded k n ++ List.replicate (9 - k) '0' := by
    rw [List.take_append, length_padded h, List.take_of_length_le (by rw [length_padded h]; omega),
      List.take_replicate, Nat.min_eq_left (Nat.sub_le 9 k)]
  have hvalue : ofDigits (padded k n ++ List.replicate (9 - k) '0') = nanos := by
    rw [ofDigits, Nat.ofDigitChars_append, Nat.ofDigitChars_replicate_zero, ← hn]
    congr 1
    exact ofDigits_padded k n
  simp only [fraction, hdigits, htake, hvalue, List.drop_left,
    List.isEmpty_eq_false_iff.2 (padded_ne_nil k n), Bool.false_eq_true, if_false]

theorem fraction_fractionText {nanos : Nat} (h : nanos < 1000000000) :
    fraction (fractionText nanos ++ ['Z']) = some (nanos, ['Z']) := by
  unfold fractionText
  split
  · next hzero =>
    rw [hzero]
    rfl
  split
  · refine fraction_padded (by decide) (length_digits (by decide) ?_) ?_
    · show nanos / 1000000 < 1000
      omega
    · show 1000000 * (nanos / 1000000) = nanos
      omega
  split
  · refine fraction_padded (by decide) (length_digits (by decide) ?_) ?_
    · show nanos / 1000 < 1000000
      omega
    · show 1000 * (nanos / 1000) = nanos
      omega
  · exact fraction_padded (by decide) (length_digits (by decide) h) (Nat.one_mul nanos)

end Numbers

end InstantText

theorem Date.le_of_day? {d : Date} {n : Int} (h : d.day? = some n) :
    d.month ≤ 12 ∧ d.day ≤ 31 := by
  have hlengths : ∀ m ∈ monthLengths d.year, m ≤ 31 := by
    unfold monthLengths
    cases isLeap d.year <;> decide
  have hlength : ∀ i, (monthLengths d.year).getD i 0 ≤ 31 := by
    intro i
    rw [List.getD_eq_getElem?_getD]
    rcases hi : (monthLengths d.year)[i]? with _ | m
    · exact Nat.zero_le 31
    · exact hlengths m (List.mem_of_getElem? hi)
  unfold day? at h
  dsimp only at h
  split at h
  · next hd => exact ⟨hd.2.1, Nat.le_trans hd.2.2.2 (hlength _)⟩
  · cases h

namespace InstantText

theorem bind_of_eq_some {α β : Type} {x : Option α} {a : α} {f : α → Option β} {o : Option β}
    (hx : x = some a) (h : f a = o) : (x >>= f) = o :=
  hx ▸ h

theorem guard_of {p : Prop} [Decidable p] (hp : p) : (guard p : Option Unit) = some () := if_pos hp

/-- A date and a time of day in UTC, of which the second 60 is a leap second, are read as the instant
that they stand for. -/
theorem read_parts {date : Date} {day : Int} {hour minute second nanos : Nat}
    (hday : date.day? = some day) (hrange : firstDay ≤ day ∧ day ≤ lastDay) (hhour : hour < 24)
    (hminute : minute < 60) (hsecond : second ≤ 60) (hnanos : nanos < 1000000000) :
    read (yearText date.year ++ '-' :: padded 2 date.month ++ '-' :: padded 2 date.day
        ++ 'T' :: padded 2 hour ++ ':' :: padded 2 minute ++ ':' :: padded 2 second
        ++ fractionText nanos ++ ['Z']) =
      let leap := if second = 60 then 1 else 0
      some ⟨86400 * (day - epochDay) + (3600 * hour + 60 * minute + (second - leap) : Nat),
        nanos + 1000000000 * leap⟩ := by
  obtain ⟨hmonth, hdate⟩ := Date.le_of_day? hday
  have hfield : ∀ {n : Nat} {rest : List Char}, n < 100 →
      field 2 (padded 2 n ++ rest) = some (n, rest) := fun hn =>
    field_padded (length_digits (by decide) hn)
  have hdash : ∀ s, separator '-' ('-' :: s) = some s := fun _ => rfl
  have hcolon : ∀ s, separator ':' (':' :: s) = some s := fun _ => rfl
  have hmark : ∀ s, dateMark ('T' :: s) = some s := fun _ => rfl
  have hoffset : offset ['Z'] = some (0, []) := rfl
  have hblank : (skipBlanks []).isEmpty = true := rfl
  simp only [List.append_assoc, List.cons_append]
  -- The reader takes one field after the other, and leaves what is behind it.
  refine bind_of_eq_some (year_yearText rfl) ?_
  refine bind_of_eq_some (hdash _) (bind_of_eq_some (hfield (show date.month < 100 by omega)) ?_)
  refine bind_of_eq_some (hdash _) (bind_of_eq_some (hfield (show date.day < 100 by omega)) ?_)
  refine bind_of_eq_some (hmark _) (bind_of_eq_some (hfield (show hour < 100 by omega)) ?_)
  refine bind_of_eq_some (hcolon _) (bind_of_eq_some (hfield (show minute < 100 by omega)) ?_)
  refine bind_of_eq_some (hcolon _) (bind_of_eq_some (hfield (show second < 100 by omega)) ?_)
  refine bind_of_eq_some (fraction_fractionText hnanos) (bind_of_eq_some hoffset ?_)
  refine bind_of_eq_some (guard_of hblank) (bind_of_eq_some hday ?_)
  refine bind_of_eq_some (guard_of ⟨hrange.1, hrange.2, hhour, hminute, hsecond⟩) ?_
  refine bind_of_eq_some (guard_of ?_) ?_
  · split <;> omega
  · rw [Int.sub_zero]
    rfl

end InstantText

namespace Instant

/-- The year of an instant in UTC. -/
def year (t : Instant) : Int := (Date.ofDay (t.seconds / 86400 + epochDay)).year

/-- An instant of the years of the calendar, as clocks and texts give them: a leap second is the last
one of a minute. -/
structure Dated (t : Instant) : Prop where
  first : -262143 ≤ t.year
  last : t.year ≤ 262142
  nanos : t.nanos < 1000000000 ∨ t.nanos < 2000000000 ∧ t.seconds % 60 = 59

theorem ofText?_text {t : Instant} (h : t.Dated) : ofText? t.text = some t := by
  obtain ⟨hfirst, hlast, hnanos⟩ := h
  have hlower := daysBefore_yearOf (t.seconds / 86400 + epochDay)
  have hupper := lt_daysBefore_yearOf (t.seconds / 86400 + epochDay)
  have hrange : InstantText.firstDay ≤ t.seconds / 86400 + epochDay ∧
      t.seconds / 86400 + epochDay ≤ InstantText.lastDay := by
    change -262143 ≤ yearOf _ at hfirst
    change yearOf _ ≤ 262142 at hlast
    simp only [daysBefore, InstantText.firstDay, InstantText.lastDay] at *
    omega
  have hhour : (t.seconds % 86400).toNat / 3600 < 24 := by omega
  have hminute : (t.seconds % 86400).toNat / 60 % 60 < 60 := by omega
  have hsecond : (t.seconds % 86400).toNat % 60 +
      (if t.nanos < 1000000000 then 0 else 1) ≤ 60 := by
    split <;> omega
  have hfraction : t.nanos % 1000000000 < 1000000000 := by omega
  have hread := InstantText.read_parts (day?_ofDay _) hrange hhour hminute hsecond hfraction
  rw [ofText?, text, String.toList_ofList]
  refine hread.trans (congrArg some ?_)
  obtain ⟨seconds, nanos⟩ := t
  dsimp only at *
  rw [Instant.mk.injEq]
  -- What is written of a leap second is the second 60, and the nanoseconds that have passed of it.
  by_cases hplain : nanos < 1000000000
  · rw [if_pos hplain, if_neg (by omega)]
    omega
  · obtain ⟨hleap, hend⟩ := hnanos.resolve_left hplain
    rw [if_neg hplain, if_pos (by omega)]
    omega

end Instant

end TokenAuthority.Time
