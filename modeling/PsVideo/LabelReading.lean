import PsVideo.Numeral
import PsVideo.TimeLabel

/-!
# PsVideo.LabelReading

The time label read back. `formatTimeFor` truncates to a whole second and writes hours, minutes and
seconds with colons between them, the hours only from one hour on. The fields are decimal numerals,
so the label has the second in it, and two times have one label exactly if they have one second.
-/

namespace PsVideo

/-! ## Reading a label -/

def decimalDigit (c : Char) : Option ℕ := if c.isDigit then some (c.toNat - '0'.toNat) else none

/-- What stands between the colons. -/
def fields (text : String) : List (List Char) := text.toList.splitOn ':'

def readField (field : List Char) : Option ℕ := readNumeral decimalDigit 10 field

/-- The seconds of a label of two or three fields. -/
def readLabel (text : String) : Option ℕ :=
  match (fields text).map readField with
  | [some m, some s] => some (m * 60 + s)
  | [some h, some m, some s] => some (h * 3600 + m * 60 + s)
  | _ => none

/-- Exactly two decimal digits, of a number below 60. -/
def Sexagesimal (field : List Char) : Prop :=
  field.length = 2 ∧ ∃ n < 60, readField field = some n

/-- The fields of a label: the hours are there from `3600` seconds on and do not begin with a 0. -/
def LabelFields (t : ℚ) : List (List Char) → Prop
  | [m, s] => t < 3600 ∧ Sexagesimal m ∧ Sexagesimal s
  | [h, m, s] =>
    3600 ≤ t ∧ (readField h).isSome ∧ h.head? ≠ some '0' ∧ Sexagesimal m ∧ Sexagesimal s
  | _ => False

/-! ## The fields -/

theorem decimalDigit_digitChar {d : ℕ} (h : d < 10) : decimalDigit d.digitChar = some d := by
  have hall : ∀ d : Fin 10, decimalDigit (Nat.digitChar d) = some d.val := by decide
  exact hall ⟨d, h⟩

theorem readField_toDigits (n : ℕ) : readField (Nat.toDigits 10 n) = some n :=
  readNumeral_toDigits (by omega) (fun _ => decimalDigit_digitChar) n

theorem toList_toString (n : ℕ) : (toString (n : ℤ)).toList = Nat.toDigits 10 n := by
  rw [Int.toString_eq_repr, Int.repr_eq_if, if_pos (Int.natCast_nonneg n), Int.toNat_natCast,
    Nat.toList_repr]

def twoDigits (n : ℕ) : List Char := [(n / 10).digitChar, (n % 10).digitChar]

/-- Below 100 the padding gives two digits. -/
theorem toList_padField {n : ℕ} (h : n < 100) : (padField n).toList = twoDigits n := by
  have hlen : (toString (n : ℤ)).length = (Nat.toDigits 10 n).length := by
    rw [← String.length_toList, toList_toString]
  unfold padField
  rw [hlen]
  rcases Nat.lt_or_ge n 10 with h1 | h1
  · rw [Nat.toDigits_of_lt_base h1, List.length_singleton, if_pos rfl, String.toList_append,
      toList_toString, Nat.toDigits_of_lt_base h1, twoDigits, Nat.div_eq_of_lt h1,
      Nat.mod_eq_of_lt h1]
    rfl
  · have hd : Nat.toDigits 10 n = twoDigits n := by
      rw [Nat.toDigits_of_base_le (by omega) h1, Nat.toDigits_of_lt_base (by omega)]
      rfl
    rw [hd, if_neg (by simp [twoDigits]), toList_toString, hd]

theorem readField_twoDigits {n : ℕ} (h : n < 100) : readField (twoDigits n) = some n := by
  refine readNumeral_eq_some.mpr ⟨List.cons_ne_nil _ _, [n / 10, n % 10], ?_, ?_⟩
  · simp only [twoDigits, List.map_cons, List.map_nil]
    rw [decimalDigit_digitChar (by omega), decimalDigit_digitChar (by omega)]
  · simp only [numeral_eq_foldl, List.foldl_cons, List.foldl_nil]
    omega

theorem sexagesimal_twoDigits {n : ℕ} (h : n < 60) : Sexagesimal (twoDigits n) :=
  ⟨rfl, n, h, readField_twoDigits (by omega)⟩

/-- A field that can be read has no colon in it. -/
theorem colon_not_mem {field : List Char} {n : ℕ} (h : readField field = some n) :
    ':' ∉ field := by
  obtain ⟨_, ds, hds, _⟩ := readNumeral_eq_some.mp h
  intro hmem
  have hcolon : decimalDigit ':' ∈ ds.map some := by
    rw [← hds]
    exact List.mem_map_of_mem hmem
  rw [show decimalDigit ':' = none from by decide] at hcolon
  simp at hcolon

/-! ## The label -/

/-- The fields that `n` seconds have. -/
def labelFields (n : ℕ) : List (List Char) :=
  if 3600 ≤ n then
    [Nat.toDigits 10 (n / 3600), twoDigits (n % 3600 / 60), twoDigits (n % 3600 % 60)]
  else [twoDigits (n % 3600 / 60), twoDigits (n % 3600 % 60)]

theorem readField_minutes (n : ℕ) :
    readField (twoDigits (n % 3600 / 60)) = some (n % 3600 / 60) := readField_twoDigits (by omega)

theorem readField_seconds (n : ℕ) :
    readField (twoDigits (n % 3600 % 60)) = some (n % 3600 % 60) := readField_twoDigits (by omega)

/-- The label is its fields with colons between them. -/
theorem formatTimeFor_intercalate {t : ℚ} (h0 : 0 ≤ t) (ht : t < 2 ^ 63) :
    ∃ text, formatTimeFor (.num t) = .ok text ∧
      text.toList = [':'].intercalate (labelFields ⌊t⌋₊) := by
  have hlt : ⌊t⌋₊ < 2 ^ 63 := (Nat.floor_lt h0).mpr (by exact_mod_cast ht)
  have htrunc : truncate t = (⌊t⌋₊ : ℤ) := by
    rw [truncate_of_nonneg h0, Int.natCast_floor_eq_floor h0]
  generalize ⌊t⌋₊ = n at hlt htrunc ⊢
  have hsecs : (Seconds.num t).toInt = .ok (n : ℤ) := Seconds.toInt_num htrunc (by omega)
  have hhms : getHoursMinutesSecondsFrom (.num t) = .ok
      (((n / 3600 : ℕ) : ℤ), ((n % 3600 / 60 : ℕ) : ℤ), ((n % 3600 % 60 : ℕ) : ℤ)) := by
    simp only [getHoursMinutesSecondsFrom, hsecs]
    rfl
  have hm := toList_padField (n := n % 3600 / 60) (by omega)
  have hs := toList_padField (n := n % 3600 % 60) (by omega)
  have hcolon : (":" : String).toList = [':'] := rfl
  simp only [formatTimeFor, hhms]
  by_cases hh : 3600 ≤ n
  · rw [if_pos (by omega), labelFields, if_pos hh]
    refine ⟨_, rfl, ?_⟩
    simp only [String.toList_append, toList_toString, hm, hs, hcolon, List.intercalate_cons_cons,
      List.intercalate_singleton, List.append_assoc]
  · rw [if_neg (by omega), labelFields, if_neg hh]
    refine ⟨_, rfl, ?_⟩
    simp only [String.toList_append, hm, hs, hcolon, List.intercalate_cons_cons,
      List.intercalate_singleton, List.append_assoc]

theorem colon_not_mem_labelFields (n : ℕ) : ∀ field ∈ labelFields n, ':' ∉ field := by
  have hh := colon_not_mem (readField_toDigits (n / 3600))
  have hm := colon_not_mem (readField_minutes n)
  have hs := colon_not_mem (readField_seconds n)
  intro field hmem
  unfold labelFields at hmem
  split at hmem
  · simp only [List.mem_cons, List.not_mem_nil, or_false] at hmem
    obtain rfl | rfl | rfl := hmem
    · exact hh
    · exact hm
    · exact hs
  · simp only [List.mem_cons, List.not_mem_nil, or_false] at hmem
    obtain rfl | rfl := hmem
    · exact hm
    · exact hs

/-- So splitting at the colons finds the fields again. -/
theorem fields_formatTimeFor {t : ℚ} (h0 : 0 ≤ t) (ht : t < 2 ^ 63) :
    ∃ text, formatTimeFor (.num t) = .ok text ∧ fields text = labelFields ⌊t⌋₊ := by
  obtain ⟨text, htext, hlist⟩ := formatTimeFor_intercalate h0 ht
  have hne : labelFields ⌊t⌋₊ ≠ [] := by
    unfold labelFields
    split <;> exact List.cons_ne_nil _ _
  refine ⟨text, htext, ?_⟩
  rw [fields, hlist, List.splitOn_intercalate ':' (colon_not_mem_labelFields _) hne]

theorem labelFields_shape {t : ℚ} (h0 : 0 ≤ t) : LabelFields t (labelFields ⌊t⌋₊) := by
  have hhours : 3600 ≤ ⌊t⌋₊ ↔ 3600 ≤ t := by
    rw [Nat.le_floor_iff h0]
    norm_num
  have hm : Sexagesimal (twoDigits (⌊t⌋₊ % 3600 / 60)) := sexagesimal_twoDigits (by omega)
  have hs : Sexagesimal (twoDigits (⌊t⌋₊ % 3600 % 60)) := sexagesimal_twoDigits (by omega)
  unfold labelFields
  split
  · rename_i hh
    refine ⟨hhours.mp hh, ?_, head?_toDigits (by omega) (by omega), hm, hs⟩
    rw [readField_toDigits]
    rfl
  · rename_i hh
    exact ⟨lt_of_not_ge fun h => hh (hhours.mpr h), hm, hs⟩

/-- The digits of `n` in the mixed base give `n` back. -/
theorem readLabel_eq {text : String} {n : ℕ} (h : fields text = labelFields n) :
    readLabel text = some n := by
  unfold readLabel
  rw [h, labelFields]
  by_cases hh : 3600 ≤ n
  · simp only [if_pos hh, List.map_cons, List.map_nil, readField_toDigits, readField_minutes,
      readField_seconds, Option.some.injEq]
    omega
  · simp only [if_neg hh, List.map_cons, List.map_nil, readField_minutes, readField_seconds,
      Option.some.injEq]
    omega

/-- **The label decodes back to the time.** It has two or three fields, it reads as the whole
second that `t` lies in, and the times of that second are those with the same label. -/
theorem formatTimeFor_reads {t : ℚ} (h0 : 0 ≤ t) (ht : t < 2 ^ 63) :
    ∃ text, formatTimeFor (.num t) = .ok text ∧ LabelFields t (fields text) ∧
      readLabel text = some ⌊t⌋₊ ∧
      ∀ t' : ℚ, 0 ≤ t' → t' < 2 ^ 63 →
        (formatTimeFor (.num t') = formatTimeFor (.num t) ↔ ⌊t'⌋ = ⌊t⌋) := by
  obtain ⟨text, htext, hfields⟩ := fields_formatTimeFor h0 ht
  have hread : readLabel text = some ⌊t⌋₊ := readLabel_eq hfields
  refine ⟨text, htext, ?_, hread, ?_⟩
  · rw [hfields]
    exact labelFields_shape h0
  · intro t' h0' ht'
    rw [← Int.natCast_floor_eq_floor h0, ← Int.natCast_floor_eq_floor h0', Int.natCast_inj]
    constructor
    · intro heq
      obtain ⟨text', htext', hfields'⟩ := fields_formatTimeFor h0' ht'
      obtain rfl : text' = text := Except.ok.inj (htext'.symm.trans (heq.trans htext))
      exact Option.some.inj ((readLabel_eq hfields').symm.trans hread)
    · intro hfloor
      obtain ⟨text₁, htext₁, hlist₁⟩ := formatTimeFor_intercalate h0' ht'
      obtain ⟨text₂, htext₂, hlist₂⟩ := formatTimeFor_intercalate h0 ht
      rw [htext₁, htext₂]
      refine congrArg Except.ok (String.toList_injective ?_)
      rw [hlist₁, hlist₂, hfloor]

/-- Two hours, three minutes and four and a half seconds. -/
theorem formatTimeFor_reads_hours : ∃ text, formatTimeFor (.num (14769 / 2)) = .ok text ∧
    LabelFields (14769 / 2) (fields text) ∧ readLabel text = some 7384 := by
  have hfloor : ⌊(14769 / 2 : ℚ)⌋₊ = 7384 := by norm_num [Nat.floor_eq_iff]
  obtain ⟨text, htext, hfields, hread, _⟩ :=
    formatTimeFor_reads (t := 14769 / 2) (by norm_num) (by norm_num)
  rw [hfloor] at hread
  exact ⟨text, htext, hfields, hread⟩

end PsVideo
