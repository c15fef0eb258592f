import PsVideo.Rounding
import PsVideo.Time

/-!
# PsVideo.TimeLabel

Two formatters for one time. `formatTimeFor` truncates to whole seconds first and then divides
integers; `CMTime.getTimeString` divides first and truncates each of the three quotients. Truncation
commutes with division and remainder, so the fields are the same; and the two paddings differ only
in how they are spelled.
-/

namespace PsVideo

theorem Seconds.trunc_eq_truncate (q : ℚ) : trunc q = truncate q := by
  conv_rhs => rw [← Rat.num_div_den q, truncate_div_natCast, truncate_intCast]
  rfl

/-! ## `CMTime.getTimeString` -/

namespace Seconds

/-- `x.truncatingRemainder(dividingBy: d)`, which is exact. -/
def truncatingRemainder : Seconds → ℚ → Seconds
  | num q, d => num (q - trunc (q / d) * d)
  | _, _ => nan

end Seconds

/-- `%i` reads the low 32 bits of its argument. -/
def formatI (n : Int) : String := toString (n.bmod (2 ^ 32))

/-- `%02i`: padded with a zero to two characters, a sign counted. -/
def format02I (n : Int) : String :=
  if (formatI n).length < 2 then "0" ++ formatI n else formatI n

def CMTime.getTimeString [Arithmetic] (t : CMTime) : Except Trap String :=
  match (t.seconds.div 3600).toInt with
  | .error e => .error e
  | .ok hours =>
    match (t.seconds.div 60).toInt with
    | .error e => .error e
    | .ok m =>
      let minutes := m.tmod 60
      match (t.seconds.truncatingRemainder 60).toInt with
      | .error e => .error e
      | .ok seconds =>
        if hours > 0 then
          .ok (formatI hours ++ ":" ++ (format02I minutes ++ ":" ++ format02I seconds))
        else .ok (format02I minutes ++ ":" ++ format02I seconds)

/-! ## The fields -/

theorem formatI_eq {n : Int} (h : n.natAbs < 2 ^ 31) : formatI n = toString n := by
  rw [formatI, Int.bmod_eq_of_le (by omega) (by omega)]

theorem length_toString_pos (n : Int) : 0 < (toString n).length := by
  rw [Int.toString_eq_repr, Int.repr_eq_if]
  split
  · exact Nat.length_repr_pos
  · rw [String.length_append]
    exact Nat.add_pos_right _ Nat.length_repr_pos

theorem natAbs_tmod_sixty (n : Int) : (n.tmod 60).natAbs < 60 := by
  have h1 := Int.tmod_lt_of_pos n (b := 60) (by omega)
  have h2 := Int.lt_tmod_of_pos n (b := 60) (by omega)
  omega

/-- A minutes or a seconds field: both put a `0` before a single character. -/
theorem format02I_tmod (n : Int) : format02I (n.tmod 60) = padField (n.tmod 60) := by
  have hn := natAbs_tmod_sixty n
  have hlen := length_toString_pos (n.tmod 60)
  unfold format02I padField
  rw [formatI_eq (by omega)]
  by_cases h1 : (toString (n.tmod 60)).length = 1
  · rw [if_pos h1, if_pos (by omega)]
  · rw [if_neg h1, if_neg (by omega)]

theorem Seconds.toInt_num {q : ℚ} {n : Int} (hq : truncate q = n) (hn : n.natAbs < 2 ^ 63) :
    (num q).toInt = .ok n := by
  rw [toInt, trunc_eq_truncate, hq, if_pos ⟨by omega, by omega⟩]

section Exact

attribute [local instance] Arithmetic.exact

/-- **The two formatters agree**, in exact arithmetic, on every time of fewer than `2 ^ 31` hours. -/
theorem getTimeString_agrees {t : CMTime} {T : ℚ} (ht : t.seconds = .num T)
    (hT : |T| < 3600 * 2 ^ 31) :
    ∃ text, formatTimeFor (.num T) = .ok text ∧ t.getTimeString = .ok text := by
  obtain ⟨hT1, hT2⟩ := abs_lt.mp hT
  let n := truncate T
  have hn : n.natAbs < 3600 * 2 ^ 31 := by
    have h1 : n < 3600 * 2 ^ 31 := (truncate_lt (by norm_num)).mpr (by exact_mod_cast hT2)
    have h2 : 1 - 3600 * 2 ^ 31 ≤ n := by
      refine (le_truncate (by norm_num)).mpr ?_
      push_cast
      linarith
    omega
  have hh : (n.tdiv 3600).natAbs < 2 ^ 31 := by
    have h : (n.tdiv 3600).natAbs = n.natAbs / 3600 := Int.natAbs_tdiv n 3600
    omega
  have hm : (n.tdiv 60).natAbs ≤ n.natAbs := Int.natAbs_tdiv_le_natAbs n 60
  have hs : (n.tmod 60).natAbs < 60 := natAbs_tmod_sixty n
  -- the four truncations, in terms of the first
  have hsecs : (Seconds.num T).toInt = .ok n := Seconds.toInt_num rfl (by omega)
  have hhours : ((Seconds.num T).div 3600).toInt = .ok (n.tdiv 3600) :=
    Seconds.toInt_num (truncate_div_natCast T 3600) (by omega)
  have hmins : ((Seconds.num T).div 60).toInt = .ok (n.tdiv 60) :=
    Seconds.toInt_num (truncate_div_natCast T 60) (by omega)
  have hrem : (Seconds.num (T - Seconds.trunc (T / 60) * 60)).toInt = .ok (n.tmod 60) := by
    rw [Seconds.trunc_eq_truncate]
    exact Seconds.toInt_num (truncate_remainder T (by norm_num : 60 ≠ 0)) (by omega)
  have hfmt : formatTimeFor (.num T) = if n.tdiv 3600 ≥ 1 then
      .ok (toString (n.tdiv 3600) ++ ":" ++
        (padField ((n.tdiv 60).tmod 60) ++ ":" ++ padField (n.tmod 60)))
      else .ok (padField ((n.tdiv 60).tmod 60) ++ ":" ++ padField (n.tmod 60)) := by
    have hm : (n.tmod 3600).tdiv 60 = (n.tdiv 60).tmod 60 := tmod_mul_tdiv n 60 60
    have hs : (n.tmod 3600).tmod 60 = n.tmod 60 := Int.tmod_tmod_of_dvd n ⟨60, rfl⟩
    simp only [formatTimeFor, getHoursMinutesSecondsFrom, hsecs, hm, hs]
  have hget : t.getTimeString = if n.tdiv 3600 > 0 then
      .ok (formatI (n.tdiv 3600) ++ ":" ++
        (format02I ((n.tdiv 60).tmod 60) ++ ":" ++ format02I (n.tmod 60)))
      else .ok (format02I ((n.tdiv 60).tmod 60) ++ ":" ++ format02I (n.tmod 60)) := by
    simp only [CMTime.getTimeString, ht, Seconds.truncatingRemainder, hhours, hmins, hrem]
  rw [hfmt, hget, formatI_eq hh, format02I_tmod, format02I_tmod]
  by_cases h : n.tdiv 3600 > 0
  · exact ⟨_, if_pos h, if_pos h⟩
  · exact ⟨_, if_neg h, if_neg h⟩

/-- Two hours, three minutes and four and a half seconds before the origin. -/
theorem getTimeString_agrees_negative : ∃ text, formatTimeFor (.num (-14769 / 2)) = .ok text ∧
    (CMTime.numeric (-14769) 2).getTimeString = .ok text :=
  getTimeString_agrees (by norm_num [CMTime.seconds_exact]) (by norm_num [abs_lt])

end Exact

end PsVideo
