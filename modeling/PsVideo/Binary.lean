import Mathlib.Algebra.Order.Floor.Ring
import Mathlib.Algebra.Ring.Int.Parity
import Mathlib.Data.Int.Log
import Mathlib.Tactic.Linarith
import Mathlib.Tactic.Ring

/-!
# PsVideo.Binary

Binary floating-point formats, over an ordered field with a floor and independent of any program.
A number is rounded to the nearest multiple of its quantum, a power of two, and a tie to the even
multiple. `Format.nearest_lt_iff` says where the rounding passes from one number of the format to
the next.
-/

namespace PsVideo

variable {k : Type} [Field k] [LinearOrder k] [FloorRing k]

/-! ## To an integer -/

/-- To the nearest integer, and halfway between two to the even one. -/
def roundEven (x : k) : ℤ :=
  if x - ⌊x⌋ < 1 / 2 ∨ x - ⌊x⌋ = 1 / 2 ∧ Even ⌊x⌋ then ⌊x⌋ else ⌊x⌋ + 1

variable [IsStrictOrderedRing k]

theorem roundEven_le_iff {x : k} {n : ℤ} :
    roundEven x ≤ n ↔ x < n + 1 / 2 ∨ x = n + 1 / 2 ∧ Even n := by
  have hfl := Int.floor_le x
  have hlt := Int.lt_floor_add_one x
  rcases lt_trichotomy ⌊x⌋ n with h | h | h
  · -- the floor is below `n`, so the next integer is not above it
    have hn : (⌊x⌋ : k) + 1 ≤ n := by exact_mod_cast h
    refine iff_of_true ?_ (.inl (by linarith))
    unfold roundEven
    split <;> omega
  · subst h
    have h1 : (x < ⌊x⌋ + 1 / 2) = (x - ⌊x⌋ < 1 / 2) := by rw [sub_lt_iff_lt_add']
    have h2 : (x = ⌊x⌋ + 1 / 2) = (x - ⌊x⌋ = 1 / 2) := by rw [sub_eq_iff_eq_add']
    rw [h1, h2]
    unfold roundEven
    split
    · rename_i hx; exact iff_of_true le_rfl hx
    · rename_i hx; exact iff_of_false (by omega) hx
  · have hn : (n : k) + 1 ≤ ⌊x⌋ := by exact_mod_cast h
    refine iff_of_false ?_ ?_
    · unfold roundEven
      split <;> omega
    · rintro (hx | ⟨hx, _⟩) <;> linarith

theorem roundEven_le {x : k} {n : ℤ} (h : x ≤ n) : roundEven x ≤ n :=
  roundEven_le_iff.mpr (.inl (by linarith))

theorem le_roundEven {x : k} {n : ℤ} (h : n ≤ x) : n ≤ roundEven x := by
  by_contra hlt
  have hle : roundEven x ≤ n - 1 := by omega
  have hx := roundEven_le_iff.mp hle
  push_cast at hx
  rcases hx with hx | ⟨hx, _⟩ <;> linarith

theorem roundEven_neg (x : k) : roundEven (-x) = -roundEven x := by
  -- a number is at most `n` exactly if its negation is not below `-n`
  refine le_antisymm (roundEven_le_iff.mpr ?_) ?_
  · have h : ¬ roundEven x ≤ roundEven x - 1 := by omega
    have hx := mt roundEven_le_iff.mpr h
    push_cast at hx ⊢
    rw [not_or, not_lt] at hx
    rcases hx.1.lt_or_eq with hlt | heq
    · exact .inl (by linarith)
    · have hodd : ¬ Even (roundEven x - 1) := fun he => hx.2 ⟨heq.symm, he⟩
      refine .inr ⟨by linarith, ?_⟩
      rw [even_neg]
      by_contra hne
      exact hodd (by rw [Int.even_sub_one]; exact hne)
  · have h : ¬ roundEven (-x) ≤ -roundEven x - 1 := by
      intro hle
      have hx := roundEven_le_iff.mp hle
      have h0 := roundEven_le_iff.mp (le_refl (roundEven x))
      push_cast at hx
      rcases hx with hx | ⟨hx, he⟩ <;> rcases h0 with h0 | ⟨h0, he0⟩
      · linarith
      · linarith
      · linarith
      · rw [← neg_add', even_neg, Int.even_add_one] at he
        exact he he0
    omega

/-! ## Formats -/

/-- The numbers `m * 2 ^ e` with `|m| < 2 ^ precision` and `least ≤ e`; from `2 ^ overflow` on they
are infinite. -/
structure Format where
  precision : ℕ
  least : ℤ
  overflow : ℤ
  precision_pos : 0 < precision

def Format.double : Format := ⟨53, -1074, 1024, by decide⟩

def Format.single : Format := ⟨24, -149, 128, by decide⟩

namespace Format

variable (F : Format)

omit [IsStrictOrderedRing k] in
/-- The exponent of the quantum of `x`: that of its leading bit, less the other bits. -/
def exponent (x : k) : ℤ := max (Int.log 2 |x| - (F.precision - 1)) F.least

def nearest (x : k) : k := roundEven (x / 2 ^ F.exponent x) * 2 ^ F.exponent x

theorem nearest_neg (x : k) : F.nearest (-x) = -F.nearest x := by
  have he : F.exponent (-x) = F.exponent x := by rw [exponent, exponent, abs_neg]
  rw [nearest, nearest, he, neg_div, roundEven_neg]
  push_cast
  ring

variable {F} {x : k} {e u n : ℤ}

theorem two_zpow_pos (e : ℤ) : (0 : k) < 2 ^ e := zpow_pos two_pos e

/-- A power of two is a whole multiple of a smaller one. -/
theorem two_zpow_div (h : u ≤ e) : ∃ m : ℤ, (2 : k) ^ e / 2 ^ u = m := by
  refine ⟨2 ^ (e - u).toNat, ?_⟩
  rw [← zpow_sub₀ two_ne_zero, ← Int.toNat_of_nonneg (sub_nonneg.mpr h), zpow_natCast]
  push_cast
  rfl

/-- The quantum of a number below a power of two is at most that power. -/
theorem exponent_le (h0 : 0 < x) (he : F.least ≤ e) (hx : x ≤ 2 ^ e) : F.exponent x ≤ e := by
  have hlog : Int.log 2 |x| ≤ e := by
    rw [abs_of_pos h0]
    by_contra hlt
    have h1 : (2 : k) ^ (e + 1) ≤ 2 ^ Int.log 2 x := zpow_le_zpow_right₀ one_le_two (by omega)
    have h2 : ((2 : ℕ) : k) ^ Int.log 2 x ≤ x := Int.zpow_log_le_self one_lt_two h0
    have h3 : (2 : k) ^ e < 2 ^ (e + 1) := zpow_lt_zpow_right₀ one_lt_two (by omega)
    push_cast at h2
    linarith
  have hp := F.precision_pos
  exact max_le (by omega) he

theorem nearest_le_two_zpow (he : F.least ≤ e) (hx : x ≤ 2 ^ e) : F.nearest x ≤ 2 ^ e := by
  rcases le_or_gt x 0 with h0 | h0
  · refine le_trans ?_ (two_zpow_pos e).le
    have hq : x / 2 ^ F.exponent x ≤ (0 : ℤ) := by
      simpa using div_nonpos_of_nonpos_of_nonneg h0 (two_zpow_pos _).le
    have hr : ((roundEven (x / 2 ^ F.exponent x) : ℤ) : k) ≤ 0 := by
      exact_mod_cast roundEven_le hq
    exact mul_nonpos_of_nonpos_of_nonneg hr (two_zpow_pos _).le
  · obtain ⟨m, hm⟩ := two_zpow_div (k := k) (exponent_le h0 he hx)
    have hr : roundEven (x / 2 ^ F.exponent x) ≤ m :=
      roundEven_le (by rw [← hm]; exact div_le_div_of_nonneg_right hx (two_zpow_pos _).le)
    rw [div_eq_iff (two_zpow_pos _).ne'] at hm
    rw [hm]
    exact mul_le_mul_of_nonneg_right (by exact_mod_cast hr) (two_zpow_pos _).le

theorem two_zpow_le_nearest (he : F.least ≤ e) (hx : 2 ^ e ≤ x) : 2 ^ e ≤ F.nearest x := by
  have h0 : 0 < x := (two_zpow_pos e).trans_le hx
  have hlog : e ≤ Int.log 2 |x| := by
    rw [abs_of_pos h0]
    exact (Int.zpow_le_iff_le_log one_lt_two h0).mp (by exact_mod_cast hx)
  have hp := F.precision_pos
  have hexp : F.exponent x ≤ Int.log 2 |x| := max_le (by omega) (he.trans hlog)
  obtain ⟨m, hm⟩ := two_zpow_div (k := k) hexp
  have hself : (2 : k) ^ Int.log 2 |x| ≤ x := by
    rw [abs_of_pos h0]
    exact_mod_cast Int.zpow_log_le_self one_lt_two h0
  have hr : m ≤ roundEven (x / 2 ^ F.exponent x) :=
    le_roundEven (by rw [← hm]; exact div_le_div_of_nonneg_right hself (two_zpow_pos _).le)
  rw [div_eq_iff (two_zpow_pos _).ne'] at hm
  refine (zpow_le_zpow_right₀ one_le_two hlog).trans ?_
  rw [hm]
  exact mul_le_mul_of_nonneg_right (by exact_mod_cast hr) (two_zpow_pos _).le

/-! ## From one number to the next -/

section Neighbours

variable (hu : F.least ≤ u) (h1 : 2 ^ (F.precision - 1) ≤ n) (h2 : n < 2 ^ F.precision)

/-- The numbers whose quantum is `2 ^ u`, but for the least of them all. -/
theorem exponent_eq (hu : F.least ≤ u) (hlo : 2 ^ (u + F.precision - 1) ≤ x)
    (hhi : x < 2 ^ (u + F.precision)) : F.exponent x = u := by
  have h0 : 0 < x := (two_zpow_pos _).trans_le hlo
  have hge : u + F.precision - 1 ≤ Int.log 2 x :=
    (Int.zpow_le_iff_le_log one_lt_two h0).mp (by exact_mod_cast hlo)
  have hlt : Int.log 2 x < u + F.precision :=
    (Int.lt_zpow_iff_log_lt one_lt_two h0).mp (by exact_mod_cast hhi)
  rw [exponent, abs_of_pos h0, max_eq_left (by omega)]
  omega

theorem natCast_mul_zpow (m : ℕ) (u : ℤ) : ((2 ^ m : ℤ) : k) * 2 ^ u = 2 ^ (u + m) := by
  push_cast
  rw [zpow_add₀ two_ne_zero, zpow_natCast, mul_comm]

/-- Where the binade of `n * 2 ^ u` begins. -/
theorem two_zpow_low (F : Format) (u : ℤ) :
    (2 : k) ^ (u + F.precision - 1) = ((2 ^ (F.precision - 1) : ℤ) : k) * 2 ^ u := by
  have hp := F.precision_pos
  rw [natCast_mul_zpow]
  congr 1
  omega

include hu h1 h2

/-- Below the binade of `n * 2 ^ u`, in it and above it. -/
theorem binade_cases (x : k) :
    (x < 2 ^ (u + F.precision - 1) ∧ F.nearest x ≤ n * 2 ^ u) ∨
    F.nearest x = roundEven (x / 2 ^ u) * 2 ^ u ∨
    (2 ^ (u + F.precision) ≤ x ∧ (n + 1) * 2 ^ u ≤ F.nearest x) := by
  have hp := F.precision_pos
  rcases lt_or_ge x (2 ^ (u + F.precision - 1)) with hlo | hlo
  · refine .inl ⟨hlo, (nearest_le_two_zpow (by omega) hlo.le).trans ?_⟩
    rw [two_zpow_low]
    exact mul_le_mul_of_nonneg_right (by exact_mod_cast h1) (two_zpow_pos u).le
  · rcases lt_or_ge x (2 ^ (u + F.precision)) with hhi | hhi
    · exact .inr (.inl (by rw [nearest, exponent_eq hu hlo hhi]))
    · refine .inr (.inr ⟨hhi, le_trans ?_ (two_zpow_le_nearest (by omega) hhi)⟩)
      have hn : n + 1 ≤ 2 ^ F.precision := h2
      rw [← natCast_mul_zpow]
      exact mul_le_mul_of_nonneg_right (by exact_mod_cast hn) (two_zpow_pos u).le

/-- **Where the rounding passes `n * 2 ^ u`**: halfway to the next number of the format. -/
theorem nearest_le_iff : F.nearest x ≤ n * 2 ^ u ↔
    x < (n + 1 / 2) * 2 ^ u ∨ x = (n + 1 / 2) * 2 ^ u ∧ Even n := by
  have hpos := two_zpow_pos (k := k) u
  have hlow : ((2 ^ (F.precision - 1) : ℤ) : k) ≤ n := by exact_mod_cast h1
  have hhigh : (n : k) + 1 ≤ (2 ^ F.precision : ℤ) := by exact_mod_cast h2
  have hp := F.precision_pos
  obtain ⟨hx, hle⟩ | heq | ⟨hx, hge⟩ := binade_cases hu h1 h2 x
  · refine iff_of_true hle (.inl (hx.trans_le ?_))
    rw [two_zpow_low]
    exact mul_le_mul_of_nonneg_right (by linarith) hpos.le
  · rw [heq, mul_le_mul_iff_left₀ hpos, Int.cast_le, roundEven_le_iff, div_lt_iff₀ hpos,
      div_eq_iff hpos.ne']
  · have hup : ((n : k) + 1 / 2) * 2 ^ u < x := by
      refine lt_of_lt_of_le ?_ hx
      rw [← natCast_mul_zpow]
      exact mul_lt_mul_of_pos_right (by linarith) hpos
    refine iff_of_false (not_le.mpr (lt_of_lt_of_le ?_ hge)) ?_
    · exact mul_lt_mul_of_pos_right (by linarith) hpos
    · rintro (h | ⟨h, _⟩)
      · exact absurd h hup.not_gt
      · exact absurd h hup.ne'

/-- Nothing is rounded into the gap after `n * 2 ^ u`. -/
theorem nearest_gap (h : n * 2 ^ u < F.nearest x) : (n + 1) * 2 ^ u ≤ F.nearest x := by
  have hpos := two_zpow_pos (k := k) u
  obtain ⟨_, hle⟩ | heq | ⟨_, hge⟩ := binade_cases hu h1 h2 x
  · exact absurd h hle.not_gt
  · rw [heq] at h ⊢
    have hlt : n < roundEven (x / 2 ^ u) := by
      exact_mod_cast lt_of_mul_lt_mul_right h hpos.le
    have hle : n + 1 ≤ roundEven (x / 2 ^ u) := hlt
    exact mul_le_mul_of_nonneg_right (by exact_mod_cast hle) hpos.le
  · exact hge

/-- A bound `b` in the gap is kept below exactly if the number `n * 2 ^ u` is not passed. -/
theorem nearest_lt_iff {b : k} (hb : n * 2 ^ u < b) (hb' : b ≤ (n + 1) * 2 ^ u) :
    F.nearest x < b ↔ x < (n + 1 / 2) * 2 ^ u ∨ x = (n + 1 / 2) * 2 ^ u ∧ Even n := by
  rw [← nearest_le_iff hu h1 h2]
  constructor
  · intro h
    by_contra hlt
    exact absurd (hb'.trans (nearest_gap hu h1 h2 (not_le.mp hlt))) h.not_ge
  · exact fun h => h.trans_lt hb

end Neighbours

end Format

end PsVideo
