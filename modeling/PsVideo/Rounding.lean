import Mathlib.Algebra.Order.Floor.Ring
import Mathlib.Algebra.Order.Group.MinMax
import Mathlib.Data.Int.Lemmas
import Mathlib.Tactic.FieldSimp
import Mathlib.Tactic.Linarith
import Mathlib.Tactic.Ring

/-!
# PsVideo.Rounding

Two roundings over an ordered field with a floor, independent of any program.

* `truncate x`: toward zero, to an integer. It commutes with the division by a natural number, where
  on integers it is `Int.tdiv`, and with the remainder, where it is `Int.tmod`.
* `gridFloor n x`: down, to a multiple of `1 / n`. It is a monotone projection, so it commutes with
  `min` and `max` and rounds a second time for nothing; and it commutes with shifts by integers. So
  repeated clamped shifts on the grid, `shiftUp` and `shiftDown`, add up before the one rounding.
-/

namespace PsVideo

variable {k : Type} [Field k] [LinearOrder k] [FloorRing k]

/-! ## Toward zero -/

def truncate (x : k) : ℤ := if 0 ≤ x then ⌊x⌋ else ⌈x⌉

theorem truncate_of_nonneg {x : k} (h : 0 ≤ x) : truncate x = ⌊x⌋ := if_pos h

variable [IsStrictOrderedRing k]

theorem truncate_of_nonpos {x : k} (h : x ≤ 0) : truncate x = ⌈x⌉ := by
  rcases h.lt_or_eq with h | rfl
  · exact if_neg (not_le.mpr h)
  · simp [truncate]

theorem truncate_intCast (z : ℤ) : truncate (z : k) = z := by
  unfold truncate
  split
  · exact Int.floor_intCast z
  · exact Int.ceil_intCast z

theorem truncate_neg (x : k) : truncate (-x) = -truncate x := by
  rcases le_total 0 x with h | h
  · rw [truncate_of_nonneg h, truncate_of_nonpos (neg_nonpos.mpr h), Int.ceil_neg]
  · rw [truncate_of_nonpos h, truncate_of_nonneg (neg_nonneg.mpr h), Int.floor_neg]

omit [FloorRing k] in
/-- What negation keeps holds of all numbers if it holds of the non-negative ones. -/
theorem rule_of_neg {P : k → Prop} (hneg : ∀ x, P x → P (-x)) (hpos : ∀ x, 0 ≤ x → P x) (x : k) :
    P x := by
  rcases le_total 0 x with h | h
  · exact hpos x h
  · simpa using hneg (-x) (hpos (-x) (neg_nonneg.mpr h))

theorem truncate_div_natCast (x : k) (n : ℕ) : truncate (x / n) = (truncate x).tdiv n := by
  refine rule_of_neg (P := fun x : k => truncate (x / n) = (truncate x).tdiv n) ?_ ?_ x
  · intro x h
    rw [neg_div, truncate_neg, truncate_neg, h, Int.neg_tdiv]
  · intro x h
    have hf : 0 ≤ ⌊x⌋ := Int.floor_nonneg.mpr h
    rw [truncate_of_nonneg (div_nonneg h (Nat.cast_nonneg n)), truncate_of_nonneg h,
      Int.floor_div_natCast, Int.tdiv_eq_ediv_of_nonneg hf]

/-- What is left of `x` when the whole multiples of `n` are taken off, toward zero. -/
theorem truncate_remainder (x : k) {n : ℕ} (hn : n ≠ 0) :
    truncate (x - truncate (x / n) * n) = (truncate x).tmod n := by
  rw [truncate_div_natCast]
  refine rule_of_neg
    (P := fun x : k => truncate (x - (truncate x).tdiv n * n) = (truncate x).tmod n) ?_ ?_ x
  · intro x h
    have hx : -x - ((-truncate x).tdiv n : ℤ) * (n : k) = -(x - ((truncate x).tdiv n : ℤ) * n) := by
      rw [Int.neg_tdiv]
      push_cast
      ring
    rw [truncate_neg x, hx, truncate_neg, h, Int.neg_tmod]
  · intro x h
    have hf : 0 ≤ ⌊x⌋ := Int.floor_nonneg.mpr h
    rw [truncate_of_nonneg h, Int.tdiv_eq_ediv_of_nonneg hf, Int.tmod_eq_emod_of_nonneg hf]
    have hle : ((⌊x⌋ / n * n : ℤ) : k) ≤ x :=
      le_trans (Int.cast_le.mpr (Int.ediv_mul_le _ (by exact_mod_cast hn))) (Int.floor_le x)
    have hcast : ((⌊x⌋ / n : ℤ) : k) * (n : k) = ((⌊x⌋ / n * n : ℤ) : k) := by push_cast; rfl
    rw [hcast, truncate_of_nonneg (sub_nonneg.mpr hle), Int.floor_sub_intCast, Int.emod_def,
      mul_comm]

/-- The digits of a number in the mixed base `a`, `b`, whichever is split off first. -/
theorem tmod_mul_tdiv (n : ℤ) (a b : ℕ) : (n.tmod (a * b)).tdiv b = (n.tdiv b).tmod a := by
  have hpos (m : ℕ) : ((m : ℤ).tmod (a * b)).tdiv b = ((m : ℤ).tdiv b).tmod a :=
    congrArg Nat.cast (Nat.mod_mul_left_div_self m b a)
  obtain ⟨m, rfl | rfl⟩ := n.eq_nat_or_neg
  · exact hpos m
  · rw [Int.neg_tmod, Int.neg_tdiv, Int.neg_tdiv, Int.neg_tmod, hpos]

/-- `truncate` stays below `m` exactly as far as the number does. -/
theorem truncate_lt {x : k} {m : ℤ} (hm : 0 < m) : truncate x < m ↔ x < m := by
  rcases le_total 0 x with h | h
  · rw [truncate_of_nonneg h, Int.floor_lt]
  · have hx : x < m := lt_of_le_of_lt h (Int.cast_pos.mpr hm)
    rw [truncate_of_nonpos h]
    exact ⟨fun _ => hx, fun _ => lt_of_le_of_lt (Int.ceil_le.mpr (by simpa using h)) hm⟩

theorem le_truncate {x : k} {m : ℤ} (hm : m ≤ 0) : m ≤ truncate x ↔ (m : k) - 1 < x := by
  have hneg := truncate_lt (x := -x) (m := 1 - m) (by omega)
  rw [truncate_neg] at hneg
  push_cast at hneg
  constructor
  · intro h
    have := hneg.mp (by omega)
    linarith
  · intro h
    have := hneg.mpr (by linarith)
    omega

/-! ## Down, on a grid -/

def gridFloor (n : ℕ) (x : k) : k := ⌊x * n⌋ / n

section Grid

variable {n : ℕ}

theorem gridFloor_le (hn : n ≠ 0) (x : k) : gridFloor n x ≤ x :=
  (div_le_iff₀ (by exact_mod_cast Nat.pos_of_ne_zero hn)).mpr (Int.floor_le _)

theorem lt_gridFloor_add (hn : n ≠ 0) (x : k) : x < gridFloor n x + 1 / n := by
  have hpos : (0 : k) < n := by exact_mod_cast Nat.pos_of_ne_zero hn
  rw [gridFloor, ← add_div, lt_div_iff₀ hpos]
  exact Int.lt_floor_add_one _

theorem gridFloor_mono (n : ℕ) : Monotone (gridFloor n : k → k) := by
  intro x y h
  have hn : (0 : k) ≤ n := Nat.cast_nonneg n
  exact div_le_div_of_nonneg_right
    (Int.cast_le.mpr (Int.floor_le_floor (mul_le_mul_of_nonneg_right h hn))) hn

theorem gridFloor_min (n : ℕ) (x y : k) :
    gridFloor n (min x y) = min (gridFloor n x) (gridFloor n y) := (gridFloor_mono n).map_min

theorem gridFloor_max (n : ℕ) (x y : k) :
    gridFloor n (max x y) = max (gridFloor n x) (gridFloor n y) := (gridFloor_mono n).map_max

theorem gridFloor_add_intCast (hn : n ≠ 0) (x : k) (z : ℤ) :
    gridFloor n (x + z) = gridFloor n x + z := by
  have hpos : (n : k) ≠ 0 := by exact_mod_cast hn
  have hz : (x + z) * (n : k) = x * n + ((z * n : ℤ) : k) := by push_cast; ring
  rw [gridFloor, hz, Int.floor_add_intCast, gridFloor]
  push_cast
  field_simp

theorem gridFloor_idem (hn : n ≠ 0) (x : k) : gridFloor n (gridFloor n x) = gridFloor n x := by
  have hpos : (n : k) ≠ 0 := by exact_mod_cast hn
  have h : gridFloor n x * n = (⌊x * n⌋ : ℤ) := div_mul_cancel₀ _ hpos
  rw [gridFloor, h, Int.floor_intCast]
  rfl

theorem gridFloor_zero (n : ℕ) : gridFloor n (0 : k) = 0 := by simp [gridFloor]

theorem gridFloor_nonneg {x : k} (h : 0 ≤ x) : 0 ≤ gridFloor n x := by
  rw [← gridFloor_zero n]
  exact gridFloor_mono n h

/-! ## Clamped shifts on the grid -/

/-- Up by `a`, not past `d`. -/
def shiftUp (n a : ℕ) (d x : k) : k := gridFloor n (min (x + a) d)

/-- Down by `a`, not past 0. -/
def shiftDown (n a : ℕ) (x : k) : k := gridFloor n (max (x - a) 0)

variable {a : ℕ} {d x : k}

/-- A shift of a rounded number rounds to the shift of the number. -/
theorem gridFloor_shift (hn : n ≠ 0) (z : ℤ) :
    gridFloor n (gridFloor n x + z) = gridFloor n (x + z) := by
  rw [gridFloor_add_intCast hn, gridFloor_idem hn, gridFloor_add_intCast hn]

theorem shiftUp_gridFloor (hn : n ≠ 0) :
    shiftUp n a d (gridFloor n x) = shiftUp n a d x := by
  have h := gridFloor_shift (x := x) hn a
  rw [Int.cast_natCast] at h
  rw [shiftUp, shiftUp, gridFloor_min, gridFloor_min, h]

theorem shiftDown_gridFloor (hn : n ≠ 0) :
    shiftDown n a (gridFloor n x) = shiftDown n a x := by
  have h := gridFloor_shift (x := x) hn (-a)
  rw [Int.cast_neg, Int.cast_natCast, ← sub_eq_add_neg, ← sub_eq_add_neg] at h
  rw [shiftDown, shiftDown, gridFloor_max, gridFloor_max, h]

/-- Shifts add up before the one rounding. -/
theorem shiftUp_iterate (hn : n ≠ 0) (m : ℕ) :
    (shiftUp n a d)^[m + 1] x = gridFloor n (min (x + a * (m + 1 : ℕ)) d) := by
  induction m with
  | zero => simp [shiftUp]
  | succ m ih =>
    have ha : (0 : k) ≤ a := Nat.cast_nonneg a
    have hclamp : min (min (x + a * (m + 1 : ℕ)) d + a) d = min (x + a * (m + 1 + 1 : ℕ)) d := by
      rw [← min_add_add_right, min_assoc, min_eq_right (le_add_of_nonneg_right ha)]
      push_cast
      ring_nf
    rw [Function.iterate_succ_apply', ih, shiftUp_gridFloor hn, shiftUp, hclamp]

theorem shiftDown_iterate (hn : n ≠ 0) (m : ℕ) :
    (shiftDown n a)^[m + 1] x = gridFloor n (max (x - a * (m + 1 : ℕ)) 0) := by
  induction m with
  | zero => simp [shiftDown]
  | succ m ih =>
    have ha : (0 : k) ≤ a := Nat.cast_nonneg a
    have hclamp : max (max (x - a * (m + 1 : ℕ)) 0 - a) 0 = max (x - a * (m + 1 + 1 : ℕ)) 0 := by
      rw [← max_sub_sub_right, max_assoc, max_eq_right (by linarith : (0 : k) - a ≤ 0)]
      push_cast
      ring_nf
    rw [Function.iterate_succ_apply', ih, shiftDown_gridFloor hn, shiftDown, hclamp]

theorem shiftUp_nonneg (hx : 0 ≤ x) (hd : 0 ≤ d) : 0 ≤ shiftUp n a d x :=
  gridFloor_nonneg (le_min (add_nonneg hx (Nat.cast_nonneg a)) hd)

theorem shiftUp_le (hn : n ≠ 0) : shiftUp n a d x ≤ d :=
  (gridFloor_le hn _).trans (min_le_right _ _)

/-- A shift up loses less than one step of the grid. -/
theorem sub_lt_shiftUp (hn : n ≠ 0) (hx : x ≤ d) : x - 1 / n < shiftUp n a d x := by
  have h1 : x ≤ min (x + a) d := le_min (le_add_of_nonneg_right (Nat.cast_nonneg a)) hx
  have h2 := lt_gridFloor_add hn (min (x + a) d)
  rw [sub_lt_iff_lt_add]
  exact lt_of_le_of_lt h1 h2

theorem shiftDown_nonneg : 0 ≤ shiftDown n a x := gridFloor_nonneg (le_max_right _ _)

theorem shiftDown_le (hn : n ≠ 0) (hx : 0 ≤ x) : shiftDown n a x ≤ x :=
  (gridFloor_le hn _).trans (max_le (sub_le_self _ (Nat.cast_nonneg a)) hx)

end Grid

end PsVideo
