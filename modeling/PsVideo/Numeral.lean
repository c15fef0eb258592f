import Mathlib.Data.List.Basic
import Mathlib.Data.Nat.Digits.Defs

/-!
# PsVideo.Numeral

Numerals in a base, written from the left, independent of any program.

* `numeral b ds`: the number that the digits `ds` write, the most significant first.
* `cappedNumeral b cap ds`: read from the left with every partial number cut at `cap`. A step never
  makes the number smaller, so this is `numeral` cut once.
* `readNumeral`: the number of a text, for an alphabet that says which characters are digits. What
  `Nat.toDigits` prints is read back.
* `leadingDigits`: the longest run of digits at the head of a text.
-/

namespace PsVideo

/-! ## Digits -/

def numeral (b : ℕ) (ds : List ℕ) : ℕ := Nat.ofDigits b ds.reverse

theorem numeral_eq_foldl (b : ℕ) (ds : List ℕ) :
    numeral b ds = ds.foldl (fun n d => b * n + d) 0 := by
  rw [numeral, Nat.ofDigits_eq_foldr, List.foldr_reverse]
  congr 1
  funext n d
  exact Nat.add_comm _ _

theorem numeral_singleton (b d : ℕ) : numeral b [d] = d := Nat.ofDigits_singleton

theorem numeral_append (b : ℕ) (ds es : List ℕ) :
    numeral b (ds ++ es) = b ^ es.length * numeral b ds + numeral b es := by
  rw [numeral, List.reverse_append, Nat.ofDigits_append, List.length_reverse, Nat.add_comm]
  rfl

/-! ## Saturation -/

/-- A fold whose steps do not go down, saturated after every step, is saturated once. -/
theorem foldl_min {α β : Type} [LinearOrder α] {f : α → β → α} (h : ∀ x y, x ≤ f x y) (cap : α)
    (l : List β) :
    ∀ x, l.foldl (fun x y => min (f x y) cap) (min x cap) = min (l.foldl f x) cap := by
  induction l with
  | nil => exact fun x => rfl
  | cons y l ih =>
    intro x
    have hstep : min (f (min x cap) y) cap = min (f x y) cap := by
      rcases le_total x cap with hx | hx
      · rw [min_eq_left hx]
      · -- once at the cap, always at the cap
        rw [min_eq_right hx, min_eq_right (h cap y), min_eq_right (hx.trans (h x y))]
    rw [List.foldl_cons, List.foldl_cons, hstep, ih]

def cappedNumeral (b cap : ℕ) (ds : List ℕ) : ℕ := ds.foldl (fun n d => min (b * n + d) cap) 0

theorem cappedNumeral_eq {b : ℕ} (hb : 0 < b) (cap : ℕ) (ds : List ℕ) :
    cappedNumeral b cap ds = min (numeral b ds) cap := by
  have hup : ∀ n d, n ≤ b * n + d := by
    intro n d
    have := Nat.le_mul_of_pos_left n hb
    omega
  rw [numeral_eq_foldl, ← foldl_min hup, Nat.zero_min]
  rfl

/-! ## Texts -/

section Text

variable {α : Type} {value? : α → Option ℕ}

/-- The digits of a text, if all its characters are digits. -/
def digitsOf (value? : α → Option ℕ) : List α → Option (List ℕ)
  | [] => some []
  | c :: cs =>
    match value? c, digitsOf value? cs with
    | some d, some ds => some (d :: ds)
    | _, _ => none

theorem digitsOf_eq_some {l : List α} :
    ∀ {ds : List ℕ}, digitsOf value? l = some ds ↔ l.map value? = ds.map some := by
  induction l with
  | nil => intro ds; cases ds <;> simp [digitsOf]
  | cons c cs ih =>
    intro ds
    cases ds with
    | nil => simp only [digitsOf]; split <;> simp
    | cons d ds =>
      simp only [digitsOf, List.map_cons, List.cons.injEq, ← ih]
      split
      · rename_i e es hc hcs; simp [hc, hcs]
      · rename_i hno
        constructor
        · intro h; cases h
        · rintro ⟨hc, hcs⟩; exact absurd hcs (hno d ds hc)

def leadingDigits (value? : α → Option ℕ) : List α → List ℕ
  | [] => []
  | c :: cs =>
    match value? c with
    | some d => d :: leadingDigits value? cs
    | none => []

/-- A text of digits is one run. -/
theorem leadingDigits_eq {l : List α} :
    ∀ {ds : List ℕ}, digitsOf value? l = some ds → leadingDigits value? l = ds := by
  induction l with
  | nil => intro ds h; cases h; rfl
  | cons c cs ih =>
    intro ds h
    simp only [digitsOf] at h
    split at h
    · rename_i d es hc hcs; cases h; simp [leadingDigits, hc, ih hcs]
    · cases h

/-- The number of a text of at least one digit. -/
def readNumeral (value? : α → Option ℕ) (b : ℕ) : List α → Option ℕ
  | [] => none
  | l => (digitsOf value? l).map (numeral b)

theorem readNumeral_eq_some {b n : ℕ} {l : List α} : readNumeral value? b l = some n ↔
    l ≠ [] ∧ ∃ ds, l.map value? = ds.map some ∧ numeral b ds = n := by
  cases l with
  | nil => simp [readNumeral]
  | cons c cs => simp only [readNumeral, ← digitsOf_eq_some, Option.map_eq_some_iff, ne_eq,
      reduceCtorEq, not_false_eq_true, true_and]

/-- A text of at least one digit has a number. -/
theorem exists_readNumeral (b : ℕ) {l : List α} (hne : l ≠ []) (h : ∀ c ∈ l, (value? c).isSome) :
    ∃ n, readNumeral value? b l = some n := by
  have hds : ∃ ds : List ℕ, l.map value? = ds.map some := by
    clear hne
    induction l with
    | nil => exact ⟨[], rfl⟩
    | cons c cs ih =>
      obtain ⟨d, hd⟩ := Option.isSome_iff_exists.mp (h c List.mem_cons_self)
      obtain ⟨ds, hds⟩ := ih fun c' hc' => h c' (List.mem_cons_of_mem c hc')
      exact ⟨d :: ds, by simp [hd, hds]⟩
  obtain ⟨ds, hds⟩ := hds
  exact ⟨numeral b ds, readNumeral_eq_some.mpr ⟨hne, ds, hds, rfl⟩⟩

end Text

/-- What is printed in base `b` is read back, by an alphabet that knows the printed digits. -/
theorem readNumeral_toDigits {value? : Char → Option ℕ} {b : ℕ} (hb : 1 < b)
    (hv : ∀ d < b, value? d.digitChar = some d) (n : ℕ) :
    readNumeral value? b (Nat.toDigits b n) = some n := by
  refine readNumeral_eq_some.mpr ⟨Nat.toDigits_ne_nil, ?_⟩
  induction n using Nat.base_induction b hb with
  | single d hd =>
    rw [Nat.toDigits_of_lt_base hd]
    exact ⟨[d], by simp [hv d hd], numeral_singleton b d⟩
  | digit n d hd hn ih =>
    obtain ⟨ds, hds, hnum⟩ := ih
    rw [← Nat.toDigits_append_toDigits hb hn hd, Nat.toDigits_of_lt_base hd]
    refine ⟨ds ++ [d], by simp [hds, hv d hd], ?_⟩
    rw [numeral_append, hnum, numeral_singleton, List.length_singleton, Nat.pow_one]

/-- A positive number is printed without a leading zero. -/
theorem head?_toDigits {b : ℕ} (hb : 1 < b) {n : ℕ} (hn : 0 < n) :
    (Nat.toDigits b n).head? ≠ some '0' := by
  induction n using Nat.base_induction b hb with
  | single d hd =>
    rw [Nat.toDigits_of_lt_base hd, List.head?_cons, ne_eq, Option.some.injEq,
      Nat.digitChar_eq_zero]
    omega
  | digit n d hd hpos ih =>
    rw [← Nat.toDigits_append_toDigits hb hpos hd,
      List.head?_append_of_ne_nil _ Nat.toDigits_ne_nil]
    exact ih hpos

end PsVideo
