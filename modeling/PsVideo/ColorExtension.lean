import Mathlib.Algebra.Order.Ring.Rat
import Mathlib.Algebra.Field.Rat
import PsVideo.Numeral

/-!
# PsVideo.ColorExtension

`UIColor(hexColor:)`, which `PsVideoView` calls when its `color` is set. A `Scanner` reads the
longest run of hexadecimal digits into 32 bits, saturating, and three shifts and masks take the
bytes out. So a text of digits gives the lower three bytes of its number, cut at `2 ^ 32 - 1`, and
the six digits of three bytes give the bytes back.
-/

namespace PsVideo

/-! ## `Scanner` -/

def hexDigit (c : Char) : Option ℕ :=
  if '0' ≤ c ∧ c ≤ '9' then some (c.toNat - '0'.toNat)
  else if 'a' ≤ c ∧ c ≤ 'f' then some (c.toNat - 'a'.toNat + 10)
  else if 'A' ≤ c ∧ c ≤ 'F' then some (c.toNat - 'A'.toNat + 10)
  else none

/-- The characters of `CharacterSet.whitespacesAndNewlines`. -/
def isWhitespaceOrNewline (c : Char) : Bool :=
  let n := c.toNat
  (0x09 ≤ n && n ≤ 0x0D) || (0x2000 ≤ n && n ≤ 0x200A) ||
    [0x20, 0x85, 0xA0, 0x1680, 0x2028, 0x2029, 0x202F, 0x205F, 0x3000].contains n

def dropHexPrefix : List Char → List Char
  | '0' :: 'x' :: rest | '0' :: 'X' :: rest => rest
  | text => text

structure Scanner where
  string : String
  scanLocation : ℕ := 0

/-- The digits that come next. White space is skipped, and `0x` may stand before them. -/
def Scanner.hexDigits (s : Scanner) : List ℕ :=
  leadingDigits hexDigit
    (dropHexPrefix ((s.string.toList.drop s.scanLocation).dropWhile isWhitespaceOrNewline))

/-- `scanHexInt32(_:)` into the variable `color`, which keeps its value if there is no digit. A
number too large for 32 bits is read as the largest. -/
def Scanner.scanHexInt32 (s : Scanner) (color : UInt32) : UInt32 :=
  match s.hexDigits with
  | [] => color
  | digits => .ofNat (cappedNumeral 16 (2 ^ 32 - 1) digits)

/-! ## `UIColor` -/

/-- The components in exact arithmetic. -/
structure UIColor where
  red : ℚ
  green : ℚ
  blue : ℚ
  alpha : ℚ
  deriving DecidableEq

/-- `UIColor(hexColor:)`. -/
def UIColor.ofHexColor (hexColor : String) : UIColor :=
  let stringScanner : Scanner := { string := hexColor }
  -- `hasPrefix("#")`
  let stringScanner :=
    if hexColor.toList.head? = some '#' then { stringScanner with scanLocation := 1 }
    else stringScanner
  let color := stringScanner.scanHexInt32 0
  let r := (color >>> 16).toNat &&& 0x000000FF
  let g := (color >>> 8).toNat &&& 0x000000FF
  let b := color.toNat &&& 0x000000FF
  { red := r / 255, green := g / 255, blue := b / 255, alpha := 1 }

/-! ## Reading digits -/

theorem hexDigit_digitChar {d : ℕ} (h : d < 16) : hexDigit d.digitChar = some d := by
  have hall : ∀ d : Fin 16, hexDigit (Nat.digitChar d) = some d.val := by decide
  exact hall ⟨d, h⟩

theorem hexDigit_range {c : Char} {d : ℕ} (h : hexDigit c = some d) :
    48 ≤ c.toNat ∧ c.toNat ≤ 102 := by
  have hle : ∀ a b : Char, a ≤ b → a.toNat ≤ b.toNat := fun a b hab => hab
  unfold hexDigit at h
  split at h
  · rename_i hc
    have h1 : 48 ≤ c.toNat := hle _ _ hc.1
    have h2 : c.toNat ≤ 57 := hle _ _ hc.2
    omega
  · split at h
    · rename_i hc
      have h1 : 97 ≤ c.toNat := hle _ _ hc.1
      have h2 : c.toNat ≤ 102 := hle _ _ hc.2
      omega
    · split at h
      · rename_i hc
        have h1 : 65 ≤ c.toNat := hle _ _ hc.1
        have h2 : c.toNat ≤ 70 := hle _ _ hc.2
        omega
      · cases h

/-- Digits are not skipped. -/
theorem isWhitespaceOrNewline_hexDigit {c : Char} {d : ℕ} (h : hexDigit c = some d) :
    isWhitespaceOrNewline c = false := by
  obtain ⟨h1, h2⟩ := hexDigit_range h
  simp [isWhitespaceOrNewline]
  omega

/-- A text of digits does not begin with `0x`. -/
theorem dropHexPrefix_digits {l : List Char} {ds : List ℕ} (h : digitsOf hexDigit l = some ds) :
    dropHexPrefix l = l := by
  have hx : hexDigit 'x' = none := by decide
  have hX : hexDigit 'X' = none := by decide
  unfold dropHexPrefix
  split
  · simp [digitsOf, hx] at h
  · simp [digitsOf, hX] at h
  · rfl

/-- So the scanner finds all digits of a text of digits. -/
theorem Scanner.hexDigits_eq {s : Scanner} {ds : List ℕ}
    (h : digitsOf hexDigit (s.string.toList.drop s.scanLocation) = some ds) : s.hexDigits = ds := by
  have hskip : (s.string.toList.drop s.scanLocation).dropWhile isWhitespaceOrNewline =
      s.string.toList.drop s.scanLocation := by
    cases hl : s.string.toList.drop s.scanLocation with
    | nil => rfl
    | cons c cs =>
      have hmap := digitsOf_eq_some.mp h
      rw [hl] at hmap
      cases ds with
      | nil => cases hmap
      | cons d ds =>
        have hc : hexDigit c = some d := (List.cons.inj hmap).1
        rw [List.dropWhile_cons_of_neg (by simp [isWhitespaceOrNewline_hexDigit hc])]
  rw [hexDigits, hskip, dropHexPrefix_digits h, leadingDigits_eq h]

/-- What the scanner leaves in a variable that was 0. -/
theorem Scanner.toNat_scanHexInt32 (s : Scanner) :
    (s.scanHexInt32 0).toNat = min (numeral 16 s.hexDigits) (2 ^ 32 - 1) := by
  unfold scanHexInt32
  split
  · rename_i hnil
    rw [hnil]
    rfl
  · rw [cappedNumeral_eq (by omega), UInt32.toNat_ofNat']
    omega

/-! ## The colour of a number -/

/-- The bits `8 * i` to `8 * i + 7`. -/
def byte (i n : ℕ) : ℕ := n / 2 ^ (8 * i) % 2 ^ 8

theorem and_mask (n : ℕ) : n &&& 0x000000FF = n % 2 ^ 8 := Nat.and_two_pow_sub_one_eq_mod n 8

/-- A shift by `8 * i` bits and the mask take out byte `i`. -/
theorem shift_mask (color : UInt32) {i : ℕ} (hi : i < 4) :
    (color >>> .ofNat (8 * i)).toNat &&& 0x000000FF = byte i color.toNat := by
  have hshift : (UInt32.ofNat (8 * i)).toNat % 32 = 8 * i := by
    rw [UInt32.toNat_ofNat']
    omega
  rw [and_mask, UInt32.toNat_shiftRight, hshift, Nat.shiftRight_eq_div_pow]
  rfl

namespace UIColor

/-- The colour of three components up to 255. -/
def ofBytes (r g b : ℕ) : UIColor :=
  { red := r / 255, green := g / 255, blue := b / 255, alpha := 1 }

theorem ofBytes_inj {r g b r' g' b' : ℕ} (h : ofBytes r g b = ofBytes r' g' b') :
    r = r' ∧ g = g' ∧ b = b' := by
  have hdiv : ∀ m n : ℕ, (m / 255 : ℚ) = n / 255 → m = n := by
    intro m n hmn
    exact Nat.cast_injective ((div_left_inj' (by norm_num)).mp hmn)
  obtain ⟨hr, hg, hb, _⟩ := UIColor.mk.inj h
  exact ⟨hdiv _ _ hr, hdiv _ _ hg, hdiv _ _ hb⟩

/-- The lower three bytes of a number. -/
def ofNumber (n : ℕ) : UIColor := ofBytes (byte 2 n) (byte 1 n) (byte 0 n)

/-- Every text has a colour: that of the digits that come next, past a `#` if there is one. -/
theorem ofHexColor_eq (hexColor : String) : ofHexColor hexColor = ofNumber (min (numeral 16
    (Scanner.hexDigits ⟨hexColor, if hexColor.toList.head? = some '#' then 1 else 0⟩))
    (2 ^ 32 - 1)) := by
  have hbytes : ∀ color : UInt32, ofBytes ((color >>> 16).toNat &&& 0x000000FF)
      ((color >>> 8).toNat &&& 0x000000FF) (color.toNat &&& 0x000000FF) =
      ofNumber color.toNat := by
    intro color
    have h2 : (color >>> 16).toNat &&& 0x000000FF = byte 2 color.toNat :=
      shift_mask color (i := 2) (by omega)
    have h1 : (color >>> 8).toNat &&& 0x000000FF = byte 1 color.toNat :=
      shift_mask color (i := 1) (by omega)
    have h0 : color.toNat &&& 0x000000FF = byte 0 color.toNat := by
      rw [and_mask, byte, Nat.mul_zero, Nat.pow_zero, Nat.div_one]
    rw [h2, h1, h0, ofNumber]
  rw [← Scanner.toNat_scanHexInt32, ← hbytes]
  unfold ofHexColor
  split <;> rfl

theorem ofHexColor_digits {s : String} {n : ℕ}
    (h : readNumeral hexDigit 16 s.toList = some n) :
    ofHexColor s = ofNumber (min n (2 ^ 32 - 1)) ∧
      ofHexColor ("#" ++ s) = ofNumber (min n (2 ^ 32 - 1)) := by
  obtain ⟨_, ds, hmap, rfl⟩ := readNumeral_eq_some.mp h
  have hds := digitsOf_eq_some.mpr hmap
  have hhash : s.toList.head? ≠ some '#' := by
    intro hhead
    obtain ⟨cs, hcs⟩ := List.head?_eq_some_iff.mp hhead
    rw [hcs] at hmap
    have hd : hexDigit '#' = none := by decide
    cases ds with
    | nil => cases hmap
    | cons d ds => rw [List.map_cons, List.map_cons, hd] at hmap; cases hmap
  constructor
  · rw [ofHexColor_eq, if_neg hhash, Scanner.hexDigits_eq (s := ⟨s, 0⟩) hds]
  · have hlist : ("#" ++ s).toList = '#' :: s.toList := by rw [String.toList_append]; rfl
    rw [ofHexColor_eq, hlist, List.head?_cons, if_pos rfl, Scanner.hexDigits_eq]
    rw [hlist]
    exact hds

/-! ## Three bytes -/

/-- `s` is six hexadecimal digits of the three bytes, in any case. -/
def Encodes (s : String) (r g b : ℕ) : Prop :=
  s.toList.map hexDigit = [r / 16, r % 16, g / 16, g % 16, b / 16, b % 16].map some

instance (s : String) (r g b : ℕ) : Decidable (Encodes s r g b) :=
  inferInstanceAs (Decidable (_ = _))

theorem Encodes.readNumeral {s : String} {r g b : ℕ} (h : Encodes s r g b) :
    readNumeral hexDigit 16 s.toList = some (r * 2 ^ 16 + g * 2 ^ 8 + b) := by
  refine readNumeral_eq_some.mpr ⟨?_, _, h, ?_⟩
  · rintro hnil
    rw [Encodes, hnil] at h
    cases h
  · simp only [numeral_eq_foldl, List.foldl_cons, List.foldl_nil]
    omega

theorem byte_three {r g b : ℕ} (hr : r < 256) (hg : g < 256) (hb : b < 256) :
    byte 2 (r * 2 ^ 16 + g * 2 ^ 8 + b) = r ∧ byte 1 (r * 2 ^ 16 + g * 2 ^ 8 + b) = g ∧
      byte 0 (r * 2 ^ 16 + g * 2 ^ 8 + b) = b := by
  unfold byte
  omega

theorem ofHexColor_encodes {s : String} {r g b : ℕ} (h : Encodes s r g b) (hr : r < 256)
    (hg : g < 256) (hb : b < 256) :
    ofHexColor s = ofBytes r g b ∧ ofHexColor ("#" ++ s) = ofBytes r g b := by
  have hmin : min (r * 2 ^ 16 + g * 2 ^ 8 + b) (2 ^ 32 - 1) = r * 2 ^ 16 + g * 2 ^ 8 + b := by
    omega
  obtain ⟨h1, h2⟩ := ofHexColor_digits h.readNumeral
  obtain ⟨hr, hg, hb⟩ := byte_three hr hg hb
  rw [hmin, ofNumber, hr, hg, hb] at h1 h2
  exact ⟨h1, h2⟩

theorem exists_encodes {r g b : ℕ} (hr : r < 256) (hg : g < 256) (hb : b < 256) :
    ∃ s, Encodes s r g b := by
  have hdigit : ∀ d, d < 16 → hexDigit d.digitChar = some d := fun d => hexDigit_digitChar
  refine ⟨.ofList ([r / 16, r % 16, g / 16, g % 16, b / 16, b % 16].map Nat.digitChar), ?_⟩
  simp only [Encodes, String.toList_ofList, List.map_cons, List.map_nil]
  rw [hdigit _ (by omega), hdigit _ (by omega), hdigit _ (by omega), hdigit _ (by omega),
    hdigit _ (by omega), hdigit _ (by omega)]

/-- **Hexadecimal colours.** A text of digits, with `#` or without, is the colour of the lower three
bytes of its number, cut at `2 ^ 32 - 1`. So the six digits of three bytes are read back, and the
colours of different bytes differ. -/
theorem ofHexColor_reads :
    (∀ s : String, s ≠ "" → (∀ c ∈ s.toList, (hexDigit c).isSome) →
      ∃ n, readNumeral hexDigit 16 s.toList = some n ∧
        ofHexColor s = ofNumber (min n (2 ^ 32 - 1)) ∧ ofHexColor ("#" ++ s) = ofHexColor s) ∧
    (∀ r g b : Fin 256, (∃ s, Encodes s r g b) ∧ ∀ s, Encodes s r g b →
      ofHexColor s = ofBytes r g b ∧ ofHexColor ("#" ++ s) = ofBytes r g b) ∧
    ∀ r g b r' g' b' : Fin 256, ∀ s s', Encodes s r g b → Encodes s' r' g' b' →
      ofHexColor s = ofHexColor s' → r = r' ∧ g = g' ∧ b = b' := by
  have hback : ∀ r g b : Fin 256, ∀ s, Encodes s r g b →
      ofHexColor s = ofBytes r g b ∧ ofHexColor ("#" ++ s) = ofBytes r g b :=
    fun r g b s h => ofHexColor_encodes h r.isLt g.isLt b.isLt
  refine ⟨?_, ?_, ?_⟩
  · intro s hne hs
    have hlist : s.toList ≠ [] := fun h => hne (String.toList_eq_nil_iff.mp h)
    obtain ⟨n, hn⟩ := exists_readNumeral 16 hlist hs
    obtain ⟨h1, h2⟩ := ofHexColor_digits hn
    exact ⟨n, hn, h1, h2.trans h1.symm⟩
  · intro r g b
    exact ⟨exists_encodes r.isLt g.isLt b.isLt, hback r g b⟩
  · intro r g b r' g' b' s s' h h' heq
    rw [(hback r g b s h).1, (hback r' g' b' s' h').1] at heq
    obtain ⟨hr, hg, hb⟩ := ofBytes_inj heq
    exact ⟨Fin.ext hr, Fin.ext hg, Fin.ext hb⟩

/-- Both letter cases in one text. -/
theorem ofHexColor_reads_bytes : ofHexColor "#00fF80" = ofBytes 0 255 128 :=
  ((ofHexColor_reads.2.1 0 255 128).2 "00fF80" (by decide)).2

example : ofHexColor "123456789abcdef" = ofNumber (2 ^ 32 - 1) := by decide +kernel

end UIColor

end PsVideo
