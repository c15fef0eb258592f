import PsVideo.Agreement
import PsVideo.OneView
import PsVideo.TimeLabel

/-!
# PsVideo.Conversions

Where `Int(_:)` and `Int64(_:)` are applied to a time: the label of the periodic callback, and the
targets of a forward and of a backward tap. The guards before them ask for the status of the item
and for a current time past its end, never for the kind of its duration. The arithmetic is that of
`Double`, so each bound lies halfway between two of its numbers.
-/

namespace PsVideo

open Machine

namespace Seconds

/-- `Int(_:)` does not trap: a finite value whose whole part is in the 64-bit range. -/
def Fits : Seconds → Prop
  | num q => -(2 ^ 63 + 1) < q ∧ q < 2 ^ 63
  | _ => False

theorem fits_num_iff {q : ℚ} : (num q).Fits ↔ -2 ^ 63 ≤ trunc q ∧ trunc q < 2 ^ 63 := by
  rw [trunc_eq_truncate, truncate_lt (by norm_num), le_truncate (by norm_num)]
  have h : (((-2 ^ 63 : ℤ) : ℚ) - 1 < q) ↔ -(2 ^ 63 + 1) < q := by
    push_cast
    constructor <;> intro h <;> linarith
  rw [h]
  push_cast
  rfl

theorem toInt_fits {q : ℚ} (h : (num q).Fits) : (num q).toInt = .ok (truncate q) := by
  rw [toInt, if_pos (fits_num_iff.mp h), trunc_eq_truncate]

theorem toInt_ok {x : Seconds} (h : x.Fits) : ∃ n, x.toInt = .ok n := by
  cases x with
  | num q => exact ⟨_, toInt_fits h⟩
  | posInf | negInf | nan => cases h

theorem toInt_error {x : Seconds} (h : ¬ x.Fits) : x.toInt = .error .conversion := by
  cases x with
  | num q => exact if_neg fun hq => h (fits_num_iff.mpr hq)
  | posInf | negInf | nan => rfl

end Seconds

/-- The handler does not end in a trapping conversion. -/
def Converts {α : Type} (r : Except Trap α) : Prop := r ≠ .error .conversion

theorem converts_ok {α : Type} (a : α) : Converts (.ok a) := by
  rintro ⟨⟩

theorem formatTimeFor_converts {x : Seconds} :
    (∃ text, formatTimeFor x = .ok text) ∧ x.Fits ∨
      formatTimeFor x = .error .conversion ∧ ¬ x.Fits := by
  by_cases hx : x.Fits
  · obtain ⟨n, hn⟩ := Seconds.toInt_ok hx
    refine .inl ⟨?_, hx⟩
    simp only [formatTimeFor, getHoursMinutesSecondsFrom, hn]
    split <;> exact ⟨_, rfl⟩
  · refine .inr ⟨?_, hx⟩
    simp only [formatTimeFor, getHoursMinutesSecondsFrom, Seconds.toInt_error hx]

namespace Scope

variable {s : Scope} {p : Option PlayerId} {q : PlayerId} {item : AVPlayerItem}

theorem seekTo_converts {ms : Seconds} : Converts (s.seekTo q ms) ↔ ms.Fits := by
  unfold seekTo
  by_cases hx : ms.Fits
  · obtain ⟨n, hn⟩ := Seconds.toInt_ok hx
    rw [hn]
    exact ⟨fun _ => hx, fun _ => converts_ok _⟩
  · rw [Seconds.toInt_error hx]
    exact ⟨fun h => absurd rfl h, fun h => absurd h hx⟩

section Targets

variable [Arithmetic]

/-- Where a forward tap goes. -/
def forwardTarget (item : AVPlayerItem) : Seconds :=
  if (item.currentTime.seconds.add 15).gt item.duration.seconds then item.duration.seconds
  else item.currentTime.seconds.add 15

/-- Where a backward tap goes. -/
def backwardTarget (item : AVPlayerItem) : Seconds :=
  if (Seconds.num 0).gt (item.currentTime.seconds.add (-5)) then .num 0
  else item.currentTime.seconds.add (-5)

omit [Arithmetic] in
theorem currentItem_some (h : s.env.currentItem p = some item) :
    ∃ q, p = some q ∧ (s.env.players q).currentItem = some item := by
  cases p with
  | none => cases h
  | some q => exact ⟨q, rfl, h⟩

/-- Both seek taps are one seek; the forward tap may also deselect the play button. -/
theorem forwardAction_eq (h : (s.env.players q).currentItem = some item) :
    ∃ f, s.forwardAction (some q) =
      seekTo q ((forwardTarget item).scale 1000) (s.controls f) := by
  have ht : (s.env.players q).currentTime = item.currentTime := by simp [AVPlayer.currentTime, h]
  simp only [forwardAction, h, pastEnd, ht, forwardTarget]
  split
  · exact ⟨(·.selectPlay false), rfl⟩
  · exact ⟨id, rfl⟩

theorem backwardAction_eq (h : (s.env.players q).currentItem = some item) :
    s.backwardAction (some q) = seekTo q ((backwardTarget item).scale 1000) s := by
  have ht : (s.env.players q).currentTime = item.currentTime := by simp [AVPlayer.currentTime, h]
  simp only [backwardAction, ht, backwardTarget]

theorem forwardAction_converts (h : s.env.currentItem p = some item) :
    Converts (s.forwardAction p) ↔ ((forwardTarget item).scale 1000).Fits := by
  obtain ⟨q, rfl, hi⟩ := currentItem_some h
  obtain ⟨f, hf⟩ := forwardAction_eq hi
  rw [hf]
  exact seekTo_converts

theorem backwardAction_converts (h : s.env.currentItem p = some item) :
    Converts (s.backwardAction p) ↔ ((backwardTarget item).scale 1000).Fits := by
  obtain ⟨q, rfl, hi⟩ := currentItem_some h
  rw [backwardAction_eq hi]
  exact seekTo_converts

end Targets

theorem showTimes_converts :
    Converts (s.showTimes item) ↔ item.currentTime.seconds.Fits ∧ item.duration.seconds.Fits := by
  unfold showTimes
  obtain ⟨⟨text, hc⟩, hcf⟩ | ⟨hc, hcf⟩ := formatTimeFor_converts (x := item.currentTime.seconds)
  · obtain ⟨⟨text', hd⟩, hdf⟩ | ⟨hd, hdf⟩ := formatTimeFor_converts (x := item.duration.seconds)
    · rw [hc, hd]
      exact ⟨fun _ => ⟨hcf, hdf⟩, fun _ => converts_ok _⟩
    · rw [hc, hd]
      exact ⟨fun h => absurd rfl h, fun h => absurd h.2 hdf⟩
  · rw [hc]
    exact ⟨fun h => absurd rfl h, fun h => absurd h.1 hcf⟩

end Scope

/-! ## The six places -/

theorem PsVideoView.timeObserverCallback_converts {s : Scope} {item : AVPlayerItem}
    (h : s.env.currentItem s.env.player = some item) (hr : item.status = .readyToPlay) :
    (∀ alive, Converts (timeObserverCallback alive s)) ↔
      item.currentTime.seconds.Fits ∧ item.duration.seconds.Fits := by
  unfold timeObserverCallback
  simp only [h, hr, if_true]
  constructor
  · exact fun ha => Scope.showTimes_converts.mp (ha true)
  · intro hf alive
    cases alive with
    | true => exact Scope.showTimes_converts.mpr hf
    | false => rintro ⟨⟩

theorem FullScope.tryOn_converts {f : Option PlayerId → Scope → Except Trap Scope} {s : FullScope} :
    Converts (s.tryOn f) ↔ Converts (f s.self.player s.scope) := by
  unfold tryOn
  cases f s.self.player s.scope with
  | error t =>
    constructor
    · rintro h ⟨⟩; exact h rfl
    · rintro h ⟨⟩; exact h rfl
  | ok r => exact ⟨fun _ => converts_ok _, fun _ => converts_ok _⟩

theorem PsVideoFullViewVC.timeObserverCallback_converts {s : FullScope} {item : AVPlayerItem}
    (h : s.env.currentItem s.self.player = some item) (hr : item.status = .readyToPlay) :
    Converts (timeObserverCallback s) ↔
      item.currentTime.seconds.Fits ∧ item.duration.seconds.Fits := by
  unfold timeObserverCallback
  simp only [h, hr, if_true]
  rw [FullScope.tryOn_converts]
  exact Scope.showTimes_converts

/-- None of the six handlers ends in a trapping conversion: the periodic callback, the forward and
the backward tap, of the view that sees `s` and of the controller that sees `f`. -/
structure ConvertsAll (s : Scope) (f : FullScope) : Prop where
  tick : ∀ alive, Converts (PsVideoView.timeObserverCallback alive s)
  forward : Converts (PsVideoView.control .forward s)
  backward : Converts (PsVideoView.control .backward s)
  fullTick : Converts (PsVideoFullViewVC.timeObserverCallback f)
  fullForward : Converts (PsVideoFullViewVC.control .forward f)
  fullBackward : Converts (PsVideoFullViewVC.control .backward f)

/-! ## The bounds -/

section Bounds

variable {q : ℚ}

/-- Below `2 ^ 63` the numbers are 1024 apart. -/
theorem nearest_lt_two_pow : Format.double.nearest q < 2 ^ 63 ↔ q < 2 ^ 63 - 512 := by
  have hodd : ¬ Even (2 ^ 53 - 1 : ℤ) := by decide
  rw [Format.nearest_lt_iff (u := 10) (n := 2 ^ 53 - 1) (by decide) (by decide) (by decide)
    (by norm_num) (by norm_num)]
  simp only [hodd, and_false, or_false]
  norm_num

/-- Below `-2 ^ 63` they are 2048 apart. -/
theorem lt_nearest_neg_two_pow :
    -(2 ^ 63 + 1) < Format.double.nearest q ↔ -(2 ^ 63 + 1024) ≤ q := by
  have heven : Even (2 ^ 52 : ℤ) := by decide
  rw [neg_lt, ← Format.nearest_neg, Format.nearest_lt_iff (u := 11) (n := 2 ^ 52) (by decide)
    (by decide) (by decide) (by norm_num) (by norm_num)]
  simp only [heven, and_true, ← le_iff_lt_or_eq]
  norm_num
  exact neg_le

/-- The whole numbers of seconds here are even, and 9223372036854774 is the last whose milliseconds
fit. -/
theorem millis_nearest_lt :
    Format.double.nearest q * 1000 < 2 ^ 63 - 512 ↔ q < 9223372036854775 := by
  have hodd : ¬ Even (4611686018427387 : ℤ) := by decide
  rw [← lt_div_iff₀ (by norm_num), Format.nearest_lt_iff (u := 1) (n := 4611686018427387)
    (by decide) (by decide) (by decide) (by norm_num) (by norm_num)]
  simp only [hodd, and_false, or_false]
  norm_num

theorem two_pow_le_overflow : 2 ^ 64 ≤ (2 : ℚ) ^ Format.double.overflow := by
  rw [← zpow_natCast]
  exact zpow_le_zpow_right₀ one_le_two (by decide)

theorem Seconds.round_of_nonneg {F : Format} (h : 0 ≤ F.nearest q) :
    Seconds.round F q = if 2 ^ F.overflow ≤ F.nearest q then .posInf else .num (F.nearest q) := by
  have hpos := Format.two_zpow_pos (k := ℚ) F.overflow
  unfold Seconds.round
  split
  · rfl
  · exact if_neg (by linarith)

theorem Seconds.round_of_abs_le {F : Format} {e : ℤ} (h : |q| ≤ 2 ^ e) (he : F.least ≤ e)
    (ho : e < F.overflow) : Seconds.round F q = .num (F.nearest q) := by
  have hlt : (2 : ℚ) ^ e < 2 ^ F.overflow := zpow_lt_zpow_right₀ one_lt_two ho
  obtain ⟨hneg, hpos⟩ := abs_le.mp h
  have hup := Format.nearest_le_two_zpow he hpos
  have hdown := Format.nearest_le_two_zpow he (neg_le.mp hneg)
  rw [Format.nearest_neg] at hdown
  unfold Seconds.round
  rw [if_neg (by linarith), if_neg (by linarith)]

/-- What overflows fits as little. -/
theorem Seconds.fits_round_iff :
    (Seconds.round .double q).Fits ↔ -(2 ^ 63 + 1024) ≤ q ∧ q < 2 ^ 63 - 512 := by
  rw [← lt_nearest_neg_two_pow, ← nearest_lt_two_pow]
  have hbig := two_pow_le_overflow
  unfold Seconds.round
  split
  · exact iff_of_false id fun h => by linarith
  · split
    · exact iff_of_false id fun h => by linarith
    · rfl

theorem Seconds.scale_fits_iff : ((Seconds.num q).scale 1000).Fits ↔
    -(2 ^ 63 + 1024) ≤ q * 1000 ∧ q * 1000 < 2 ^ 63 - 512 := fits_round_iff

end Bounds

/-- The duration is numeric, and its whole seconds and milliseconds are in range; so are the targets
of a forward and of a backward tap from `c`. -/
def DurationFits (item : AVPlayerItem) (c : ℚ) : Prop :=
  ∃ d, item.duration.seconds = .num d ∧ -(2 ^ 63 + 1024) ≤ d * 1000 ∧ d < 2 ^ 63 ∧
    (d * 1000 < 2 ^ 63 - 512 ∨ c < 9223372036854760) ∧ c < 9223372036854780

namespace Scope

variable {item : AVPlayerItem} {c d : ℚ}

/-- A forward tap asks for the smaller of `c + 15`, rounded, and the duration. -/
theorem forwardTarget_fits (hc : item.currentTime.seconds = .num c)
    (hd : item.duration.seconds = .num d) (h0 : 0 ≤ c) :
    ((forwardTarget item).scale 1000).Fits ↔
      -(2 ^ 63 + 1024) ≤ d * 1000 ∧ (d * 1000 < 2 ^ 63 - 512 ∨ c < 9223372036854760) := by
  have hmillis := millis_nearest_lt (q := c + 15)
  have hc15 : c + 15 < 9223372036854775 ↔ c < 9223372036854760 := by
    constructor <;> intro h <;> linarith
  have hpos : 0 ≤ Format.double.nearest (c + 15) :=
    le_trans (by norm_num) (Format.two_zpow_le_nearest (e := 0) (by decide)
      (by rw [zpow_zero]; linarith))
  have hadd : (Seconds.num c).add 15 = Seconds.round .double (c + 15) := rfl
  rw [hc15] at hmillis
  rw [forwardTarget, hc, hd, hadd, Seconds.round_of_nonneg hpos, ← hmillis]
  generalize Format.double.nearest (c + 15) = r at hpos ⊢
  split
  · -- `c + 15` overflows, and the duration is taken
    rename_i hover
    have hbig := two_pow_le_overflow
    have hgt : Seconds.posInf.gt (.num d) = true := rfl
    rw [if_pos hgt, Seconds.scale_fits_iff, or_iff_left (by linarith)]
  · by_cases hdr : d < r
    · have hgt : (Seconds.num r).gt (.num d) = true := decide_eq_true hdr
      rw [if_pos hgt, Seconds.scale_fits_iff, or_iff_left_of_imp fun h => by linarith]
    · have hgt : (Seconds.num r).gt (.num d) ≠ true := by simpa [Seconds.gt] using hdr
      rw [if_neg hgt, Seconds.scale_fits_iff, or_iff_right_of_imp fun h => by linarith]
      exact ⟨fun h => ⟨by linarith, h.2⟩, fun h => ⟨by linarith, h.2⟩⟩

theorem backwardTarget_fits (hc : item.currentTime.seconds = .num c) :
    ((backwardTarget item).scale 1000).Fits ↔ c < 9223372036854780 := by
  have hmillis := millis_nearest_lt (q := c + -5)
  have hc5 : c + -5 < 9223372036854775 ↔ c < 9223372036854780 := by
    constructor <;> intro h <;> linarith
  have hzero : ((Seconds.num 0).scale 1000).Fits := Seconds.scale_fits_iff.mpr (by norm_num)
  have hadd : (Seconds.num c).add (-5) = Seconds.round .double (c + -5) := rfl
  rw [backwardTarget, hc, hadd, ← hc5, ← hmillis]
  rcases lt_or_ge (Format.double.nearest (c + -5)) 0 with hneg | hpos
  · -- the target is the start
    have hgt : (Seconds.num 0).gt (.round .double (c + -5)) = true := by
      have hbig := two_pow_le_overflow
      unfold Seconds.round
      split
      · linarith
      · split
        · rfl
        · exact decide_eq_true hneg
    rw [if_pos hgt]
    exact iff_of_true hzero (by linarith)
  · rw [Seconds.round_of_nonneg hpos]
    generalize Format.double.nearest (c + -5) = r at hpos ⊢
    split
    · have hbig := two_pow_le_overflow
      have hgt : (Seconds.num 0).gt .posInf ≠ true := by decide
      rw [if_neg hgt]
      exact iff_of_false id fun h => by linarith
    · have hgt : (Seconds.num 0).gt (.num r) ≠ true := by simpa [Seconds.gt] using hpos
      rw [if_neg hgt, Seconds.scale_fits_iff]
      exact ⟨And.right, fun h => ⟨by linarith, h⟩⟩

end Scope

theorem ConvertsAll.iff_targets {s : Scope} {f : FullScope} {item : AVPlayerItem}
    (hs : s.env.currentItem s.env.player = some item)
    (hf : f.env.currentItem f.self.player = some item) (hr : item.status = .readyToPlay) :
    ConvertsAll s f ↔ item.currentTime.seconds.Fits ∧ item.duration.seconds.Fits ∧
      ((Scope.forwardTarget item).scale 1000).Fits ∧
      ((Scope.backwardTarget item).scale 1000).Fits := by
  have h1 := PsVideoView.timeObserverCallback_converts hs hr
  have h2 := Scope.forwardAction_converts hs
  have h3 := Scope.backwardAction_converts hs
  have h4 := PsVideoFullViewVC.timeObserverCallback_converts hf hr
  have h5 := Scope.forwardAction_converts (s := f.scope) hf
  have h6 := Scope.backwardAction_converts (s := f.scope) hf
  constructor
  · intro h
    exact ⟨(h1.mp h.tick).1, (h1.mp h.tick).2, h2.mp h.forward, h3.mp h.backward⟩
  · rintro ⟨hc, hd, hfw, hbw⟩
    exact ⟨h1.mpr ⟨hc, hd⟩, h2.mpr hfw, h3.mpr hbw, h4.mpr ⟨hc, hd⟩,
      FullScope.tryOn_converts.mpr (h5.mpr hfw), FullScope.tryOn_converts.mpr (h6.mpr hbw)⟩

/-- **When the time arithmetic is safe.** For an item that is ready and a current time `c ≥ 0`, no
conversion traps in any of the six handlers exactly if the duration is numeric and it and the two
targets are in range. -/
theorem converts_all_iff {s : Scope} {f : FullScope} {item : AVPlayerItem} {c : ℚ}
    (hs : s.env.currentItem s.env.player = some item)
    (hf : f.env.currentItem f.self.player = some item) (hr : item.status = .readyToPlay)
    (hc : item.currentTime.seconds = .num c) (h0 : 0 ≤ c) :
    ConvertsAll s f ↔ DurationFits item c := by
  rw [ConvertsAll.iff_targets hs hf hr, Scope.backwardTarget_fits hc, hc]
  constructor
  · rintro ⟨_, hd, hfw, hbw⟩
    cases hdur : item.duration.seconds with
    | num d =>
      rw [hdur] at hd
      obtain ⟨hlow, hhigh⟩ := (Scope.forwardTarget_fits hc hdur h0).mp hfw
      exact ⟨d, hdur, hlow, hd.2, hhigh, hbw⟩
    | posInf | negInf | nan => rw [hdur] at hd; cases hd
  · rintro ⟨d, hdur, hlow, hd, hhigh, hbw⟩
    rw [Scope.forwardTarget_fits hc hdur h0, hdur]
    exact ⟨⟨by linarith, by linarith⟩, ⟨by linarith, hd⟩, ⟨hlow, hhigh⟩, hbw⟩

theorem converts_all_minute : ConvertsAll (inlineOver (minuteLong 50000 0))
    (fullOver (minuteLong 50000 0)) := by
  have hc : (CMTime.makeMillis 50000).seconds = .num 50 := by decide +kernel
  have hd : (CMTime.makeMillis 60000).seconds = .num 60 := by decide +kernel
  exact (converts_all_iff rfl rfl rfl hc (by norm_num)).mpr
    ⟨60, hd, by norm_num, by norm_num, .inl (by norm_num), by norm_num⟩

/-- The first tick of a live stream, whose duration is indefinite. -/
theorem live_tick_traps : ∃ w, Steps (app fun _ => true) .oneView
    [.property 0 (.url "live"), .tap 0 .play,
      .itemProgress ⟨0, 0⟩ .readyToPlay .indefinite (.makeMillis 1000)] w ∧
    w.enabled (.tick ⟨.view 0, 0⟩) ∧
    (∃ item, w.env.currentItem w.env.player = some item ∧ item.status = .readyToPlay ∧
      item.duration = .indefinite ∧ item.currentTime = .makeMillis 1000) ∧
    w.step (fun _ => true) (.tick ⟨.view 0, 0⟩) = .error .conversion := by
  obtain ⟨w, hw, hobs⟩ := Steps.of_exec_map (app fun _ => true) .oneView
    [.property 0 (.url "live"), .tap 0 .play,
      .itemProgress ⟨0, 0⟩ .readyToPlay .indefinite (.makeMillis 1000)]
    (fun w => (decide (w.enabled (.tick ⟨.view 0, 0⟩)), w.env.currentItem w.env.player,
      (app fun _ => true).trap w (.tick ⟨.view 0, 0⟩)))
    (a := (true, some
      { url := "live", status := .readyToPlay, currentTime := .makeMillis 1000,
        preferredPeakBitRate := 500000 }, some .conversion)) (by decide +kernel)
  obtain ⟨he, h⟩ := Prod.mk.inj hobs
  obtain ⟨hi, ht⟩ := Prod.mk.inj h
  exact ⟨w, hw, of_decide_eq_true he, ⟨_, hi, rfl, rfl, rfl⟩, step_of_trap ht⟩

end PsVideo
