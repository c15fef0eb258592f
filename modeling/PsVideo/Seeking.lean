import PsVideo.Conversions

/-!
# PsVideo.Seeking

The seek bar. A forward tap is for a shift of the position by 15 seconds, not past the end, and a
backward tap for one by 5 seconds, not past the start, rounded down to a whole millisecond: `target`.
`SeekBar` says that the taps of a machine do just this to its position. Both controllers are seek
bars, so repeated taps round only once and the position stays on the bar. The arithmetic is exact,
the player is paused, and each seek is complete before the next tap.
-/

namespace PsVideo

open Machine

/-- `x` rounded down to a whole millisecond. -/
def ms (x : ℚ) : ℚ := gridFloor 1000 x

def Control.seeks : Control → Bool
  | .forward | .backward | .stop => true
  | _ => false

/-- Where a tap on a bar of length `d` leads from `x`. -/
def target (d x : ℚ) : Control → ℚ
  | .forward => shiftUp 1000 15 d x
  | .backward => shiftDown 1000 5 x
  | .stop => 0
  | _ => x

variable {σ : Type}

/-- The taps of `M` move the position that `At` reads as `target` says. -/
def SeekBar (M : Machine σ Control Trap) (At : ℚ → σ → Prop) (d : ℚ) : Prop :=
  ∀ s x c, At x s → 0 ≤ x → x ≤ d → c.seeks = true →
    M.enabled s c ∧ ∃ s', M.step s c = .ok s' ∧ At (target d x c) s'

theorem target_mem {d x : ℚ} (h0 : 0 ≤ x) (hd : x ≤ d) {c : Control} (hc : c.seeks = true) :
    0 ≤ target d x c ∧ target d x c ≤ d := by
  have hd0 : 0 ≤ d := h0.trans hd
  cases c with
  | forward => exact ⟨shiftUp_nonneg h0 hd0, shiftUp_le (by norm_num)⟩
  | backward => exact ⟨shiftDown_nonneg, (shiftDown_le (by norm_num) h0).trans hd⟩
  | stop => exact ⟨le_refl 0, hd0⟩
  | _ => cases hc

namespace SeekBar

variable {M : Machine σ Control Trap} {At : ℚ → σ → Prop} {d : ℚ}

/-- A run of taps never traps, and leads where the targets lead. -/
theorem steps (h : SeekBar M At d) {cs : List Control} (hcs : ∀ c ∈ cs, c.seeks = true) :
    ∀ {s : σ} {x : ℚ}, At x s → 0 ≤ x → x ≤ d → ∃ s', Steps M s cs s' ∧
      At (cs.foldl (target d) x) s' ∧ 0 ≤ cs.foldl (target d) x ∧ cs.foldl (target d) x ≤ d := by
  induction cs with
  | nil => intro s x ha h0 hd; exact ⟨s, .refl, ha, h0, hd⟩
  | cons c cs ih =>
    intro s x ha h0 hd
    have hc := hcs c (by simp)
    obtain ⟨he, s1, hs1, ha1⟩ := h s x c ha h0 hd hc
    obtain ⟨h1, h2⟩ := target_mem h0 hd hc
    obtain ⟨s', hr, hs'⟩ := ih (fun c hm => hcs c (List.mem_cons_of_mem _ hm)) ha1 h1 h2
    exact ⟨s', .cons he hs1 hr, hs'⟩

end SeekBar

theorem foldl_replicate_target (d : ℚ) (c : Control) (m : ℕ) :
    ∀ x, (List.replicate m c).foldl (target d) x = (fun y => target d y c)^[m] x := by
  induction m with
  | zero => exact fun _ => rfl
  | succ m ih => exact fun x => ih _

theorem forward_iterate (d p : ℚ) (m : ℕ) :
    (fun y => target d y .forward)^[m + 1] p = ms (min (p + 15 * (m + 1 : ℕ)) d) := by
  have h := shiftUp_iterate (n := 1000) (a := 15) (d := d) (x := p) (by norm_num) m
  rwa [Nat.cast_ofNat] at h

theorem backward_iterate (d p : ℚ) (m : ℕ) :
    (fun y => target d y .backward)^[m + 1] p = ms (max (p - 5 * (m + 1 : ℕ)) 0) := by
  have h := shiftDown_iterate (n := 1000) (a := 5) (x := p) (by norm_num) m
  rwa [Nat.cast_ofNat] at h

/-- What the taps of a bar of length `d` do from a state at position `p`. -/
structure SeeksExactly (M : Machine σ Control Trap) (At : ℚ → σ → Prop) (d p : ℚ) (s : σ) :
    Prop where
  forward : ∀ k : ℕ, 1 ≤ k → ∃ s', Steps M s (List.replicate k .forward) s' ∧
    At (ms (min (p + 15 * k) d)) s'
  backward : ∀ k : ℕ, 1 ≤ k → ∃ s', Steps M s (List.replicate k .backward) s' ∧
    At (ms (max (p - 5 * k) 0)) s'
  mixed : ∀ cs : List Control, (∀ c ∈ cs, c.seeks = true) → ∃ s' x, Steps M s cs s' ∧ At x s' ∧
    0 ≤ x ∧ x ≤ d ∧
    (∃ s'' y, M.step s' .forward = .ok s'' ∧ At y s'' ∧ x - 1 / 1000 < y) ∧
    ∃ s'' y, M.step s' .backward = .ok s'' ∧ At y s'' ∧ y ≤ x

theorem SeekBar.exactly {M : Machine σ Control Trap} {At : ℚ → σ → Prop} {d p : ℚ} {s : σ}
    (h : SeekBar M At d) (ha : At p s) (h0 : 0 ≤ p) (hd : p ≤ d) : SeeksExactly M At d p s where
  forward k hk := by
    obtain ⟨m, rfl⟩ : ∃ m, k = m + 1 := ⟨k - 1, by omega⟩
    have hcs : ∀ c ∈ List.replicate (m + 1) Control.forward, c.seeks = true :=
      fun c hc => by rw [List.eq_of_mem_replicate hc]; rfl
    obtain ⟨s', hr, hs', _⟩ := h.steps hcs ha h0 hd
    rw [foldl_replicate_target, forward_iterate] at hs'
    exact ⟨s', hr, hs'⟩
  backward k hk := by
    obtain ⟨m, rfl⟩ : ∃ m, k = m + 1 := ⟨k - 1, by omega⟩
    have hcs : ∀ c ∈ List.replicate (m + 1) Control.backward, c.seeks = true :=
      fun c hc => by rw [List.eq_of_mem_replicate hc]; rfl
    obtain ⟨s', hr, hs', _⟩ := h.steps hcs ha h0 hd
    rw [foldl_replicate_target, backward_iterate] at hs'
    exact ⟨s', hr, hs'⟩
  mixed cs hcs := by
    obtain ⟨s', hr, hs', h0', hd'⟩ := h.steps hcs ha h0 hd
    obtain ⟨_, s1, hs1, ha1⟩ := h s' _ .forward hs' h0' hd' rfl
    obtain ⟨_, s2, hs2, ha2⟩ := h s' _ .backward hs' h0' hd' rfl
    refine ⟨s', _, hr, hs', h0', hd', ⟨s1, _, hs1, ha1, ?_⟩, ⟨s2, _, hs2, ha2, ?_⟩⟩
    · exact_mod_cast sub_lt_shiftUp (n := 1000) (a := 15) (by norm_num) hd'
    · exact shiftDown_le (by norm_num) h0'

/-! ## The two controllers -/

section Exact

attribute [local instance] Arithmetic.exact

/-- The item of player `p` is `d` seconds long and at `x`. -/
def Scope.At (p : Option PlayerId) (d x : ℚ) (s : Scope) : Prop :=
  ∃ item, s.env.currentItem p = some item ∧ item.duration.seconds = .num d ∧
    item.currentTime.seconds = .num x

namespace Scope

variable {s : Scope} {q : PlayerId} {d x : ℚ} {item : AVPlayerItem}

theorem forwardTarget_exact (hc : item.currentTime.seconds = .num x)
    (hd : item.duration.seconds = .num d) : forwardTarget item = .num (min (x + 15) d) := by
  have hadd : (Seconds.num x).add 15 = .num (x + 15) := rfl
  simp only [forwardTarget, hc, hd, hadd, Seconds.gt, decide_eq_true_eq]
  split
  · rename_i h; rw [min_eq_right h.le]
  · rename_i h; rw [min_eq_left (not_lt.mp h)]

theorem backwardTarget_exact (hc : item.currentTime.seconds = .num x) :
    backwardTarget item = .num (max (x - 5) 0) := by
  have hadd : (Seconds.num x).add (-5) = .num (x - 5) := congrArg _ (sub_eq_add_neg x 5).symm
  simp only [backwardTarget, hc, hadd, Seconds.gt, decide_eq_true_eq]
  split
  · rename_i h; rw [max_eq_right h.le]
  · rename_i h; rw [max_eq_left (not_lt.mp h)]

/-- A seek to `y` on the bar leads to `ms y`. -/
theorem seekTo_at (h : s.At (some q) d x) {y : ℚ} (h0 : 0 ≤ y) (hy : y * 1000 < 2 ^ 63) :
    ∃ t, s.seekTo q ((Seconds.num y).scale 1000) = .ok (s.call (some q) (.seek t)) ∧
      (s.call (some q) (.seek t)).At (some q) d (ms y) := by
  obtain ⟨item, hi, hd, _⟩ := h
  have hpos : 0 ≤ y * 1000 := mul_nonneg h0 (by norm_num)
  have hfits : (Seconds.num (y * 1000)).Fits := ⟨by linarith, hy⟩
  refine ⟨.makeMillis ⌊y * 1000⌋, ?_, { item with currentTime := .makeMillis ⌊y * 1000⌋ }, ?_, hd, ?_⟩
  · rw [seekTo, show (Seconds.num y).scale 1000 = .num (y * 1000) from rfl,
      Seconds.toInt_fits hfits, truncate_of_nonneg hpos]
  · have hi : (s.env.players q).currentItem = some item := hi
    simp [Env.currentItem, PlayerOp.apply, hi]
  · rw [CMTime.makeMillis, CMTime.seconds_exact, ms, gridFloor]
    norm_num

theorem At.controls {p : Option PlayerId} (h : s.At p d x)
    (f : PsVideoControlsView → PsVideoControlsView) : (s.controls f).At p d x := h

theorem forwardAction_at (h : s.At (some q) d x) (h0 : 0 ≤ x) (hx : x ≤ d)
    (hd : d * 1000 < 2 ^ 63) : ∃ s', s.forwardAction (some q) = .ok s' ∧
      s'.At (some q) d (target d x .forward) := by
  obtain ⟨item, hi, hdur, hcur⟩ := id h
  obtain ⟨f, hf⟩ := forwardAction_eq (s := s) (q := q) hi
  rw [hf, forwardTarget_exact hcur hdur]
  have hle : min (x + 15) d * 1000 < 2 ^ 63 :=
    lt_of_le_of_lt (mul_le_mul_of_nonneg_right (min_le_right _ _) (by norm_num)) hd
  obtain ⟨t, ht, hat⟩ := seekTo_at (h.controls f) (le_min (by linarith) (h0.trans hx)) hle
  exact ⟨_, ht, by simpa [target, shiftUp, ms] using hat⟩

theorem backwardAction_at (h : s.At (some q) d x) (h0 : 0 ≤ x) (hx : x ≤ d)
    (hd : d * 1000 < 2 ^ 63) : ∃ s', s.backwardAction (some q) = .ok s' ∧
      s'.At (some q) d (target d x .backward) := by
  obtain ⟨item, hi, _, hcur⟩ := id h
  rw [backwardAction_eq (s := s) (q := q) hi, backwardTarget_exact hcur]
  have hle : max (x - 5) 0 * 1000 < 2 ^ 63 :=
    lt_of_le_of_lt (mul_le_mul_of_nonneg_right (max_le (by linarith) (h0.trans hx)) (by norm_num)) hd
  obtain ⟨t, ht, hat⟩ := seekTo_at h (le_max_right _ _) hle
  exact ⟨_, ht, by simpa [target, shiftDown, ms] using hat⟩

theorem stopAction_at (h : s.At (some q) d x) : (s.stopAction (some q)).At (some q) d 0 := by
  obtain ⟨item, hi, hdur, _⟩ := h
  have hi : (s.env.players q).currentItem = some item := hi
  refine ⟨{ item with currentTime := .makeMillis 0 }, ?_, hdur, ?_⟩
  · simp [stopAction, Env.currentItem, PlayerOp.apply, hi]
  · rw [CMTime.makeMillis, CMTime.seconds_exact]
    norm_num

end Scope

variable {d : ℚ}

theorem inline_seekBar (hd : d * 1000 < 2 ^ 63) :
    SeekBar inlineControls (fun x s => s.At s.env.player d x) d := by
  intro s x c h h0 hx hc
  obtain ⟨item, hi, _⟩ := id h
  obtain ⟨q, hq, _⟩ := Scope.currentItem_some hi
  have keep : ∀ {s'}, PsVideoView.control c s = .ok s' → s'.At (some q) d (target d x c) →
      s'.At s'.env.player d (target d x c) := fun {s'} hs hat => by
    rw [show s'.env.player = some q from (PsVideoView.control_frame hs).player.trans hq]; exact hat
  simp only [hq] at h
  cases c with
  | forward =>
    obtain ⟨s', hs, hat⟩ := Scope.forwardAction_at h h0 hx hd
    rw [← hq] at hs
    exact ⟨⟨by rintro ⟨⟩, trivial⟩, s', hs, keep hs hat⟩
  | backward =>
    obtain ⟨s', hs, hat⟩ := Scope.backwardAction_at h h0 hx hd
    rw [← hq] at hs
    exact ⟨⟨by rintro ⟨⟩, trivial⟩, s', hs, keep hs hat⟩
  | stop =>
    have hs : PsVideoView.control .stop s = .ok (s.stopAction (some q)) := by rw [← hq]; rfl
    exact ⟨⟨by rintro ⟨⟩, trivial⟩, _, hs, keep hs (Scope.stopAction_at h)⟩
  | _ => cases hc

theorem FullScope.tryOn_ok {f : Option PlayerId → Scope → Except Trap Scope} {s : FullScope}
    {r : Scope} (h : f s.self.player s.scope = .ok r) : s.tryOn f = .ok (s.put r) := by
  rw [tryOn, h]

theorem full_seekBar (hd : d * 1000 < 2 ^ 63) :
    SeekBar fullControls (fun x s => s.scope.At s.self.player d x) d := by
  intro s x c h h0 hx hc
  obtain ⟨item, hi, _⟩ := id h
  obtain ⟨q, hq, _⟩ := Scope.currentItem_some hi
  simp only [hq] at h
  -- the controller keeps its player, and the position is read from the environment
  have keep : ∀ {r : Scope}, r.At (some q) d (target d x c) →
      (s.put r).scope.At (s.put r).self.player d (target d x c) := fun hat => by
    rw [show (s.put _).self.player = some q from hq]; exact hat
  cases c with
  | forward =>
    obtain ⟨r, hr, hat⟩ := Scope.forwardAction_at h h0 hx hd
    rw [← hq] at hr
    exact ⟨⟨by rintro ⟨⟩, trivial⟩, _, FullScope.tryOn_ok hr, keep hat⟩
  | backward =>
    obtain ⟨r, hr, hat⟩ := Scope.backwardAction_at h h0 hx hd
    rw [← hq] at hr
    exact ⟨⟨by rintro ⟨⟩, trivial⟩, _, FullScope.tryOn_ok hr, keep hat⟩
  | stop =>
    refine ⟨⟨by rintro ⟨⟩, trivial⟩, _, rfl, keep ?_⟩
    rw [hq]
    exact Scope.stopAction_at h
  | _ => cases hc

/-- **Seeking stays on the bar and does not drift**, in the inline view and in full screen, for an
item of `d` seconds and any position `p` on it. -/
theorem seeks_exactly {d p : ℚ} (hd : d * 1000 < 2 ^ 63) (h0 : 0 ≤ p) (hp : p ≤ d) {s : Scope}
    {t : FullScope} (hs : s.At s.env.player d p) (ht : t.scope.At t.self.player d p) :
    SeeksExactly inlineControls (fun x s => s.At s.env.player d x) d p s ∧
      SeeksExactly fullControls (fun x t => t.scope.At t.self.player d x) d p t :=
  ⟨(inline_seekBar hd).exactly hs h0 hp, (full_seekBar hd).exactly ht h0 hp⟩

theorem seeks_exactly_minute :
    SeeksExactly inlineControls (fun x s => s.At s.env.player 60 x) 60 50
        (inlineOver (minuteLong 50000 0)) ∧
      SeeksExactly fullControls (fun x t => t.scope.At t.self.player 60 x) 60 50
        (fullOver (minuteLong 50000 0)) := by
  have hdur : (CMTime.makeMillis 60000).seconds = .num 60 := by
    norm_num [CMTime.makeMillis, CMTime.seconds_exact]
  have hpos : (CMTime.makeMillis 50000).seconds = .num 50 := by
    norm_num [CMTime.makeMillis, CMTime.seconds_exact]
  exact seeks_exactly (by norm_num) (by norm_num) (by norm_num) ⟨_, rfl, hdur, hpos⟩
    ⟨_, rfl, hdur, hpos⟩

end Exact

end PsVideo
