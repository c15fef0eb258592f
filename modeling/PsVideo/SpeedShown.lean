import PsVideo.PlayButton

/-!
# PsVideo.SpeedShown

The speed in its four places: the player's rate, the title of the settings button, the highlighted
row `selectedSpeed`, and `playerSpeed`. `setVideoSpeed` writes all four, and `play()` only the first,
which it sets to 1. So what starts the player has to call `setVideoSpeed` after `play()`, with a text
that it knows; `paused = false` and `playNextVideo` do not call it, and `viewDismissed` calls it with
a title, which for `.5x` is no row of the table.
-/

namespace PsVideo

open Machine

/-! ## The number that a text denotes -/

/-- Digits with a decimal point, such as `1.25` or `.5`. -/
def decimal (l : List Char) : Option ℚ :=
  let whole := l.takeWhile (· ≠ '.')
  let frac := (l.dropWhile (· ≠ '.')).drop 1
  if whole ++ frac ≠ [] ∧ (whole ++ frac).all Char.isDigit then
    some (Nat.ofDigitChars 10 (whole ++ frac) 0 / 10 ^ frac.length)
  else none

/-- A decimal with an `x` after it. -/
def denoted (text : String) : Option ℚ :=
  match text.toList.reverse with
  | 'x' :: rest => decimal rest.reverse
  | _ => none

/-- A row of the table denotes the rate that `setVideoSpeed` assigns for it, and so does the title. -/
theorem speedSetting_denoted {s : String} (h : s ∈ videoSpeedArray) :
    ∃ r title, speedSetting s = some (r, title) ∧ denoted s = some r ∧ denoted title = some r := by
  simp only [videoSpeedArray, List.mem_cons, List.not_mem_nil, or_false] at h
  rcases h with rfl | rfl | rfl | rfl | rfl | rfl | rfl <;>
    exact ⟨_, _, rfl, by decide +kernel, by decide +kernel⟩

example : denoted "1.25x" = some (5 / 4) := by decide +kernel

/-! ## The speed shown -/

/-- The title denotes the rate of the current player, and `playerSpeed` and the highlighted row are
the row of the table that does. -/
structure Scope.SpeedShown (s : Scope) : Prop where
  title : denoted s.self.controlsView.settingsButton.title = some s.env.rate
  row : s.self.playerSpeed ∈ videoSpeedArray
  number : denoted s.self.playerSpeed = some s.env.rate
  selected : s.self.controlsView.selectedSpeed = s.self.playerSpeed

/-- The speed is shown unless the player stands still. -/
def Scope.ShowsSpeed (s : Scope) : Prop := s.env.rate ≠ 0 → s.SpeedShown

/-- The texts stay, and so does the rate unless the player stops. -/
structure SpeedKept (s s' : Scope) : Prop where
  player : s'.env.player = s.env.player
  rate : s'.env.rate = s.env.rate ∨ s'.env.rate = 0
  title : s'.self.controlsView.settingsButton.title = s.self.controlsView.settingsButton.title
  selected : s'.self.controlsView.selectedSpeed = s.self.controlsView.selectedSpeed
  playerSpeed : s'.self.playerSpeed = s.self.playerSpeed

namespace SpeedKept

variable {s s' s'' : Scope} {p : Option PlayerId}

theorem refl (s : Scope) : SpeedKept s s := ⟨rfl, .inl rfl, rfl, rfl, rfl⟩

theorem trans (h₁ : SpeedKept s s') (h₂ : SpeedKept s' s'') : SpeedKept s s'' where
  player := h₂.player.trans h₁.player
  rate := by
    obtain h | h := h₂.rate
    · rw [h]; exact h₁.rate
    · exact .inr h
  title := h₂.title.trans h₁.title
  selected := h₂.selected.trans h₁.selected
  playerSpeed := h₂.playerSpeed.trans h₁.playerSpeed

theorem shows (hk : SpeedKept s s') (h : s.ShowsSpeed) : s'.ShowsSpeed := by
  intro hne
  have hr : s'.env.rate = s.env.rate := hk.rate.resolve_right hne
  have hs := h (by rwa [← hr])
  exact ⟨by rw [hk.title, hr]; exact hs.title, by rw [hk.playerSpeed]; exact hs.row,
    by rw [hk.playerSpeed, hr]; exact hs.number,
    by rw [hk.selected, hk.playerSpeed]; exact hs.selected⟩

theorem controls {f : PsVideoControlsView → PsVideoControlsView}
    (h1 : ∀ c, (f c).settingsButton.title = c.settingsButton.title)
    (h2 : ∀ c, (f c).selectedSpeed = c.selectedSpeed) : SpeedKept s (s.controls f) :=
  ⟨rfl, .inl rfl, h1 _, h2 _, rfl⟩

/-- A command that does not play. -/
theorem call {op : PlayerOp}
    (h : ∀ a : AVPlayer, (op.apply a).rate = a.rate ∨ (op.apply a).rate = 0) :
    SpeedKept s (s.call p op) :=
  ⟨rfl, (Env.moved_call s.env s.me p op).rate_kept h, rfl, rfl, rfl⟩

theorem setBitRate (d : String) : SpeedKept s (s.setBitRate p d) := call fun _ => .inl rfl

theorem setVideoQuality (quality : String) : SpeedKept s (s.setVideoQuality p quality) := by
  have h0 : SpeedKept s (((s.controls (·.resetControls)).storeQuality quality).controls
      ({ · with selectedQuality := quality })) := ⟨rfl, .inl rfl, rfl, rfl, rfl⟩
  exact (h0.trans (setBitRate _)).trans ⟨rfl, .inl rfl, rfl, rfl, rfl⟩

theorem addTimeObserver (p : Option PlayerId) (s : Scope) : SpeedKept s (s.addTimeObserver p) := by
  cases p <;> exact ⟨rfl, .inl rfl, rfl, rfl, rfl⟩

theorem startTimer (s : Scope) : SpeedKept s s.startTimer := ⟨rfl, .inl rfl, rfl, rfl, rfl⟩

theorem pauseAction : SpeedKept s (s.pauseAction p) :=
  (call fun _ => .inr rfl).trans (controls (fun _ => rfl) fun _ => rfl)

theorem stopAction : SpeedKept s (s.stopAction p) := by
  have h0 : SpeedKept s (s.call p (.seek (.makeMillis 0))) := call fun _ => .inl rfl
  exact h0.trans pauseAction

theorem seeks (h : Seeks p s s') : SpeedKept s s' := by
  induction h with
  | refl s => exact refl s
  | button _ ih =>
    refine trans ?_ ih
    exact controls (fun _ => rfl) fun _ => rfl
  | slider x _ ih =>
    refine trans ?_ ih
    exact controls (fun _ => rfl) fun _ => rfl
  | seek time _ ih =>
    refine trans ?_ ih
    exact call fun _ => .inl rfl

theorem showTimes {item : AVPlayerItem} (h : s.showTimes item = .ok s') : SpeedKept s s' := by
  unfold Scope.showTimes at h
  dsimp only at h
  split at h
  · cases h
  · split at h
    · cases h
    · cases h; exact ⟨rfl, .inl rfl, rfl, rfl, rfl⟩

end SpeedKept

/-! ## The handlers -/

namespace Scope

variable {s s' : Scope} {q : PlayerId}

theorem ShowsSpeed.stopped (h : s.env.rate = 0) : s.ShowsSpeed := fun hne => absurd h hne

theorem SpeedShown.shows (h : s.SpeedShown) : s.ShowsSpeed := fun _ => h

/-- The normal speed, played and shown. -/
theorem SpeedShown.one (hr : s.env.rate = 1) (ht : s.self.controlsView.settingsButton.title = "1.0x")
    (hs : s.self.controlsView.selectedSpeed = "1.0x") (hp : s.self.playerSpeed = "1.0x") :
    s.SpeedShown := by
  have hone : denoted "1.0x" = some 1 := by decide +kernel
  exact ⟨by rw [ht, hr, hone], by rw [hp]; decide, by rw [hp, hr, hone], by rw [hs, hp]⟩

/-- Whatever the four places held, with a row of the table `setVideoSpeed` writes them all. -/
theorem setVideoSpeed_speed (hp : s.env.player = some q) {p : Option PlayerId} (hq : p = some q)
    {r : String} (hr : r ∈ videoSpeedArray) : (s.setVideoSpeed p r).SpeedShown := by
  subst hq
  obtain ⟨x, title, hx, hd, ht⟩ := speedSetting_denoted hr
  have hrate : (s.setVideoSpeed (some q) r).env.rate = x := by
    rw [setVideoSpeed_env, hx]
    exact Env.rate_call hp s.me (.setRate x)
  have hself := setVideoSpeed_self (some q) r s
  rw [hx] at hself
  refine ⟨?_, ?_, ?_, ?_⟩
  · rw [hself, hrate]; exact ht
  · rw [hself]; exact hr
  · rw [hself, hrate]; exact hd
  · rw [hself]; rfl

theorem pauseAction_speed (hp : s.env.player = some q) : (s.pauseAction (some q)).ShowsSpeed := by
  have hr : (s.env.call s.me (some q) .pause).rate = 0 := Env.rate_call hp s.me .pause
  exact .stopped hr

theorem didSelectRowAt_speed (hp : s.env.player = some q) (hs : s.ShowsSpeed) {i : Nat}
    (h : s.didSelectRowAt (some q) i = .ok s') : s'.ShowsSpeed := by
  unfold didSelectRowAt at h
  split at h
  · split at h
    · cases h
    · rename_i r hr
      cases h
      have hrow := List.mem_of_getElem? hr
      have h1 := setVideoSpeed_speed (s := s.controls ({ · with selectedSpeed := r })) hp rfl hrow
      have h2 : ∀ t : Scope, SpeedKept t (t.controls (·.hideTable true)) :=
        fun _ => .controls (fun _ => rfl) fun _ => rfl
      exact (h2 _).shows h1.shows
  · split at h
    · cases h
    · rename_i quality _
      cases h
      have h0 : SpeedKept s (s.controls ({ · with selectedQuality := quality })) :=
        .controls (fun _ => rfl) fun _ => rfl
      exact ((h0.trans (.setVideoQuality quality)).trans
        (.controls (fun _ => rfl) fun _ => rfl)).shows hs

end Scope

open Scope

namespace PsVideoView

variable {s s' : Scope} {q : PlayerId}

theorem addObservers_kept (s : Scope) : SpeedKept s (addObservers s) := by
  unfold addObservers
  split
  · exact .addTimeObserver _ s
  · exact .refl s

/-- A tap on play pauses, or plays and sets the speed to `playerSpeed`. -/
theorem playAction_speed (hp : s.env.player = some q)
    (hg : s.self.controlsView.playButton.isSelected = false →
      s.self.playerSpeed ∈ videoSpeedArray) : (playAction s).ShowsSpeed := by
  unfold playAction
  split
  · rw [pauseAction, hp]; exact pauseAction_speed hp
  · rename_i hb
    have hk := addObservers_kept s
    have hrow : (addObservers s).self.playerSpeed ∈ videoSpeedArray := by
      rw [hk.playerSpeed]; exact hg (by simpa using hb)
    have hp0 : (addObservers s).env.player = some q := hk.player.trans hp
    refine (setVideoSpeed_speed (q := q) ?_ ?_ ?_).shows
    · exact hp0
    · exact hp0
    · exact hrow

theorem playBlock_speed (hp : s.env.player = some q)
    (hg : s.self.controlsView.playButton.isSelected = false →
      s.self.playerSpeed ∈ videoSpeedArray) : (playBlock s).ShowsSpeed :=
  playAction_speed (s := initVideoPlayer s) hp hg

theorem control_speed {c : Control} (hp : s.env.player = some q) (hs : s.ShowsSpeed)
    (hg : c = .play → s.self.controlsView.playButton.isSelected = false →
      s.self.playerSpeed ∈ videoSpeedArray) (h : control c s = .ok s') : s'.ShowsSpeed := by
  cases c with
  | play => cases h; exact playAction_speed hp (hg rfl)
  | stop => cases h; exact SpeedKept.stopAction.shows hs
  | forward => exact (SpeedKept.seeks (.forwardAction h)).shows hs
  | backward => exact (SpeedKept.seeks (.backwardAction h)).shows hs
  | fullScreen => cases h; exact hs
  | slider x => exact (SpeedKept.seeks (.sliderAction h)).shows hs
  | settings =>
    cases h
    exact (SpeedKept.controls (fun c => by unfold PsVideoControlsView.settingsAction; split <;> rfl)
      fun c => by unfold PsVideoControlsView.settingsAction; split <;> rfl).shows hs
  | videoQuality =>
    cases h
    exact (SpeedKept.controls
      (fun c => by unfold PsVideoControlsView.videoQualityAction; split <;> rfl)
      fun c => by unfold PsVideoControlsView.videoQualityAction; split <;> rfl).shows hs
  | row settings i =>
    rw [control, hp] at h
    exact didSelectRowAt_speed hp hs h
  | controlsView =>
    cases h
    have h0 : SpeedKept s (handleControlsViewTouchAction s) := ⟨rfl, .inl rfl, rfl, rfl, rfl⟩
    exact h0.shows hs
  | playerView =>
    cases h
    have h0 : SpeedKept s (handlePlayerViewTouchAction s) := ⟨rfl, .inl rfl, rfl, rfl, rfl⟩
    exact h0.shows hs

/-- `viewDismissed` pauses, or plays and sets the speed to the title that is handed back. -/
theorem viewDismissed_speed {p : PlayerId} {layer : Handle} {quality speed : String}
    (hg : s.env.isPlaying (some p) = true → speed ∈ videoSpeedArray) :
    (viewDismissed p layer quality speed s).ShowsSpeed := by
  unfold viewDismissed
  dsimp only
  split
  · rename_i hplay
    let s1 := (((receive p layer quality speed s).call (some p) .play).controls (·.selectPlay true))
    have hk : SpeedKept s1 ((addTimeObserver s1).startTimer) :=
      (SpeedKept.addTimeObserver _ _).trans (.startTimer _)
    have hp : ((addTimeObserver s1).startTimer).env.player = some p := hk.player
    have hrow : ((addTimeObserver s1).startTimer).self.playerSpeed ∈ videoSpeedArray := by
      rw [hk.playerSpeed]; exact hg hplay
    exact (SpeedKept.setVideoQuality _).shows (setVideoSpeed_speed hp hp hrow).shows
  · exact pauseAction_speed (q := p) rfl

theorem timerAction_kept (s : Scope) : SpeedKept s (timerAction s) := by
  unfold timerAction
  split
  · exact ⟨rfl, .inl rfl, rfl, rfl, rfl⟩
  · exact .refl s

theorem timeObserverCallback_kept {alive : Bool} (h : timeObserverCallback alive s = .ok s') :
    SpeedKept s s' := by
  unfold timeObserverCallback at h
  split at h
  · cases h; exact .refl s
  · split at h
    · split at h
      · have h0 : SpeedKept s (if s.self.isTimerRunning then s else s.startTimer) := by
          split
          · exact .refl s
          · exact .startTimer s
        exact h0.trans (.showTimes h)
      · cases h
    · cases h; exact .refl s

end PsVideoView

/-! ## The world -/

/-- Title, highlighted row and `playerSpeed` are those of the normal speed. -/
def World.AtOne (w : World) : Prop :=
  (w.views 0).controlsView.settingsButton.title = "1.0x" ∧
    (w.views 0).controlsView.selectedSpeed = "1.0x" ∧ (w.views 0).playerSpeed = "1.0x"

instance (w : World) : Decidable w.AtOne := inferInstanceAs (Decidable (_ ∧ _ ∧ _))

/-- What plays without setting the speed comes only at the normal speed, and what sets it only with
a row of the table. -/
def SpeedSafe (w : World) : Event → Bool
  | .property _ (.paused false) | .mainBlock => w.screen = .inline → w.AtOne
  | .tap _ .play | .delayedBlock _ => w.screen = .inline → w.showsPlaying = false →
      (w.views 0).playerSpeed ∈ videoSpeedArray
  | .viewDismissed => ∀ k ∈ w.screen.vc, w.env.isPlaying (w.vcs k).player = true →
      (w.vcs k).controlsView.settingsButton.title ∈ videoSpeedArray
  | .playbackError _ => false
  | _ => true

def SpeedRun (w : World) (e : Event) : Prop := e.oneView = true ∧ SpeedSafe w e

instance (w : World) (e : Event) : Decidable (SpeedRun w e) := inferInstanceAs (Decidable (_ ∧ _))

/-- What the view sees of the app keeps its speed. -/
def World.KeepsSpeed (w w' : World) : Prop := SpeedKept (w.scope 0) (w'.scope 0)

theorem keepsSpeed_put {w : World} {v : ViewId} {s : Scope} (h : SpeedKept (w.scope v) s) :
    w.KeepsSpeed (w.put v s) := by
  by_cases hv : v = 0
  · subst hv
    simpa [World.KeepsSpeed, World.put, World.scope] using
      (⟨h.player, h.rate, h.title, h.selected, h.playerSpeed⟩ :
        SpeedKept (w.scope 0) ⟨.view 0, s.env, s.self⟩)
  · have hself : ((w.put v s).scope 0).self = (w.scope 0).self :=
      Function.update_of_ne (Ne.symm hv) _ _
    exact ⟨h.player, h.rate, by rw [hself], by rw [hself], by rw [hself]⟩

theorem keepsSpeed_timer (w : World) (t : Handle) : w.KeepsSpeed (w.timer t) := by
  unfold World.timer
  split
  · exact keepsSpeed_put (PsVideoView.timerAction_kept _)
  · rename_i k _
    have hs := PsVideoFullViewVC.timerAction_silent (w.fullScope k)
    exact ⟨hs.player, .inl hs.steady.rate, rfl, rfl, rfl⟩
  · exact .refl _

theorem keepsSpeed_tick {w w' : World} {t : Handle} (h : w.tick t = .ok w') : w.KeepsSpeed w' := by
  cases tick_ok h with
  | refl => exact .refl _
  | view hr => exact keepsSpeed_put (PsVideoView.timeObserverCallback_kept hr)
  | vc _ hr =>
    have hs := PsVideoFullViewVC.timeObserverCallback_silent hr
    exact ⟨hs.player, .inl hs.steady.rate, rfl, rfl, rfl⟩

theorem keepsSpeed_background (w : World) :
    w.KeepsSpeed (w.env.registrations.foldl World.notifyBackground w) := by
  refine background_rule (P := w.KeepsSpeed) (.refl _) fun w' k _ _ _ hi => hi.trans ?_
  exact ⟨rfl, (Env.moved_call _ _ _ .pause).rate_kept fun _ => .inr rfl, rfl, rfl, rfl⟩

/-- What a player does by itself, unless it starts. -/
theorem keepsSpeed_updatePlayer (w : World) (p : PlayerId) {f : AVPlayer → AVPlayer}
    (h : ∀ a, (f a).rate = a.rate ∨ (f a).rate = 0) : w.KeepsSpeed (w.updatePlayer p f) :=
  ⟨rfl, (w.moved_updatePlayer p f).rate_kept h, rfl, rfl, rfl⟩

/-- There is a player, and while the inline view shows, so does its speed. -/
structure SpeedInForce (w : World) : Prop where
  player : ∃ q, w.env.player = some q
  shows : w.screen = .inline → (w.scope 0).ShowsSpeed

namespace SpeedInForce

variable {w w' : World}

theorem keep (hi : SpeedInForce w) (hk : w.KeepsSpeed w')
    (hs : w'.screen = .inline → w.screen = .inline) : SpeedInForce w' := by
  obtain ⟨q, hq⟩ := hi.player
  exact ⟨⟨q, hk.player.trans hq⟩, fun hin => hk.shows (hi.shows (hs hin))⟩

/-- A handler of the view that leaves the player current. -/
theorem put (hi : SpeedInForce w) {s : Scope} (hm : s.me = .view 0)
    (hp : s.env.player = w.env.player) (h : w.screen = .inline → s.ShowsSpeed) :
    SpeedInForce (w.put 0 s) := by
  obtain ⟨q, hq⟩ := hi.player
  refine ⟨⟨q, hp.trans hq⟩, fun hs => ?_⟩
  rw [World.scope_put hm]
  exact h hs

theorem step {accepts : String → Bool} {e : Event} (hi : SpeedInForce w) (hs : Solo w)
    (hg : SpeedRun w e) (he : w.enabled e) (h : w.step accepts e = .ok w') : SpeedInForce w' := by
  obtain ⟨h1, hg⟩ := hg
  obtain ⟨q, hq⟩ := hi.player
  by_cases hv : e.session = true
  · obtain ⟨hp, hin⟩ := step_session hv he h
    exact ⟨⟨q, hp.trans hq⟩, fun hin' => absurd hin' hin⟩
  cases e with
  | mount | unmount v => cases h1
  | property v p =>
    obtain rfl : v = 0 := hs.mounted v he
    cases p with
    | url u =>
      obtain ⟨_, rfl⟩ := url_ok h
      have hr : (w.env.makePlayer 0 u).rate = 0 := by
        simp [Env.rate, Env.makePlayer, AVPlayer.ofURL]
      exact ⟨⟨_, rfl⟩, fun _ => .stopped hr⟩
    | paused b =>
      cases b with
      | true => cases h; exact hi.keep (keepsSpeed_put .pauseAction) id
      | false =>
        cases h
        refine hi.put rfl rfl fun hin => ?_
        obtain ⟨ht, hsel, hsp⟩ := of_decide_eq_true hg hin
        rw [hq]
        exact (SpeedShown.one (Env.rate_call hq _ .play) ht hsel hsp).shows
    | play b =>
      cases b with
      | true => cases h; exact hi.keep (.refl _) id
      | false => cases h; exact hi.keep (keepsSpeed_put .pauseAction) id
    | stop b => cases h; exact hi.keep (keepsSpeed_put .stopAction) id
    | controls b =>
      cases h
      exact hi.keep (keepsSpeed_put (.controls (fun _ => rfl) fun _ => rfl)) id
    | maxBitRate d =>
      cases h
      have h0 : SpeedKept (w.scope 0) ((w.scope 0).controls (·.setQualityTitle d)) :=
        .controls (fun _ => rfl) fun _ => rfl
      exact hi.keep (keepsSpeed_put (h0.trans (.setBitRate d))) id
  | tap v c =>
    obtain rfl : v = 0 := hs.mounted v he.1
    obtain ⟨s, hr, rfl⟩ := tap_ok (by rintro rfl; exact hv rfl) h
    have hf := PsVideoView.control_frame hr
    refine hi.put hf.me hf.player fun hin => ?_
    refine PsVideoView.control_speed hq (hi.shows hin) ?_ hr
    rintro rfl
    exact of_decide_eq_true hg hin
  | fullTap c | viewDidAppear => exact absurd rfl hv
  | viewDismissed =>
    obtain ⟨k, p, layer, hk, hp, _, rfl⟩ := viewDismissed_ok he h
    rw [hs.delegate k]
    have hf := PsVideoView.viewDismissed_frame p layer
      (w.vcs k).controlsView.videoQualityButton.title
      (w.vcs k).controlsView.settingsButton.title (w.scope 0)
    refine ⟨⟨p, hf.player⟩, fun _ => ?_⟩
    rw [World.scope_put hf.me]
    refine PsVideoView.viewDismissed_speed fun hplay => ?_
    exact of_decide_eq_true hg k hk (by rw [hp]; exact hplay)
  | delayedBlock v =>
    obtain rfl : v = 0 := hs.delayed v (List.mem_of_mem_head? he)
    cases h
    have hm : SpeedInForce { w with delayed := w.delayed.tail } := hi.keep (.refl _) id
    have hf := PsVideoView.playBlock_frame (w.scope 0)
    exact hm.put hf.me hf.player fun hin =>
      PsVideoView.playBlock_speed hq (of_decide_eq_true hg hin)
  | playAnotherVideo url => cases h; exact hi.keep (.refl _) id
  | mainBlock =>
    obtain ⟨url, rest, _, rfl⟩ := mainBlock_ok he h
    refine ⟨⟨q, hq⟩, fun hin => ?_⟩
    obtain ⟨ht, hsel, hsp⟩ := of_decide_eq_true hg hin
    exact (SpeedShown.one (Env.rate_playNextVideo hq url) ht hsel hsp).shows
  | background => cases h; exact hi.keep (keepsSpeed_background w) ((background_screen w).symm.trans ·)
  | timer t =>
    cases h
    exact hi.keep (keepsSpeed_timer w t) ((SilentStep.timer w t).screen.symm.trans ·)
  | tick t => exact hi.keep (keepsSpeed_tick h) ((SilentStep.tick h).screen.symm.trans ·)
  | itemProgress p status duration time =>
    cases h
    exact hi.keep (keepsSpeed_updatePlayer w p fun _ => .inl rfl) id
  | itemEnd p => cases h; exact hi.keep (keepsSpeed_updatePlayer w p fun _ => .inr rfl) id
  | playbackError p => cases hg

end SpeedInForce

theorem speedInForce_withUrl (u : String) : SpeedInForce (.withUrl u) := by
  have hr : (World.withUrl u).env.rate = 0 := by
    simp [World.withUrl, Env.rate, Env.makePlayer, AVPlayer.ofURL]
  exact ⟨⟨_, rfl⟩, fun _ => .stopped hr⟩

theorem Env.rate_ne_zero_of_isPlaying {e : Env} (h : e.isPlaying e.player = true) : e.rate ≠ 0 := by
  unfold Env.isPlaying at h
  unfold Env.rate
  cases hq : e.player with
  | none => rw [hq] at h; cases h
  | some q =>
    simp only [hq, Option.elim_some, AVPlayer.isPlaying, Bool.and_eq_true, bne_iff_ne] at h
    exact h.1

/-- **The speed shown is the speed played.** Once the url has been set, in every run of one view that
meets the condition and in every state with the inline view on the screen and the player playing, the
title of the settings button denotes the player's rate, and so does the row of the table that is both
`playerSpeed` and highlighted. -/
theorem speed_shown {accepts : String → Bool} {u : String} {es : List Event} {w : World}
    (h : Steps ((app accepts).restrict SpeedRun) (.withUrl u) es w) (hs : w.screen = .inline)
    (hp : w.env.isPlaying w.env.player = true) : (w.scope 0).SpeedShown := by
  have hi := h.invariant (I := fun w => Solo w ∧ SpeedInForce w)
    (fun s e s' hi he hs => ⟨hi.1.step he.2.1 he.1 hs, hi.2.step hi.1 he.2 he.1 hs⟩)
    ⟨solo_withUrl u, speedInForce_withUrl u⟩
  exact hi.2.shows hs (Env.rate_ne_zero_of_isPlaying hp)

/-- A speed chosen inline is paused and resumed, and another one comes back from full screen. -/
theorem speed_shown_session : ∃ w, Steps ((app fun _ => true).restrict SpeedRun) (.withUrl "a")
    [.property 0 (.paused false), .tap 0 .settings, .tap 0 (.row true 4), .tap 0 .play, .tap 0 .play,
      .property 0 (.paused true), .property 0 (.play true), .delayedBlock 0, .tap 0 .fullScreen,
      .viewDidAppear, .fullTap .settings, .fullTap (.row true 1), .fullTap .fullScreen,
      .viewDismissed] w ∧ (w.scope 0).SpeedShown := by
  obtain ⟨w, hw, hobs⟩ := Steps.of_exec_map ((app fun _ => true).restrict SpeedRun) (.withUrl "a")
    [.property 0 (.paused false), .tap 0 .settings, .tap 0 (.row true 4), .tap 0 .play, .tap 0 .play,
      .property 0 (.paused true), .property 0 (.play true), .delayedBlock 0, .tap 0 .fullScreen,
      .viewDidAppear, .fullTap .settings, .fullTap (.row true 1), .fullTap .fullScreen,
      .viewDismissed]
    (fun w => (w.screen, w.env.isPlaying w.env.player)) (a := (.inline, true)) (by decide +kernel)
  obtain ⟨hs, hp⟩ := Prod.mk.inj hobs
  exact ⟨w, hw, speed_shown hw hs hp⟩

/-- At speed 1.5 the video is paused and goes on at 1, with the title still `1.5x`. -/
theorem speed_not_shown : ∃ w, Steps (app fun _ => true) (.withUrl "a")
    [.tap 0 .settings, .tap 0 (.row true 4), .property 0 (.paused true),
      .property 0 (.paused false)] w ∧ w.screen = .inline ∧ w.env.isPlaying w.env.player = true ∧
    ¬ (w.scope 0).SpeedShown := by
  obtain ⟨w, hw, hobs⟩ := Steps.of_exec_map (app fun _ => true) (.withUrl "a")
    [.tap 0 .settings, .tap 0 (.row true 4), .property 0 (.paused true), .property 0 (.paused false)]
    (fun w => (w.screen, w.env.isPlaying w.env.player, w.env.rate,
      denoted (w.views 0).controlsView.settingsButton.title))
    (a := (.inline, true, 1, some (3 / 2))) (by decide +kernel)
  simp only [Prod.mk.injEq] at hobs
  obtain ⟨hs, hp, hr, ht⟩ := hobs
  refine ⟨w, hw, hs, hp, fun h => ?_⟩
  have heq : some (3 / 2 : ℚ) = some 1 := by rw [← ht, ← hr]; exact h.title
  norm_num at heq

end PsVideo
