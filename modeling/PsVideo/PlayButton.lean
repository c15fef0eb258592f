import PsVideo.OneView

/-!
# PsVideo.PlayButton

The play button of the inline view and the rate of the current player are two copies of one fact.
Every handler of the view that plays or pauses writes both, whatever they were before; so does
`viewDismissed`. What writes only the rate is what happens to the player without the view: a new
player, `playNextVideo`, the end of the item, and a controller that pauses in the background. And
`forwardAction` past the end of the item writes only the button.
-/

namespace PsVideo

open Machine

theorem Env.rate_eq {e : Env} {q : PlayerId} (h : e.player = some q) :
    e.rate = (e.players q).rate := by
  simp [Env.rate, h]

theorem Env.rate_call {e : Env} {q : PlayerId} (h : e.player = some q) (o : Owner) (op : PlayerOp) :
    (e.call o (some q) op).rate = (op.apply (e.players q)).rate := by
  simp [Env.rate, Env.call, h]

theorem Env.rate_call_other {e : Env} {p : Option PlayerId} (h : p ≠ e.player) (o : Owner)
    (op : PlayerOp) : (e.call o p op).rate = e.rate := by
  cases p with
  | none => rfl
  | some r =>
    cases hp : e.player with
    | none => simp [Env.rate, hp]
    | some q =>
      have hqr : q ≠ r := fun hqr => h (by rw [hp, hqr])
      simp [Env.rate, Env.call, hp, Function.update_of_ne hqr]

/-- What does not start a player. -/
theorem Env.Moved.rate_kept {e e' : Env} {g : AVPlayer → AVPlayer} (hm : e.Moved g e')
    (h : ∀ a : AVPlayer, (g a).rate = a.rate ∨ (g a).rate = 0) :
    e'.rate = e.rate ∨ e'.rate = 0 := by
  cases hq : e.player with
  | none => left; simp [Env.rate, hm.player, hq]
  | some q =>
    rw [Env.rate_eq hq, Env.rate_eq (hm.player.trans hq)]
    obtain hp | hp := hm.players q
    · exact .inl (by rw [hp])
    · rw [hp]; exact h _

/-- A pause leaves a rate of 0 alone, whichever player it is for. -/
theorem Env.rate_pause {e : Env} (h : e.rate = 0) (o : Owner) (p : Option PlayerId) :
    (e.call o p .pause).rate = 0 := by
  obtain hr | hr := (Env.moved_call e o p .pause).rate_kept fun _ => .inr rfl
  · rw [hr, h]
  · exact hr

/-- `playNextVideo` ends with `play()`. -/
theorem Env.rate_playNextVideo {e : Env} {q : PlayerId} (h : e.player = some q) (u : String) :
    (PsVideoView.playNextVideo u e).rate = 1 := by
  have hr : ∀ e : Env, e.player = some q → (e.call .manager (some q) .play).rate = 1 :=
    fun e he => Env.rate_call he .manager .play
  simp only [PsVideoView.playNextVideo, Env.call_player, h]
  exact hr _ h

namespace PsVideoControlsView

theorem settingsAction_play (c : PsVideoControlsView) :
    c.settingsAction.playButton.isSelected = c.playButton.isSelected := by
  unfold settingsAction
  split <;> rfl

theorem videoQualityAction_play (c : PsVideoControlsView) :
    c.videoQualityAction.playButton.isSelected = c.playButton.isSelected := by
  unfold videoQualityAction
  split <;> rfl

end PsVideoControlsView

/-- The button is selected iff the current player's rate is non-zero. -/
def Scope.Shows (s : Scope) : Prop :=
  s.self.controlsView.playButton.isSelected = true ↔ s.env.rate ≠ 0

/-- The same player, rate and button. -/
structure Steady (s s' : Scope) : Prop where
  player : s'.env.player = s.env.player
  rate : s'.env.rate = s.env.rate
  button : s'.self.controlsView.playButton.isSelected = s.self.controlsView.playButton.isSelected

namespace Steady

variable {s s' s'' : Scope} {q : PlayerId}

theorem refl (s : Scope) : Steady s s := ⟨rfl, rfl, rfl⟩

theorem trans (h₁ : Steady s s') (h₂ : Steady s' s'') : Steady s s'' :=
  ⟨h₂.player.trans h₁.player, h₂.rate.trans h₁.rate, h₂.button.trans h₁.button⟩

theorem shows (hs : Steady s s') (h : s.Shows) : s'.Shows := by
  unfold Scope.Shows
  rw [hs.button, hs.rate]
  exact h

theorem controls {f : PsVideoControlsView → PsVideoControlsView}
    (h : ∀ c, (f c).playButton.isSelected = c.playButton.isSelected) : Steady s (s.controls f) :=
  ⟨rfl, rfl, h _⟩

/-- A command that does not touch the rate. -/
theorem call (hp : s.env.player = some q) {op : PlayerOp} (h : ∀ a, (op.apply a).rate = a.rate) :
    Steady s (s.call (some q) op) :=
  ⟨rfl, by rw [Env.rate_eq hp]; exact (Env.rate_call hp s.me op).trans (h _), rfl⟩

theorem seekTo (hp : s.env.player = some q) {ms : Seconds} (h : s.seekTo q ms = .ok s') :
    Steady s s' := by
  unfold Scope.seekTo at h
  split at h
  · cases h
  · cases h; exact call hp fun _ => rfl

theorem setBitRate (hp : s.env.player = some q) (d : String) : Steady s (s.setBitRate (some q) d) :=
  call hp fun _ => rfl

theorem setVideoQuality (hp : s.env.player = some q) (quality : String) :
    Steady s (s.setVideoQuality (some q) quality) := by
  have h0 : Steady s (((s.controls (·.resetControls)).storeQuality quality).controls
      ({ · with selectedQuality := quality })) := ⟨rfl, rfl, rfl⟩
  have h1 := h0.trans (setBitRate (by exact hp) (qualitySetting quality).1)
  exact h1.trans ⟨rfl, rfl, rfl⟩

theorem addTimeObserver (p : Option PlayerId) (s : Scope) : Steady s (s.addTimeObserver p) := by
  cases p <;> exact ⟨rfl, rfl, rfl⟩

end Steady

theorem Silent.steady {s s' : Scope} (h : Silent s s') : Steady s s' := by
  refine ⟨h.player, ?_, by rw [h.playButton]⟩
  unfold Env.rate
  rw [h.player, h.players]

/-! ## The handlers -/

namespace Scope

variable {s s' : Scope} {q : PlayerId}

theorem Shows.playing (h1 : s.self.controlsView.playButton.isSelected = true)
    (h2 : s.env.rate ≠ 0) :
    s.Shows := by simp [Shows, h1, h2]

theorem Shows.stopped (h1 : s.self.controlsView.playButton.isSelected = false)
    (h2 : s.env.rate = 0) : s.Shows := by simp [Shows, h1, h2]

theorem pauseAction_shows (hp : s.env.player = some q) : (s.pauseAction (some q)).Shows := by
  have hr : (s.env.call s.me (some q) .pause).rate = 0 := Env.rate_call hp s.me .pause
  exact .stopped rfl hr

theorem stopAction_shows (hp : s.env.player = some q) : (s.stopAction (some q)).Shows :=
  pauseAction_shows (s := s.call (some q) (.seek (.makeMillis 0))) hp

theorem play_shows (hp : s.env.player = some q) :
    ((s.call (some q) .play).controls (·.selectPlay true)).Shows := by
  have hr : (s.env.call s.me (some q) .play).rate = 1 := Env.rate_call hp s.me .play
  exact .playing rfl (by simp [hr])

/-- `setVideoSpeed` selects the button, and gives a rate unless the text is unknown to it. -/
theorem setVideoSpeed_shows (hp : s.env.player = some q) {r : String}
    (h : s.env.rate ≠ 0 ∨ ∃ x, speedSetting r = some x) :
    (s.setVideoSpeed (some q) r).Shows := by
  refine .playing (by rw [setVideoSpeed_self]; rfl) ?_
  rw [setVideoSpeed_env]
  cases hr : speedSetting r with
  | none => simpa [hr] using h
  | some x =>
    have hrate := Env.rate_call hp s.me (.setRate x.1)
    simp only [hrate, PlayerOp.apply]
    exact speedSetting_ne_zero hr

/-- Play, set the bit rate, set the speed. -/
theorem start_shows {p : Option PlayerId} (hs : s.env.player = some q) (hp : p = some q)
    (d r : String) : ((((s.call p .play).controls (·.selectPlay true)).setBitRate p d).setVideoSpeed
      p r).Shows := by
  subst hp
  have hrate : (s.env.call s.me (some q) .play).rate = 1 := Env.rate_call hs s.me .play
  have hsteady : Steady ((s.call (some q) .play).controls (·.selectPlay true)) _ :=
    .setBitRate (by exact hs) d
  apply setVideoSpeed_shows (by exact hs)
  left
  rw [hsteady.rate]
  simp [hrate]

/-- Set the speed, then the quality, of a player that plays. -/
theorem resume_shows (hs : s.env.player = some q) (hr : s.env.rate ≠ 0) {p : Option PlayerId}
    (hp : p = some q) (r : String) (d : Controller → String) :
    ((s.setVideoSpeed p r).setVideoQuality (s.setVideoSpeed p r).env.player
      (d (s.setVideoSpeed p r).self)).Shows := by
  subst hp
  have hpl : (s.setVideoSpeed (some q) r).env.player = some q :=
    (Commands.setVideoSpeed r s).player.trans hs
  rw [hpl]
  exact (Steady.setVideoQuality hpl _).shows (setVideoSpeed_shows hs (.inl hr))

theorem forwardAction_shows (hp : s.env.player = some q) (hs : s.Shows)
    (hend : ∀ item ∈ (s.env.players q).currentItem, pastEnd (s.env.players q) item = true →
      s.self.controlsView.playButton.isSelected = false)
    (h : s.forwardAction (some q) = .ok s') : s'.Shows := by
  unfold forwardAction at h
  simp only at h
  split at h
  · cases h; exact hs
  · rename_i item hi
    split at h
    · -- past the end the button goes off, so it has to be off already
      rename_i hpast
      have hb := hend item hi hpast
      have hoff : Steady s (s.controls (·.selectPlay false)) := ⟨rfl, rfl, hb.symm⟩
      exact (hoff.trans (Steady.seekTo hp h)).shows hs
    · exact (Steady.seekTo hp h).shows hs

theorem backwardAction_steady (hp : s.env.player = some q)
    (h : s.backwardAction (some q) = .ok s') : Steady s s' := by
  exact Steady.seekTo hp h

theorem sliderAction_steady (hp : s.env.player = some q) {x : Seconds}
    (h : s.sliderAction (some q) x = .ok s') : Steady s s' := by
  have h0 : Steady s (s.controls ({ · with sliderValue := x.toFloat })) := .controls fun _ => rfl
  exact h0.trans (Steady.seekTo (by exact hp) h)

theorem didSelectRowAt_shows (hp : s.env.player = some q) (hs : s.Shows) {i : Nat}
    (h : s.didSelectRowAt (some q) i = .ok s') : s'.Shows := by
  unfold didSelectRowAt at h
  split at h
  · split at h
    · cases h
    · -- every row of the speed table is known to `setVideoSpeed`
      rename_i rate hr
      cases h
      obtain ⟨r, t, hx⟩ := speedSetting_table (List.mem_of_getElem? hr)
      exact (Steady.controls fun _ => rfl).shows (setVideoSpeed_shows hp (.inr ⟨_, hx⟩))
  · split at h
    · cases h
    · rename_i quality hr
      cases h
      have h0 : Steady s (s.controls ({ · with selectedQuality := quality })) := ⟨rfl, rfl, rfl⟩
      have h1 := h0.trans (.setVideoQuality (by exact hp) quality)
      exact (h1.trans (.controls fun _ => rfl)).shows hs

end Scope

open Scope

namespace PsVideoView

variable {s s' : Scope} {q : PlayerId}

theorem addObservers_steady (s : Scope) : Steady s (addObservers s) := by
  unfold addObservers
  split
  · exact .addTimeObserver _ s
  · exact .refl s

/-- Whatever the button and the rate were, after a tap on play they agree. -/
theorem playAction_shows (hp : s.env.player = some q) : (playAction s).Shows := by
  unfold playAction
  split
  · rw [pauseAction, hp]; exact pauseAction_shows hp
  · have hp0 : (addObservers s).env.player = some q := (addObservers_steady s).player.trans hp
    exact start_shows hp0 hp0 _ _

theorem playBlock_shows (hp : s.env.player = some q) : (playBlock s).Shows :=
  playAction_shows (s := initVideoPlayer s) hp

theorem control_shows {c : Control} (hp : s.env.player = some q) (hs : s.Shows)
    (hend : c = .forward → ∀ item ∈ (s.env.players q).currentItem,
      pastEnd (s.env.players q) item = true → s.self.controlsView.playButton.isSelected = false)
    (h : control c s = .ok s') : s'.Shows := by
  unfold control at h
  rw [hp] at h
  cases c with
  | play => cases h; exact playAction_shows hp
  | stop => cases h; exact stopAction_shows hp
  | forward => exact forwardAction_shows hp hs (hend rfl) h
  | backward => exact (backwardAction_steady hp h).shows hs
  | fullScreen => cases h; exact hs
  | slider x => exact (sliderAction_steady hp h).shows hs
  | settings => cases h; exact (Steady.controls PsVideoControlsView.settingsAction_play).shows hs
  | videoQuality =>
    cases h; exact (Steady.controls PsVideoControlsView.videoQualityAction_play).shows hs
  | row settings i => exact didSelectRowAt_shows hp hs h
  | controlsView =>
    cases h
    have h0 : Steady s (handleControlsViewTouchAction s) := ⟨rfl, rfl, rfl⟩
    exact h0.shows hs
  | playerView =>
    cases h
    have h0 : Steady s (handlePlayerViewTouchAction s) := ⟨rfl, rfl, rfl⟩
    exact h0.shows hs

/-- `viewDismissed` sets the button by the rate, or the rate by the button. -/
theorem viewDismissed_shows (p : PlayerId) (layer : Handle) (quality speed : String) (s : Scope) :
    (viewDismissed p layer quality speed s).Shows := by
  unfold viewDismissed
  dsimp only
  split
  · let s1 := ((receive p layer quality speed s).call (some p) .play).controls (·.selectPlay true)
    have hrate : s1.env.rate = 1 :=
      Env.rate_call (e := (receive p layer quality speed s).env) rfl s.me .play
    have hs : Steady s1 ((addTimeObserver s1).startTimer) :=
      (Steady.addTimeObserver _ _).trans (Silent.startTimer _).steady
    have hp : ((addTimeObserver s1).startTimer).env.player = some p := hs.player.trans rfl
    exact resume_shows hp (by rw [hs.rate, hrate]; exact one_ne_zero) hp _ (·.playerQuality)
  · exact pauseAction_shows (q := p) rfl

end PsVideoView

/-! ## The world -/

/-- The play button of the view is selected. -/
def World.showsPlaying (w : World) : Bool := (w.views 0).controlsView.playButton.isSelected

@[simp] theorem World.showsPlaying_put (w : World) (s : Scope) :
    (w.put 0 s).showsPlaying = s.self.controlsView.playButton.isSelected := by
  simp [World.showsPlaying, World.put]

/-- There is a player, and while the inline view shows, so does its rate. -/
structure InSync (w : World) : Prop where
  player : ∃ q, w.env.player = some q
  shows : w.screen = .inline → (w.scope 0).Shows

namespace InSync

variable {w w' : World}

theorem same (hi : InSync w) (hp : w'.env.player = w.env.player) (hr : w'.env.rate = w.env.rate)
    (hb : w'.showsPlaying = w.showsPlaying) (hs : w'.screen = .inline → w.screen = .inline) :
    InSync w' := by
  refine ⟨by rw [hp]; exact hi.player, fun h => ?_⟩
  have hst : Steady (w.scope 0) (w'.scope 0) := ⟨hp, hr, hb⟩
  exact hst.shows (hi.shows (hs h))

/-- A handler of the view that leaves the player current. -/
theorem put (hi : InSync w) {s : Scope} (hm : s.me = .view 0) (hp : s.env.player = w.env.player)
    (h : w.screen = .inline → s.Shows) : InSync (w.put 0 s) := by
  have hsc : (w.put 0 s).scope 0 = s := World.scope_put hm
  refine ⟨?_, fun hs => by rw [hsc]; exact h hs⟩
  obtain ⟨q, hq⟩ := hi.player
  exact ⟨q, hp.trans hq⟩

/-- A handler of any view that keeps the rate and the button. -/
theorem steadyPut (hi : InSync w) {v : ViewId} {s : Scope} (h : Steady (w.scope v) s) :
    InSync (w.put v s) := by
  refine hi.same h.player h.rate ?_ id
  by_cases hv : v = 0
  · subst hv
    simpa [World.showsPlaying, World.put, World.scope] using h.button
  · simp [World.showsPlaying, World.put, Function.update_of_ne (Ne.symm hv)]

theorem silent (hi : InSync w) (h : SilentStep w w') : InSync w' := by
  cases h with
  | refl => exact hi
  | put h => exact hi.steadyPut h.steady
  | fullPut _ h => exact hi.same h.player h.steady.rate rfl id

/-- What a player does by itself, keeping its rate. -/
theorem updatePlayer (hi : InSync w) {p : PlayerId} {f : AVPlayer → AVPlayer}
    (h : w.env.player = some p → (f (w.env.players p)).rate = (w.env.players p).rate) :
    InSync (w.updatePlayer p f) := by
  refine hi.same rfl ?_ rfl id
  obtain ⟨q, hq⟩ := hi.player
  rw [Env.rate_eq hq, Env.rate_eq (e := (w.updatePlayer p f).env) hq]
  by_cases hqp : q = p
  · subst hqp
    simpa [World.updatePlayer] using h hq
  · simp [World.updatePlayer, Function.update_of_ne hqp]

end InSync

/-- Where only one of the two is written, the other must have the value already. -/
def ButtonSafe (w : World) : Event → Bool
  | .property _ (.url _) => w.showsPlaying = false
  | .tap _ .forward => ∀ q ∈ w.env.player, ∀ item ∈ (w.env.players q).currentItem,
      Scope.pastEnd (w.env.players q) item = true → w.showsPlaying = false
  | .mainBlock => w.showsPlaying = true
  | .itemEnd p => w.env.player = some p → w.showsPlaying = false
  | .background => w.showsPlaying = true → ∀ k ∈ w.notified, (w.vcs k).player ≠ w.env.player
  | _ => true

/-- The events of a run of one view that meet the condition while the inline view shows. -/
def ButtonRun (w : World) (e : Event) : Prop :=
  e.oneView = true ∧ (w.screen = .inline → ButtonSafe w e)

instance (w : World) (e : Event) : Decidable (ButtonRun w e) := inferInstanceAs (Decidable (_ ∧ _))

/-- A controller pauses its player in the background. -/
theorem InSync.background {w : World} (hi : InSync w)
    (hg : w.screen = .inline → w.showsPlaying = true →
      ∀ k ∈ w.notified, (w.vcs k).player ≠ w.env.player) :
    InSync (w.env.registrations.foldl World.notifyBackground w) := by
  let P : World → Prop := fun w' => InSync w' ∧ w'.env.player = w.env.player ∧
    w'.showsPlaying = w.showsPlaying ∧ ∀ k, (w'.vcs k).player = (w.vcs k).player
  refine (background_rule (P := P) ⟨hi, rfl, rfl, fun _ => rfl⟩ ?_).1
  rintro w' k hk _ hs ⟨hi', hp, hb, hv⟩
  have hq := Quiet.fullPut (PsVideoFullViewVC.pauseAction_frame (w'.fullScope k))
  refine ⟨⟨hi'.player, fun hin => ?_⟩, hq.player.trans hp, hb, fun j => (hq.vcPlayer j).trans (hv j)⟩
  -- the pause is of another player, or of one that does not play
  have hrate : (w'.env.call (.vc k) (w'.vcs k).player .pause).rate = w'.env.rate := by
    cases hplay : w.showsPlaying with
    | true =>
      have hne : (w'.vcs k).player ≠ w'.env.player := by
        rw [hv k, hp]; exact hg (hs.symm.trans hin) hplay k hk
      exact Env.rate_call_other hne _ _
    | false =>
      have h0 : w'.env.rate = 0 := by
        by_contra hne
        have hon : w'.showsPlaying = true := (hi'.shows hin).mpr hne
        rw [hb, hplay] at hon
        cases hon
      rw [h0]; exact Env.rate_pause h0 _ _
  have hst : Steady (w'.scope 0) ((w'.fullPut k
      (PsVideoFullViewVC.appMovedToBackground (w'.fullScope k))).scope 0) := ⟨rfl, hrate, rfl⟩
  exact hst.shows (hi'.shows hin)

theorem InSync.step {accepts : String → Bool} {w w' : World} {e : Event} (hi : InSync w)
    (hs : Solo w) (h1 : e.oneView = true) (he : w.enabled e)
    (hg : w.screen = .inline → ButtonSafe w e) (h : w.step accepts e = .ok w') : InSync w' := by
  obtain ⟨q, hq⟩ := hi.player
  have hpause : (PsVideoView.pauseAction (w.scope 0)).Shows := by
    rw [PsVideoView.pauseAction, show (w.scope 0).env.player = some q from hq]
    exact Scope.pauseAction_shows hq
  by_cases hv : e.session = true
  · obtain ⟨hp, hin⟩ := step_session hv he h
    exact ⟨⟨q, hp.trans hq⟩, fun hin' => absurd hin' hin⟩
  cases e with
  | mount | unmount v => cases h1
  | property v p =>
    obtain rfl : v = 0 := hs.mounted v he
    cases p with
    | url u =>
      obtain ⟨_, rfl⟩ := url_ok h
      refine ⟨⟨_, rfl⟩, fun hin => ?_⟩
      have hb : w.showsPlaying = false := of_decide_eq_true (hg hin)
      have hr : (w.env.makePlayer 0 u).rate = 0 := by
        simp [Env.rate, Env.makePlayer, AVPlayer.ofURL]
      exact Scope.Shows.stopped hb hr
    | paused b =>
      cases b with
      | true => cases h; exact hi.put rfl rfl fun _ => hpause
      | false =>
        cases h
        exact hi.put rfl rfl fun _ => by rw [hq]; exact Scope.play_shows hq
    | play b =>
      cases b with
      | true => cases h; exact hi.same rfl rfl rfl id
      | false => cases h; exact hi.put rfl rfl fun _ => hpause
    | stop b =>
      cases h
      exact hi.put rfl rfl fun _ => by rw [hq]; exact Scope.stopAction_shows hq
    | controls b => cases h; exact hi.steadyPut ⟨rfl, rfl, rfl⟩
    | maxBitRate d =>
      cases h
      have h0 : Steady (w.scope 0) ((w.scope 0).controls (·.setQualityTitle d)) := ⟨rfl, rfl, rfl⟩
      rw [hq]
      exact hi.steadyPut (h0.trans (.setBitRate (by exact hq) d))
  | tap v c =>
    obtain rfl : v = 0 := hs.mounted v he.1
    obtain ⟨s, hr, rfl⟩ := tap_ok (by rintro rfl; exact hv rfl) h
    have hf := PsVideoView.control_frame hr
    refine hi.put hf.me hf.player fun hin => ?_
    refine PsVideoView.control_shows hq (hi.shows hin) (fun hfw => ?_) hr
    subst hfw
    exact of_decide_eq_true (hg hin) q hq
  | fullTap c | viewDidAppear => exact absurd rfl hv
  | viewDismissed =>
    obtain ⟨k, p, layer, _, _, _, rfl⟩ := viewDismissed_ok he h
    rw [hs.delegate k]
    have hf := PsVideoView.viewDismissed_frame p layer
      (w.vcs k).controlsView.videoQualityButton.title
      (w.vcs k).controlsView.settingsButton.title (w.scope 0)
    refine ⟨⟨p, hf.player⟩, fun _ => ?_⟩
    rw [World.scope_put hf.me]
    exact PsVideoView.viewDismissed_shows _ _ _ _ _
  | delayedBlock v =>
    obtain rfl : v = 0 := hs.delayed v (List.mem_of_mem_head? he)
    cases h
    have hm : InSync { w with delayed := w.delayed.tail } := hi.same rfl rfl rfl id
    have hf := PsVideoView.playBlock_frame (w.scope 0)
    exact hm.put hf.me hf.player fun _ => PsVideoView.playBlock_shows hq
  | playAnotherVideo url => cases h; exact hi.same rfl rfl rfl id
  | mainBlock =>
    obtain ⟨url, rest, _, rfl⟩ := mainBlock_ok he h
    refine ⟨⟨q, hq⟩, fun hin => ?_⟩
    have hb : w.showsPlaying = true := of_decide_eq_true (hg hin)
    refine Scope.Shows.playing hb ?_
    simp only [World.scope, Env.rate_playNextVideo hq]
    exact one_ne_zero
  | background => cases h; exact hi.background fun hin => of_decide_eq_true (hg hin)
  | timer t => cases h; exact hi.silent (.timer w t)
  | tick t => exact hi.silent (.tick h)
  | itemProgress p status duration time => cases h; exact hi.updatePlayer fun _ => rfl
  | itemEnd p =>
    cases h
    refine ⟨⟨q, hq⟩, fun hin => ?_⟩
    by_cases hqp : q = p
    · subst hqp
      have hb : w.showsPlaying = false := of_decide_eq_true (hg hin) hq
      have hr : (w.updatePlayer q (·.ended)).env.rate = 0 := by
        rw [Env.rate_eq (e := (w.updatePlayer q (·.ended)).env) hq]
        simp [World.updatePlayer, AVPlayer.ended]
      exact Scope.Shows.stopped hb hr
    · have hne : w.env.player ≠ some p := fun hp => hqp (Option.some.inj (hq.symm.trans hp))
      exact (hi.updatePlayer (f := (·.ended)) fun hp => absurd hp hne).shows hin
  | playbackError p => cases h; exact hi.updatePlayer fun _ => rfl

theorem inSync_withUrl (u : String) : InSync (.withUrl u) := by
  have hr : (World.withUrl u).env.rate = 0 := by
    simp [World.withUrl, Env.rate, Env.makePlayer, AVPlayer.ofURL]
  exact ⟨⟨_, rfl⟩, fun _ => Scope.Shows.stopped rfl hr⟩

/-- **The button shows the rate.** Once the url has been set, in every run of one view that meets
the condition and in every state with the inline view on the screen, the play button is selected iff
the current player's rate is non-zero. -/
theorem button_shows_rate {accepts : String → Bool} {u : String} {es : List Event} {w : World}
    (h : Steps ((app accepts).restrict ButtonRun) (.withUrl u) es w) (hs : w.screen = .inline) :
    (w.views 0).controlsView.playButton.isSelected = true ↔ w.env.rate ≠ 0 := by
  have hi := h.invariant (I := fun w => Solo w ∧ InSync w)
    (fun s e s' hi he hs => ⟨hi.1.step he.2.1 he.1 hs, hi.2.step hi.1 he.2.1 he.1 he.2.2 hs⟩)
    ⟨solo_withUrl u, inSync_withUrl u⟩
  exact hi.2.shows hs

theorem button_shows_rate_session : ∃ w, Steps ((app fun _ => true).restrict ButtonRun)
    (.withUrl "a") [.property 0 (.play true), .delayedBlock 0, .tap 0 .fullScreen, .viewDidAppear,
      .fullTap .play, .fullTap .fullScreen, .viewDismissed, .itemEnd ⟨0, 0⟩, .tap 0 .play] w ∧
    ((w.views 0).controlsView.playButton.isSelected = true ↔ w.env.rate ≠ 0) := by
  obtain ⟨w, hw, hs⟩ := Steps.of_exec_map ((app fun _ => true).restrict ButtonRun) (.withUrl "a")
    [.property 0 (.play true), .delayedBlock 0, .tap 0 .fullScreen, .viewDidAppear, .fullTap .play,
      .fullTap .fullScreen, .viewDismissed, .itemEnd ⟨0, 0⟩, .tap 0 .play]
    (fun w => w.screen) (a := .inline) (by decide +kernel)
  exact ⟨w, hw, button_shows_rate hw hs⟩

/-- A url update while the video plays: the button stays selected, the new player stands still. -/
theorem button_not_shows_rate : ∃ w, Steps (app fun _ => true) (.withUrl "a")
    [.property 0 (.paused false), .property 0 (.url "b")] w ∧ w.screen = .inline ∧
    ¬ ((w.views 0).controlsView.playButton.isSelected = true ↔ w.env.rate ≠ 0) := by
  obtain ⟨w, hw, hobs⟩ := Steps.of_exec_map (app fun _ => true) (.withUrl "a")
    [.property 0 (.paused false), .property 0 (.url "b")]
    (fun w => (w.screen, (w.views 0).controlsView.playButton.isSelected, w.env.rate))
    (a := (.inline, true, 0)) (by decide +kernel)
  obtain ⟨hs, hbr⟩ := Prod.mk.inj hobs
  obtain ⟨hb, hr⟩ := Prod.mk.inj hbr
  exact ⟨w, hw, hs, fun h => h.mp hb hr⟩

end PsVideo
