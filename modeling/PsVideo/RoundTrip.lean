import PsVideo.OneView

/-!
# PsVideo.RoundTrip

A full-screen session and the speed and quality it hands back. They go in as the strings
`playerSpeed` and `playerQuality` and come out as the titles of two buttons, which start at `1.0x`
and `360p` and are only written by `setVideoSpeed` and `setVideoQuality`. So a string comes back if
one of these has been called for it in the session and gives it as its own title, or if it is the
title that the button starts with.
-/

namespace PsVideo

open Machine

/-- What can happen between `fullScreenAction` and `viewDismissed`. -/
def Event.inSession : Event → Bool
  | .fullTap _ | .viewDidAppear | .timer _ | .tick _ | .background | .itemProgress _ _ _ _
  | .itemEnd _ => true
  | _ => false

/-- The speed last selected in the session, at first the one it was opened with. -/
def Event.speed (s : String) : Event → String
  | .fullTap (.row true i) => videoSpeedArray[i]?.getD s
  | _ => s

/-- The quality last selected in the session, at first the one it was opened with. -/
def Event.quality (s : String) : Event → String
  | .fullTap (.row false i) => videoQualityArray[i]?.getD s
  | _ => s

theorem getD_mem {l : List String} {s : String} (h : s ∈ l) (i : Nat) : l[i]?.getD s ∈ l := by
  cases hi : l[i]? with
  | none => exact h
  | some r => exact List.mem_of_getElem? hi

theorem Event.speed_mem {s : String} (h : s ∈ videoSpeedArray) (e : Event) :
    e.speed s ∈ videoSpeedArray := by
  unfold Event.speed
  split
  · exact getD_mem h _
  · exact h

theorem Event.quality_mem {s : String} (h : s ∈ videoQualityArray) (e : Event) :
    e.quality s ∈ videoQualityArray := by
  unfold Event.quality
  split
  · exact getD_mem h _
  · exact h

/-- Whether the player plays, and whether the titles of the two buttons have been set. -/
structure Track where
  playing : Bool
  speedShown : Bool := false
  qualityShown : Bool := false

/-- How one event of a session with player `p` moves these; `err` says that the player has failed,
so that it never counts as playing. -/
def Track.next (p : Option PlayerId) (err : Bool) (t : Track) : Event → Track
  | .viewDidAppear =>
    if t.playing then { t with speedShown := true, qualityShown := true } else t
  | .fullTap .play =>
    if t.playing then { t with playing := false }
    else { playing := !err, speedShown := true, qualityShown := true }
  | .fullTap .stop => { t with playing := false }
  | .fullTap (.row true _) => { t with playing := !err, speedShown := true }
  | .fullTap (.row false _) => { t with qualityShown := true }
  | .background => { t with playing := false }
  | .itemEnd q => if p = some q then { t with playing := false } else t
  | _ => t

/-- The title that `setVideoSpeed` sets for a row of the table. -/
def speedTitle (s : String) : String :=
  match speedSetting s with
  | some (_, title) => title
  | none => s

/-- One row of the speed table has a title of its own. -/
theorem speedTitle_eq {s : String} (h : s ∈ videoSpeedArray) : speedTitle s = s ↔ s ≠ ".5x" := by
  simp only [videoSpeedArray, List.mem_cons, List.not_mem_nil, or_false] at h
  rcases h with rfl | rfl | rfl | rfl | rfl | rfl | rfl <;> decide

theorem qualitySetting_eq {s : String} (h : s ∈ videoQualityArray) : (qualitySetting s).2 = s := by
  simp only [videoQualityArray, List.mem_cons, List.not_mem_nil, or_false] at h
  rcases h with rfl | rfl | rfl | rfl | rfl <;> rfl

/-- What the handlers of a full-screen controller keep up: its strings are the ones last selected,
and the titles show them once they have been set. -/
structure Held (p : PlayerId) (err : Bool) (t : Track) (speed quality : String) (s : Scope) :
    Prop where
  error : (s.env.players p).error = err
  playing : (s.env.players p).isPlaying = t.playing
  playerSpeed : s.self.playerSpeed = speed
  playerQuality : s.self.playerQuality = quality
  settingsTitle : s.self.controlsView.settingsButton.title =
    if t.speedShown then speedTitle speed else "1.0x"
  qualityTitle : s.self.controlsView.videoQualityButton.title =
    if t.qualityShown then (qualitySetting quality).2 else "360p"

/-- The fields that `Held` reads, apart from the player's. -/
structure SameTexts (s s' : Scope) : Prop where
  playerSpeed : s'.self.playerSpeed = s.self.playerSpeed
  playerQuality : s'.self.playerQuality = s.self.playerQuality
  settingsTitle :
    s'.self.controlsView.settingsButton.title = s.self.controlsView.settingsButton.title
  qualityTitle :
    s'.self.controlsView.videoQualityButton.title = s.self.controlsView.videoQualityButton.title

namespace Held

variable {p : PlayerId} {err : Bool} {t : Track} {speed quality : String} {s s' : Scope}

theorem keep (h : Held p err t speed quality s) (ht : SameTexts s s')
    (he : (s'.env.players p).error = (s.env.players p).error)
    (hp : (s'.env.players p).rate = (s.env.players p).rate) : Held p err t speed quality s' where
  error := he.trans h.error
  playing := by
    rw [← h.playing]
    simp only [AVPlayer.isPlaying, he, hp]
  playerSpeed := ht.playerSpeed.trans h.playerSpeed
  playerQuality := ht.playerQuality.trans h.playerQuality
  settingsTitle := ht.settingsTitle.trans h.settingsTitle
  qualityTitle := ht.qualityTitle.trans h.qualityTitle

theorem silent (h : Held p err t speed quality s) (hs : Silent s s') :
    Held p err t speed quality s' :=
  h.keep ⟨hs.playerSpeed, hs.playerQuality, hs.settingsTitle, hs.qualityTitle⟩ (by rw [hs.players])
    (by rw [hs.players])

/-- The player alone has changed. -/
theorem aside (h : Held p err t speed quality s) {b : Bool} (hs : s'.self = s.self)
    (he : (s'.env.players p).error = (s.env.players p).error)
    (hp : (s'.env.players p).isPlaying = b) :
    Held p err { t with playing := b } speed quality s' where
  error := he.trans h.error
  playing := hp
  playerSpeed := by rw [hs]; exact h.playerSpeed
  playerQuality := by rw [hs]; exact h.playerQuality
  settingsTitle := by rw [hs]; exact h.settingsTitle
  qualityTitle := by rw [hs]; exact h.qualityTitle

/-- A handler that touches nothing but the controls. -/
theorem controls (h : Held p err t speed quality s) {f : PsVideoControlsView → PsVideoControlsView}
    (h1 : ∀ c, (f c).settingsButton.title = c.settingsButton.title)
    (h2 : ∀ c, (f c).videoQualityButton.title = c.videoQualityButton.title) :
    Held p err t speed quality (s.controls f) :=
  h.keep ⟨rfl, rfl, h1 _, h2 _⟩ rfl rfl

/-- A command that does not change the rate. -/
theorem call (h : Held p err t speed quality s) {op : PlayerOp}
    (hr : ∀ a, (op.apply a).rate = a.rate) :
    Held p err t speed quality (s.call (some p) op) :=
  h.keep ⟨rfl, rfl, rfl, rfl⟩ (by simp) (by simp [hr])

theorem pauseAction (h : Held p err t speed quality s) :
    Held p err { t with playing := false } speed quality (s.pauseAction (some p)) where
  error := by
    rw [← h.error]
    simp [Scope.pauseAction, Env.call, PlayerOp.apply]
  playing := by simp [Scope.pauseAction, Env.call, PlayerOp.apply, AVPlayer.isPlaying]
  playerSpeed := h.playerSpeed
  playerQuality := h.playerQuality
  settingsTitle := h.settingsTitle
  qualityTitle := h.qualityTitle

theorem setVideoSpeed (h : Held p err t speed quality s) {r : String} (hr : r ∈ videoSpeedArray) :
    Held p err { t with playing := !err, speedShown := true } r quality
      (s.setVideoSpeed (some p) r) := by
  obtain ⟨rate, title, hx⟩ := speedSetting_table hr
  have hne : rate ≠ 0 := speedSetting_ne_zero hx
  refine ⟨?_, ?_, ?_, ?_, ?_, ?_⟩
  · simpa [Scope.setVideoSpeed_env, hx, Env.call, PlayerOp.apply] using h.error
  · have herr := h.error
    simp [Scope.setVideoSpeed_env, hx, Env.call, PlayerOp.apply, AVPlayer.isPlaying, hne, herr]
  · simp [Scope.setVideoSpeed_self]
  · simpa [Scope.setVideoSpeed_self] using h.playerQuality
  · simp [Scope.setVideoSpeed_self, hx, speedTitle, PsVideoControlsView.selectPlay,
      PsVideoControlsView.setSettingsTitle]
  · simpa [Scope.setVideoSpeed_self, hx, PsVideoControlsView.selectPlay,
      PsVideoControlsView.setSettingsTitle] using h.qualityTitle

theorem setVideoQuality (h : Held p err t speed quality s) (r : String) :
    Held p err { t with qualityShown := true } speed r (s.setVideoQuality (some p) r) := by
  refine ⟨?_, ?_, ?_, ?_, ?_, ?_⟩
  · simpa [Scope.setVideoQuality_env, Env.call, PlayerOp.apply] using h.error
  · simpa [Scope.setVideoQuality_env, Env.call, PlayerOp.apply, AVPlayer.isPlaying] using h.playing
  · simpa [Scope.setVideoQuality_self] using h.playerSpeed
  · simp [Scope.setVideoQuality_self]
  · simpa [Scope.setVideoQuality_self, PsVideoControlsView.setQualityTitle] using h.settingsTitle
  · simp [Scope.setVideoQuality_self, PsVideoControlsView.setQualityTitle]

theorem play (h : Held p err t speed quality s) :
    Held p err { t with playing := !err } speed quality (s.call (some p) .play) where
  error := by
    rw [← h.error]
    simp [Env.call, PlayerOp.apply]
  playing := by
    have herr := h.error
    simp [Env.call, PlayerOp.apply, AVPlayer.isPlaying, herr]
  playerSpeed := h.playerSpeed
  playerQuality := h.playerQuality
  settingsTitle := h.settingsTitle
  qualityTitle := h.qualityTitle

theorem seeks (hs : Seeks (some p) s s') (h : Held p err t speed quality s) :
    Held p err t speed quality s' := by
  induction hs with
  | refl s => exact h
  | button _ ih | slider _ _ ih => exact ih (h.controls (fun _ => rfl) fun _ => rfl)
  | seek time _ ih => exact ih (h.call fun _ => rfl)

theorem stopAction (h : Held p err t speed quality s) :
    Held p err { t with playing := false } speed quality (s.stopAction (some p)) := by
  have h1 : Held p err t speed quality (s.call (some p) (.seek (.makeMillis 0))) :=
    h.call fun _ => rfl
  exact h1.pauseAction

theorem addTimeObserver (h : Held p err t speed quality s) (q : Option PlayerId) :
    Held p err t speed quality (s.addTimeObserver q) := by
  cases q <;> exact h.keep ⟨rfl, rfl, rfl, rfl⟩ rfl rfl

/-- A row of the table that is shown. -/
theorem didSelectRowAt (h : Held p err t speed quality s) {settings : Bool} {i : Nat}
    (hc : s.self.controlsView.canTap (.row settings i))
    (hs : s.didSelectRowAt (some p) i = .ok s') :
    Held p err (t.next (some p) err (.fullTap (.row settings i)))
      (Event.speed speed (.fullTap (.row settings i)))
      (Event.quality quality (.fullTap (.row settings i))) s' := by
  obtain ⟨_, hset, _⟩ := hc
  unfold Scope.didSelectRowAt at hs
  cases settings with
  | true =>
    simp only [hset, if_true] at hs
    split at hs
    · cases hs
    · rename_i rate hr
      cases hs
      have h0 : Held p err t speed quality (s.controls ({ · with selectedSpeed := rate })) :=
        h.controls (fun _ => rfl) fun _ => rfl
      have h1 := h0.setVideoSpeed (List.mem_of_getElem? hr)
      have hsp : Event.speed speed (.fullTap (.row true i)) = rate := by simp [Event.speed, hr]
      rw [hsp]
      exact h1.controls (f := (·.hideTable true)) (fun _ => rfl) fun _ => rfl
  | false =>
    simp only [hset, Bool.false_eq_true, if_false] at hs
    split at hs
    · cases hs
    · rename_i quality' hr
      cases hs
      have h0 : Held p err t speed quality (s.controls ({ · with selectedQuality := quality' })) :=
        h.controls (fun _ => rfl) fun _ => rfl
      have h1 := h0.setVideoQuality quality'
      have hq : Event.quality quality (.fullTap (.row false i)) = quality' := by
        simp [Event.quality, hr]
      rw [hq]
      exact h1.controls (f := (·.hideTable true)) (fun _ => rfl) fun _ => rfl

/-- A shared handler, run by a full-screen controller. -/
theorem on {s : FullScope} {f : Option PlayerId → Scope → Scope}
    (h : Held p err t speed quality (f s.self.player s.scope)) :
    Held p err t speed quality (s.on f).scope :=
  ⟨h.error, h.playing, h.playerSpeed, h.playerQuality, h.settingsTitle, h.qualityTitle⟩

theorem tryOn {s s' : FullScope} {f : Option PlayerId → Scope → Except Trap Scope}
    (hf : ∀ r, f s.self.player s.scope = .ok r → Held p err t speed quality r)
    (h : s.tryOn f = .ok s') : Held p err t speed quality s'.scope := by
  unfold FullScope.tryOn at h
  split at h
  · cases h
  · rename_i r hr
    cases h
    have h := hf r hr
    exact ⟨h.error, h.playing, h.playerSpeed, h.playerQuality, h.settingsTitle, h.qualityTitle⟩

end Held

namespace PsVideoFullViewVC

variable {p : PlayerId} {err : Bool} {t : Track} {speed quality : String} {s s' : FullScope}

/-- What `playAction` and `viewDidAppear` end with: both strings are applied, and shown. -/
theorem start_held (h : Held p err t speed quality s.scope) (hp : s.self.player = some p)
    (hs : speed ∈ videoSpeedArray) :
    Held p err { playing := !err, speedShown := true, qualityShown := true } speed quality
      (setVideoQuality (setVideoSpeed s.self.playerSpeed s).self.playerQuality
        (setVideoSpeed s.self.playerSpeed s)).scope := by
  have h1 : Held p err { t with playing := !err, speedShown := true } speed quality
      (setVideoSpeed s.self.playerSpeed s).scope := by
    refine .on ?_
    rw [hp, show s.self.playerSpeed = speed from h.playerSpeed]
    exact h.setVideoSpeed hs
  have hp1 : (setVideoSpeed s.self.playerSpeed s).self.player = some p :=
    (setVideoSpeed_frame _ s).player.trans hp
  refine .on ?_
  rw [hp1, show (setVideoSpeed s.self.playerSpeed s).self.playerQuality = quality from
    h1.playerQuality]
  exact h1.setVideoQuality quality

theorem playAction_held (h : Held p err t speed quality s.scope) (hp : s.self.player = some p)
    (hs : speed ∈ videoSpeedArray) :
    Held p err (t.next (some p) err (.fullTap .play)) speed quality (playAction s).scope := by
  have hplay : s.env.isPlaying s.self.player = t.playing := by
    rw [hp]; exact h.playing
  simp only [playAction, Track.next, hplay]
  split
  · refine .on ?_
    rw [hp]; exact h.pauseAction
  · have h0 : Held p err t speed quality
        (if s.self.timeObserver = none then addTimeObserver s else s).scope := by
      split
      · exact .on (h.addTimeObserver _)
      · exact h
    have hp0 : (if s.self.timeObserver = none then addTimeObserver s else s).self.player = some p := by
      split <;> exact hp
    generalize (if s.self.timeObserver = none then addTimeObserver s else s) = s1 at h0 hp0
    have h1 : Held p err { t with playing := !err } speed quality
        (s1.on fun p => (·.call p .play)).scope := by
      refine .on ?_
      rw [hp0]; exact h0.play
    have h2 : Held p err { t with playing := !err } speed quality
        ((s1.on fun p => (·.call p .play)).on fun _ => (·.controls (·.selectPlay true))).scope :=
      .on (h1.controls (fun _ => rfl) fun _ => rfl)
    exact start_held h2 hp0 hs

theorem viewDidAppear_held (h : Held p err t speed quality s.scope) (hp : s.self.player = some p)
    (hs : speed ∈ videoSpeedArray) :
    Held p err (t.next (some p) err .viewDidAppear) speed quality (viewDidAppear s).scope := by
  have hplay : s.env.isPlaying s.self.player = t.playing := by
    rw [hp]; exact h.playing
  simp only [viewDidAppear, Track.next, hplay]
  split
  · rename_i ht
    -- a player that plays has not failed
    have herr : err = false := by
      have h1 := h.playing
      rw [ht, AVPlayer.isPlaying, h.error] at h1
      cases err with
      | true => simp at h1
      | false => rfl
    subst herr
    have h1 : Held p false { t with playing := true } speed quality
        (s.on fun p => (·.call p .play)).scope := by
      refine .on ?_
      rw [hp]; exact h.play
    have h2 : Held p false { t with playing := true } speed quality
        ((s.on fun p => (·.call p .play)).on fun _ => (·.controls (·.selectPlay true))).scope :=
      .on (h1.controls (fun _ => rfl) fun _ => rfl)
    have h3 : Held p false { t with playing := true } speed quality
        (addTimeObserver ((s.on fun p => (·.call p .play)).on
          fun _ => (·.controls (·.selectPlay true)))).scope := .on (h2.addTimeObserver _)
    have h4 : Held p false { t with playing := true } speed quality
        (startTimer (addTimeObserver ((s.on fun p => (·.call p .play)).on
          fun _ => (·.controls (·.selectPlay true))))).scope :=
      .on (h3.keep ⟨rfl, rfl, rfl, rfl⟩ rfl rfl)
    rw [ht]
    exact start_held h4 hp hs
  · exact h

theorem settingsAction_titles (c : PsVideoControlsView) :
    c.settingsAction.settingsButton.title = c.settingsButton.title ∧
      c.settingsAction.videoQualityButton.title = c.videoQualityButton.title := by
  unfold PsVideoControlsView.settingsAction
  split <;> exact ⟨rfl, rfl⟩

theorem videoQualityAction_titles (c : PsVideoControlsView) :
    c.videoQualityAction.settingsButton.title = c.settingsButton.title ∧
      c.videoQualityAction.videoQualityButton.title = c.videoQualityButton.title := by
  unfold PsVideoControlsView.videoQualityAction
  split <;> exact ⟨rfl, rfl⟩

/-- One tap in the session. -/
theorem control_held {c : Control} (h : Held p err t speed quality s.scope)
    (hp : s.self.player = some p) (hs : speed ∈ videoSpeedArray)
    (hc : s.self.controlsView.canTap c) (hr : control c s = .ok s') :
    Held p err (t.next (some p) err (.fullTap c)) (Event.speed speed (.fullTap c))
      (Event.quality quality (.fullTap c)) s'.scope := by
  cases c with
  | play => cases hr; exact playAction_held h hp hs
  | stop =>
    cases hr
    refine .on ?_
    rw [hp]; exact h.stopAction
  | forward => exact .tryOn (fun r hr => .seeks (.forwardAction (by rw [← hp]; exact hr)) h) hr
  | backward => exact .tryOn (fun r hr => .seeks (.backwardAction (by rw [← hp]; exact hr)) h) hr
  | fullScreen =>
    refine Held.tryOn (fun r hr => ?_) hr
    rw [Scope.removeTimeObserver_ok hr]
    exact h.keep ⟨rfl, rfl, rfl, rfl⟩ rfl rfl
  | slider x =>
    refine .tryOn (f := fun p => (·.sliderAction p x)) (fun r hr => ?_) hr
    rw [hp] at hr
    exact .seeks (.sliderAction hr) h
  | settings =>
    cases hr
    exact .on (h.controls (fun c => (settingsAction_titles c).1) fun c => (settingsAction_titles c).2)
  | videoQuality =>
    cases hr
    exact .on (h.controls (fun c => (videoQualityAction_titles c).1)
      fun c => (videoQualityAction_titles c).2)
  | row settings i =>
    refine .tryOn (f := fun p => (·.didSelectRowAt p i)) (fun r hr => ?_) hr
    rw [hp] at hr
    exact h.didSelectRowAt hc hr
  | controlsView => cases hr; exact h.keep ⟨rfl, rfl, rfl, rfl⟩ rfl rfl
  | playerView => cases hr; exact h.keep ⟨rfl, rfl, rfl, rfl⟩ rfl rfl

end PsVideoFullViewVC

/-! ## The world -/

/-- A session of controller `k` for view `v` is open. -/
structure InSession (k : VcId) (v : ViewId) (p : PlayerId) (err : Bool) (t : Track)
    (speed quality : String) (w : World) : Prop where
  screen : w.screen.vc = some k
  player : (w.vcs k).player = some p
  delegate : (w.vcs k).delegate = v
  speedRow : speed ∈ videoSpeedArray
  qualityRow : quality ∈ videoQualityArray
  held : Held p err t speed quality (w.fullScope k).scope
  registered : k ∈ w.env.backgroundObservers

namespace InSession

variable {k : VcId} {v : ViewId} {p : PlayerId} {err : Bool} {t t' : Track}
  {speed quality speed' quality' : String} {w w' : World}

/-- A handler of the controller itself. -/
theorem fullPut (h : InSession k v p err t speed quality w) {s : FullScope}
    (hf : FullFrame (w.fullScope k) s) (hs : speed' ∈ videoSpeedArray)
    (hq : quality' ∈ videoQualityArray) (hh : Held p err t' speed' quality' s.scope) :
    InSession k v p err t' speed' quality' (w.fullPut k s) := by
  have hself : (w.fullPut k s).vcs k = s.self := by simp [World.fullPut]
  have hsc : (w.fullPut k s).fullScope k = s := World.fullScope_fullPut hf.frame.me
  exact ⟨h.screen, by rw [hself]; exact hf.player.trans h.player,
    by rw [hself]; exact hf.delegate.trans h.delegate, hs, hq, by rw [hsc]; exact hh,
    hf.frame.backgroundObservers.symm ▸ h.registered⟩

/-- What leaves the controller alone and may stop or start the player. -/
theorem aside (h : InSession k v p err t speed quality w) {b : Bool}
    (hs : w'.screen.vc = w.screen.vc) (hk : w'.vcs k = w.vcs k)
    (hr : w'.env.backgroundObservers = w.env.backgroundObservers)
    (he : (w'.env.players p).error = (w.env.players p).error)
    (hp : (w'.env.players p).isPlaying = b) :
    InSession k v p err { t with playing := b } speed quality w' :=
  ⟨hs.trans h.screen, by rw [hk]; exact h.player, by rw [hk]; exact h.delegate, h.speedRow,
    h.qualityRow, h.held.aside (by simp [FullScope.scope, World.fullScope, hk]) he hp,
    hr.symm ▸ h.registered⟩

/-- A handler of a view or of another controller that gives no command. -/
theorem silent (h : InSession k v p err t speed quality w) (hs : w'.screen.vc = w.screen.vc)
    (hk : w'.vcs k = w.vcs k)
    (hr : w'.env.backgroundObservers = w.env.backgroundObservers)
    (hp : w'.env.players = w.env.players) : InSession k v p err t speed quality w' :=
  h.aside (b := t.playing) hs hk hr (by rw [hp]) (by rw [hp]; exact h.held.playing)

theorem silentStep (h : InSession k v p err t speed quality w) (hs : SilentStep w w') :
    InSession k v p err t speed quality w' := by
  cases hs with
  | refl => exact h
  | put hs => exact h.silent rfl rfl hs.backgroundObservers hs.players
  | @fullPut j s hf hs =>
    by_cases hj : j = k
    · subst hj
      exact h.fullPut hf h.speedRow h.qualityRow (h.held.silent hs)
    · refine h.silent rfl ?_ hs.backgroundObservers hs.players
      simp [World.fullPut, Function.update_of_ne (Ne.symm hj)]

/-- A controller pauses its player: the session's own does, another one may. -/
theorem pause (h : InSession k v p err t speed quality w) (j : VcId) :
    ∃ b, (b = t.playing ∨ b = false) ∧ (j = k → b = false) ∧
      InSession k v p err { t with playing := b } speed quality
        (w.fullPut j (PsVideoFullViewVC.appMovedToBackground (w.fullScope j))) := by
  have hf := PsVideoFullViewVC.pauseAction_frame (w.fullScope j)
  by_cases hj : j = k
  · subst hj
    have hh : Held p err { t with playing := false } speed quality
        (PsVideoFullViewVC.appMovedToBackground (w.fullScope j)).scope := by
      refine .on ?_
      rw [show (w.fullScope j).self.player = some p from h.player]
      exact h.held.pauseAction
    exact ⟨false, .inr rfl, fun _ => rfl, h.fullPut hf h.speedRow h.qualityRow hh⟩
  · have hk : (w.fullPut j (PsVideoFullViewVC.appMovedToBackground (w.fullScope j))).vcs k =
        w.vcs k := by simp [World.fullPut, Function.update_of_ne (Ne.symm hj)]
    by_cases hp : (w.vcs j).player = some p
    · refine ⟨false, .inr rfl, fun _ => rfl,
        h.aside rfl hk hf.frame.backgroundObservers (hf.frame.error p) ?_⟩
      have hpl : (PsVideoFullViewVC.appMovedToBackground (w.fullScope j)).env.players p =
          PlayerOp.pause.apply (w.env.players p) := by
        simp [PsVideoFullViewVC.appMovedToBackground, PsVideoFullViewVC.pauseAction, FullScope.on,
          FullScope.put, Scope.pauseAction, FullScope.scope, World.fullScope, Env.call, hp]
      simp [World.fullPut, hpl, PlayerOp.apply, AVPlayer.isPlaying]
    · have hc := Commands.pauseAction (p := (w.vcs j).player) (w.fullScope j).scope
      refine ⟨t.playing, .inl rfl, fun hjk => absurd hjk hj,
        h.aside rfl hk hf.frame.backgroundObservers (hf.frame.error p) ?_⟩
      exact (congrArg AVPlayer.isPlaying (hc.others p hp)).trans h.held.playing

/-- The notification of the background reaches the controller of the session. -/
theorem background : ∀ (l : List Registration) (t : Track) (w : World),
    InSession k v p err t speed quality w →
    (k ∈ l.filterMap Registration.controller ∨ t.playing = false) →
    InSession k v p err { t with playing := false } speed quality
      (l.foldl World.notifyBackground w) := by
  intro l
  induction l with
  | nil =>
    intro t w h hl
    have ht : t.playing = false := by simpa using hl
    rw [← ht]
    exact h
  | cons r l ih =>
    intro t w h hl
    simp only [List.foldl_cons, World.notifyBackground]
    have hother : r.controller ≠ some k → (k ∈ l.filterMap Registration.controller ∨
        t.playing = false) := by
      intro hr
      refine hl.imp_left fun hl => ?_
      obtain ⟨x, hx, hk⟩ := List.mem_filterMap.mp hl
      obtain rfl | hx := List.mem_cons.mp hx
      · exact absurd hk hr
      · exact List.mem_filterMap.mpr ⟨x, hx, hk⟩
    split
    · rename_i j hj
      split
      · obtain ⟨b, hb, hbk, h1⟩ := h.pause j
        refine ih { t with playing := b } _ h1 ?_
        by_cases hjk : j = k
        · exact .inr (hbk hjk)
        · rcases hother (by rw [hj]; simpa using hjk) with hl | hl
          · exact .inl hl
          · rcases hb with hb | hb
            · exact .inr (hb.trans hl)
            · exact .inr hb
      · rename_i hna
        refine ih _ _ h (hother fun hk => hna ?_)
        -- the controller on the screen is alive
        obtain rfl : j = k := Option.some.inj (hj.symm.trans hk)
        simp [World.vcAlive, h.screen]
    · rename_i hj
      exact ih _ _ h (hother (by rw [hj]; simp))

theorem step {accepts : String → Bool} {e : Event} (hi : InSession k v p err t speed quality w)
    (hin : e.inSession = true) (he : w.enabled e) (h : w.step accepts e = .ok w') :
    InSession k v p err (t.next (some p) err e) (e.speed speed) (e.quality quality) w' := by
  cases e with
  | fullTap c =>
    obtain ⟨j, s, hj, _, hcan, hr, rfl⟩ := fullTap_ok he h
    obtain rfl : j = k := Option.some.inj (hj.symm.trans hi.screen)
    have h1 := hi.fullPut (PsVideoFullViewVC.control_frame hr) (Event.speed_mem hi.speedRow _)
      (Event.quality_mem hi.qualityRow _)
      (PsVideoFullViewVC.control_held hi.held hi.player hi.speedRow hcan hr)
    refine h1.silent ?_ rfl rfl rfl
    dsimp only
    split
    · exact hi.screen.symm
    · rfl
  | viewDidAppear =>
    obtain ⟨j, hj, rfl⟩ := viewDidAppear_ok he h
    obtain rfl : j = k := Option.some.inj ((congrArg Screen.vc hj).symm.trans hi.screen)
    have h1 := hi.fullPut (PsVideoFullViewVC.viewDidAppear_frame (w.fullScope j)) hi.speedRow
      hi.qualityRow (PsVideoFullViewVC.viewDidAppear_held hi.held hi.player hi.speedRow)
    exact h1.silent hi.screen.symm rfl rfl rfl
  | timer h0 => cases h; exact hi.silentStep (.timer w h0)
  | tick h0 => exact hi.silentStep (.tick h)
  | background => cases h; exact background _ _ _ hi (.inl hi.registered)
  | itemProgress q status duration time =>
    cases h
    refine hi.aside (b := t.playing) rfl rfl rfl ?_ ?_
    · by_cases hq : p = q
      · subst hq; simp [World.updatePlayer, AVPlayer.progress]
      · simp [World.updatePlayer, Function.update_of_ne hq]
    · rw [← hi.held.playing]
      by_cases hq : p = q
      · subst hq; simp [World.updatePlayer, AVPlayer.progress, AVPlayer.isPlaying,
          World.fullScope, FullScope.scope]
      · simp [World.updatePlayer, Function.update_of_ne hq, World.fullScope, FullScope.scope]
  | itemEnd q =>
    cases h
    simp only [Track.next]
    by_cases hq : p = q
    · subst hq
      rw [if_pos rfl]
      refine hi.aside rfl rfl rfl ?_ ?_
      · simp [World.updatePlayer, AVPlayer.ended]
      · simp [World.updatePlayer, AVPlayer.ended, AVPlayer.isPlaying]
    · rw [if_neg (fun h => hq (Option.some.inj h))]
      refine hi.aside (b := t.playing) rfl rfl rfl ?_ ?_
      · simp [World.updatePlayer, Function.update_of_ne hq]
      · rw [← hi.held.playing]
        simp [World.updatePlayer, Function.update_of_ne hq, World.fullScope, FullScope.scope]
  | _ => cases hin

end InSession

/-- The events of the session in order. -/
theorem InSession.steps {accepts : String → Bool} {k : VcId} {v : ViewId} {p : PlayerId} {err : Bool}
    {es : List Event} : ∀ {t : Track} {speed quality : String} {w w' : World},
    InSession k v p err t speed quality w → (∀ e ∈ es, e.inSession = true) →
    Steps (app accepts) w es w' →
    InSession k v p err (es.foldl (Track.next (some p) err) t) (es.foldl Event.speed speed)
      (es.foldl Event.quality quality) w' := by
  induction es with
  | nil =>
    intro t speed quality w w' hi _ h
    obtain rfl := h.nil_inv
    exact hi
  | cons e es ih =>
    intro t speed quality w w' hi hin h
    cases h with
    | cons he hs hr =>
      exact ih (hi.step (hin e (by simp)) he hs) (fun e he => hin e (List.mem_cons_of_mem _ he)) hr

/-- The session opens with both buttons at their first titles. -/
theorem InSession.opened {accepts : String → Bool} {v : ViewId} {p : PlayerId} {w w' : World}
    (hp : w.env.player = some p) (hs : (w.views v).playerSpeed ∈ videoSpeedArray)
    (hq : (w.views v).playerQuality ∈ videoQualityArray)
    (h : w.step accepts (.tap v .fullScreen) = .ok w') :
    InSession (w.nextVc v) v p (w.env.players p).error { playing := w.env.isPlaying w.env.player }
      (w.views v).playerSpeed (w.views v).playerQuality w' := by
  obtain ⟨s, layer, hrem, _, _, rfl⟩ := fullScreen_ok h
  have hs' := Scope.removeTimeObserver_ok hrem
  have hpl : s.env.players = w.env.players := by rw [hs']; rfl
  refine ⟨rfl, ?_, ?_, hs, hq, ⟨?_, ?_, ?_, ?_, ?_, ?_⟩, ?_⟩
  · simpa [presentedVC, World.scope] using hp
  · simp [presentedVC]
  · simp [World.fullScope, FullScope.scope, World.put, Env.addSublayer, Env.addObserver, hpl]
  · simp [World.fullScope, FullScope.scope, World.put, Env.addSublayer, Env.addObserver, hpl, hp,
      Env.isPlaying]
  · simp [World.fullScope, FullScope.scope, presentedVC, World.scope]
  · simp [World.fullScope, FullScope.scope, presentedVC, World.scope]
  · simp [World.fullScope, FullScope.scope, presentedVC]
  · simp [World.fullScope, FullScope.scope, presentedVC]
  · simp [World.put, Env.backgroundObservers, Env.addSublayer, Env.addObserver,
      Registration.controller]

theorem Event.quiet_of_inSession {e : Event} (h : e.inSession = true) : e.quiet = true := by
  cases e with
  | fullTap c => rfl
  | viewDidAppear | timer t | tick t | background | itemEnd q => rfl
  | itemProgress q status duration time => rfl
  | _ => cases h

/-- `viewDismissed` stores the two texts, and applying them does not change them. -/
theorem PsVideoView.viewDismissed_texts (p : PlayerId) (layer : Handle) (quality speed : String)
    (s : Scope) : (viewDismissed p layer quality speed s).self.playerSpeed = speed ∧
      (viewDismissed p layer quality speed s).self.playerQuality = quality := by
  unfold viewDismissed
  dsimp only
  split
  · simp [Scope.setVideoQuality_self, Scope.setVideoSpeed_self, Scope.startTimer, addTimeObserver,
      receive]
  · exact ⟨rfl, rfl⟩

/-- The player has failed. -/
def Env.failed (e : Env) (p : Option PlayerId) : Bool := p.elim false fun q => (e.players q).error

/-- What the session shows when it ends, if it was opened in `w`. -/
def World.track (w : World) (es : List Event) : Track :=
  es.foldl (Track.next w.env.player (w.env.failed w.env.player))
    { playing := w.env.isPlaying w.env.player }

/-- The speed to hand back is not `.5x` and has been shown, or is `1.0x`; the quality has been
shown, or is `360p`. -/
def HandsBack (t : Track) (speed quality : String) : Prop :=
  (if t.speedShown then speed ≠ ".5x" else speed = "1.0x") ∧
    (t.qualityShown = true ∨ quality = "360p")

instance (t : Track) (speed quality : String) : Decidable (HandsBack t speed quality) := by
  unfold HandsBack
  infer_instance

theorem Held.handsBack_iff {p : PlayerId} {err : Bool} {t : Track} {speed quality : String}
    {s : Scope} (h : Held p err t speed quality s) (hs : speed ∈ videoSpeedArray)
    (hq : quality ∈ videoQualityArray) :
    s.self.controlsView.settingsButton.title = speed ∧
      s.self.controlsView.videoQualityButton.title = quality ↔ HandsBack t speed quality := by
  have h1 : s.self.controlsView.settingsButton.title = speed ↔
      if t.speedShown then speed ≠ ".5x" else speed = "1.0x" := by
    rw [h.settingsTitle]
    cases t.speedShown with
    | true => simpa using speedTitle_eq hs
    | false => simpa using eq_comm
  have h2 : s.self.controlsView.videoQualityButton.title = quality ↔
      t.qualityShown = true ∨ quality = "360p" := by
    rw [h.qualityTitle]
    cases t.qualityShown with
    | true => simpa using qualitySetting_eq hq
    | false => simpa using eq_comm
  rw [h1, h2]
  rfl

/-- **When the round trip keeps the speed and the quality.** The view's two strings are rows of the
tables, a session is opened, any events happen in it, and it is dismissed. The view has the speed
and the quality last selected, in the session or before it, exactly if the session shows both at its
end. -/
theorem hands_back_iff {accepts : String → Bool} {v : ViewId} {es : List Event} {w w' : World}
    (hs : (w.views v).playerSpeed ∈ videoSpeedArray)
    (hq : (w.views v).playerQuality ∈ videoQualityArray) (hin : ∀ e ∈ es, e.inSession = true)
    (h : Steps (app accepts) w (.tap v .fullScreen :: (es ++ [.viewDismissed])) w') :
    ((w'.views v).playerSpeed = es.foldl Event.speed (w.views v).playerSpeed ∧
      (w'.views v).playerQuality = es.foldl Event.quality (w.views v).playerQuality) ↔
    HandsBack (w.track es) (es.foldl Event.speed (w.views v).playerSpeed)
      (es.foldl Event.quality (w.views v).playerQuality) := by
  cases h with
  | @cons _ w1 _ _ _ he h1 hr =>
    have h1 : w.step accepts (.tap v .fullScreen) = .ok w1 := h1
    obtain ⟨w2, h2, he3, h3⟩ := hr.snoc_inv
    have h3 : w2.step accepts .viewDismissed = .ok w' := h3
    have hk : w1.screen.vc = some (w.nextVc v) ∧ (w1.vcs (w.nextVc v)).player = w.env.player := by
      obtain ⟨s, layer, _, _, _, rfl⟩ := fullScreen_ok h1
      exact ⟨rfl, by simp [presentedVC, World.scope]⟩
    have hquiet := quiet_steps (fun e he => Event.quiet_of_inSession (hin e he)) h2
    obtain ⟨k, p, layer, hk2, hp2, _, rfl⟩ := viewDismissed_ok he3 h3
    obtain rfl : k = w.nextVc v := Option.some.inj (hk2.symm.trans (hquiet.screen.trans hk.1))
    have hp : w.env.player = some p := by
      rw [← hk.2, ← hquiet.vcPlayer]; exact hp2
    have hi := (InSession.opened hp hs hq h1).steps hin h2
    obtain ⟨ht1, ht2⟩ := PsVideoView.viewDismissed_texts p layer
      (w2.vcs (w.nextVc v)).controlsView.videoQualityButton.title
      (w2.vcs (w.nextVc v)).controlsView.settingsButton.title (w2.scope v)
    rw [hi.delegate]
    simp only [World.put, Function.update_self]
    rw [ht1, ht2]
    have hh := hi.held.handsBack_iff hi.speedRow hi.qualityRow
    rw [hp] at hh
    rw [World.track, hp]
    exact hh

/-- A session opened while the video plays, in which the speed is changed. -/
theorem hands_back_session : ∃ w w', Steps (app fun _ => true) .oneView
    [.property 0 (.url "a"), .property 0 (.play true), .delayedBlock 0] w ∧
    Steps (app fun _ => true) w [.tap 0 .fullScreen, .viewDidAppear, .fullTap .settings,
      .fullTap (.row true 4), .fullTap .fullScreen, .viewDismissed] w' ∧
    (w'.views 0).playerSpeed = "1.5x" ∧ (w'.views 0).playerQuality = "360p" := by
  let es : List Event := [.viewDidAppear, .fullTap .settings, .fullTap (.row true 4),
    .fullTap .fullScreen]
  obtain ⟨w, hw, hobs⟩ := Steps.of_exec_map (app fun _ => true) .oneView
    [.property 0 (.url "a"), .property 0 (.play true), .delayedBlock 0]
    (fun w => ((w.views 0).playerSpeed, (w.views 0).playerQuality,
      decide (HandsBack (w.track es) "1.5x" "360p"),
      ((app fun _ => true).exec w (.tap 0 .fullScreen :: (es ++ [.viewDismissed]))).map fun _ => ()))
    (a := ("1.0x", "360p", true, some ())) (by decide +kernel)
  obtain ⟨hs, h⟩ := Prod.mk.inj hobs
  obtain ⟨hq, h⟩ := Prod.mk.inj h
  obtain ⟨hb, hr⟩ := Prod.mk.inj h
  obtain ⟨w', hw', _⟩ := Option.map_eq_some_iff.mp hr
  have hiff := hands_back_iff (by rw [hs]; decide) (by rw [hq]; decide) (by decide)
    (Steps.of_exec hw')
  rw [hs, hq] at hiff
  exact ⟨w, w', hw, .of_exec hw', hiff.mpr (of_decide_eq_true hb)⟩

/-- A session opened while the video is paused shows neither string, so the speed selected before
it is lost. -/
theorem not_hands_back : ∃ w w', Steps (app fun _ => true) .oneView
    [.property 0 (.url "a"), .property 0 (.play true), .delayedBlock 0, .tap 0 .settings,
      .tap 0 (.row true 4), .tap 0 .play] w ∧
    Steps (app fun _ => true) w [.tap 0 .fullScreen, .viewDidAppear, .fullTap .fullScreen,
      .viewDismissed] w' ∧
    (w.views 0).playerSpeed = "1.5x" ∧ (w'.views 0).playerSpeed = "1.0x" := by
  obtain ⟨w, hw, hobs⟩ := Steps.of_exec_map (app fun _ => true) .oneView
    [.property 0 (.url "a"), .property 0 (.play true), .delayedBlock 0, .tap 0 .settings,
      .tap 0 (.row true 4), .tap 0 .play]
    (fun w => ((w.views 0).playerSpeed, ((app fun _ => true).exec w [.tap 0 .fullScreen,
      .viewDidAppear, .fullTap .fullScreen, .viewDismissed]).map fun w' : World =>
        (w'.views 0).playerSpeed))
    (a := ("1.5x", some "1.0x")) (by decide +kernel)
  obtain ⟨hs, hr⟩ := Prod.mk.inj hobs
  obtain ⟨w', hw', hs'⟩ := Option.map_eq_some_iff.mp hr
  exact ⟨w, w', hw, .of_exec hw', hs, hs'⟩

end PsVideo
