import Mathlib.Data.List.Basic
import PsVideo.App

/-!
# PsVideo.Frame

What a handler leaves alone, said once for each handler.

* `Frame s s'`: the static player, the layers, the observers of the background, the object's own
  layer and the delegate of its controls are unchanged, no player gains or loses an error, the
  commands given are the object's own, and so are the time observers registered and the token and
  the timer that its fields get. It holds of every handler but `initVideoPlayer`,
  `fullScreenAction` and `viewDismissed`.
* `Commands p s s'`: moreover of the environment only `calls` and the player `p` change, and of the
  object only the controls and the two settings. It holds of the handlers that only command the
  player and update the controls.
* `Silent s s'`: no command at all, and of the object only the controls' looks and its timer
  change. It holds of the timers and the ticks.
-/

namespace PsVideo

open Scope

/-- What the fields of `c'` hold was in those of `c` already, or `o` has made it. -/
structure Owns (o : Owner) (c c' : Controller) : Prop where
  timeObserver : ∀ t, c'.timeObserver = some t → c.timeObserver = some t ∨ t.owner = o
  timer : ∀ t, c'.timer = some t → c.timer = some t ∨ t.owner = o

namespace Owns

variable {o : Owner} {c c' c'' : Controller}

theorem same (h1 : c'.timeObserver = c.timeObserver) (h2 : c'.timer = c.timer) : Owns o c c' :=
  ⟨fun _ ht => .inl (h1 ▸ ht), fun _ ht => .inl (h2 ▸ ht)⟩

theorem refl (c : Controller) : Owns o c c := same rfl rfl

theorem trans (h₁ : Owns o c c') (h₂ : Owns o c' c'') : Owns o c c'' :=
  ⟨fun t ht => (h₂.timeObserver t ht).elim (h₁.timeObserver t) .inr,
    fun t ht => (h₂.timer t ht).elim (h₁.timer t) .inr⟩

end Owns

/-- A method reference is no object that is registered. -/
theorem Env.removeObserver_method (e : Env) (n : NotificationName) :
    (e.removeObserver .method n).backgroundObservers = e.backgroundObservers := by
  unfold Env.backgroundObservers Env.removeObserver
  rw [List.filterMap_filter]
  refine List.filterMap_congr fun r _ => ?_
  split
  · rfl
  · rename_i hr
    obtain rfl : r = ⟨.method, n⟩ := by simpa using hr
    rfl

structure Frame (s s' : Scope) : Prop where
  me : s'.me = s.me
  player : s'.env.player = s.env.player
  playerCount : s'.env.playerCount = s.env.playerCount
  layerPlayer : s'.env.layerPlayer = s.env.layerPlayer
  superlayer : s'.env.superlayer = s.env.superlayer
  backgroundObservers : s'.env.backgroundObservers = s.env.backgroundObservers
  playerLayer : s'.self.playerLayer = s.self.playerLayer
  controlsDelegate : s'.self.controlsDelegate = s.self.controlsDelegate
  error : ∀ q, (s'.env.players q).error = (s.env.players q).error
  calls : ∃ l, s'.env.calls = s.env.calls ++ l ∧ ∀ c ∈ l, c.caller = s.me
  observed : ∀ x ∈ s'.env.observers, x ∈ s.env.observers ∨ x.token.owner = s.me
  owns : Owns s.me s.self s'.self

structure Commands (p : Option PlayerId) (s s' : Scope) : Prop extends Frame s s' where
  env : s'.env = { s.env with players := s'.env.players, calls := s'.env.calls }
  timeObserver : s'.self.timeObserver = s.self.timeObserver
  timer : s'.self.timer = s.self.timer
  isTimerRunning : s'.self.isTimerRunning = s.self.isTimerRunning
  others : ∀ q, p ≠ some q → s'.env.players q = s.env.players q

/-- What going forward, going back and the slider do: at most one seek, after the button or the
slider has been set. -/
inductive Seeks (p : Option PlayerId) : Scope → Scope → Prop where
  | refl (s : Scope) : Seeks p s s
  | button {s s' : Scope} : Seeks p (s.controls (·.selectPlay false)) s' → Seeks p s s'
  | slider {s s' : Scope} (x : Seconds) :
      Seeks p (s.controls ({ · with sliderValue := x })) s' → Seeks p s s'
  | seek {s s' : Scope} (time : CMTime) : Seeks p (s.call p (.seek time)) s' → Seeks p s s'

namespace Seeks

variable {p : Option PlayerId} {s s' : Scope}

theorem seekTo {q : PlayerId} {ms : Seconds} (h : s.seekTo q ms = .ok s') : Seeks (some q) s s' := by
  unfold Scope.seekTo at h
  split at h
  · cases h
  · cases h; exact .seek _ (.refl _)

variable [Arithmetic]

theorem forwardAction (h : s.forwardAction p = .ok s') : Seeks p s s' := by
  unfold Scope.forwardAction at h
  split at h
  · cases h; exact .refl s
  · split at h
    · cases h; exact .refl s
    · split at h
      · exact .button (seekTo h)
      · exact seekTo h

theorem backwardAction (h : s.backwardAction p = .ok s') : Seeks p s s' := by
  unfold Scope.backwardAction at h
  split at h
  · cases h
  · exact seekTo h

theorem sliderAction {x : Seconds} (h : s.sliderAction p x = .ok s') : Seeks p s s' := by
  unfold Scope.sliderAction at h
  cases p with
  | none => cases h; exact .slider _ (.refl _)
  | some q => exact .slider _ (seekTo h)

end Seeks

/-- `removeTimeObserver` changes nothing but the list of observers. -/
theorem Scope.removeTimeObserver_ok {p : Option PlayerId} {s s' : Scope}
    (h : s.removeTimeObserver p = .ok s') :
    s' = { s with env := { s.env with observers := s'.env.observers } } := by
  unfold Scope.removeTimeObserver Env.removeTimeObserver at h
  split at h
  · split at h
    · cases h
    · rename_i hr
      split at hr
      · cases hr; cases h; rfl
      · cases hr
  · cases h; rfl

theorem Scope.removeTimeObserver_subset {p : Option PlayerId} {s s' : Scope}
    (h : s.removeTimeObserver p = .ok s') : ∀ x ∈ s'.env.observers, x ∈ s.env.observers := by
  unfold Scope.removeTimeObserver Env.removeTimeObserver at h
  split at h
  · split at h
    · cases h
    · rename_i hr
      split at hr
      · cases hr; cases h; exact fun x hx => List.mem_of_mem_filter hx
      · cases hr
  · cases h; exact fun _ => id

namespace Frame

theorem refl (s : Scope) : Frame s s where
  me := rfl
  player := rfl
  playerCount := rfl
  layerPlayer := rfl
  superlayer := rfl
  backgroundObservers := rfl
  playerLayer := rfl
  controlsDelegate := rfl
  error _ := rfl
  calls := ⟨[], (List.append_nil _).symm, by simp⟩
  observed _ := .inl
  owns := .refl _

theorem trans {s s' s'' : Scope} (h₁ : Frame s s') (h₂ : Frame s' s'') : Frame s s'' where
  me := h₂.me.trans h₁.me
  player := h₂.player.trans h₁.player
  playerCount := h₂.playerCount.trans h₁.playerCount
  layerPlayer := h₂.layerPlayer.trans h₁.layerPlayer
  superlayer := h₂.superlayer.trans h₁.superlayer
  backgroundObservers := h₂.backgroundObservers.trans h₁.backgroundObservers
  playerLayer := h₂.playerLayer.trans h₁.playerLayer
  controlsDelegate := h₂.controlsDelegate.trans h₁.controlsDelegate
  error q := (h₂.error q).trans (h₁.error q)
  calls := by
    obtain ⟨l, hl, hc⟩ := h₁.calls
    obtain ⟨l', hl', hc'⟩ := h₂.calls
    refine ⟨l ++ l', by rw [hl', hl, List.append_assoc], fun c hm => ?_⟩
    rcases List.mem_append.mp hm with hm | hm
    · exact hc c hm
    · rw [← h₁.me]; exact hc' c hm
  observed x hx := by
    rcases h₂.observed x hx with hx | hx
    · exact h₁.observed x hx
    · rw [h₁.me] at hx; exact .inr hx
  owns := h₁.owns.trans (by rw [← h₁.me]; exact h₂.owns)

theorem addTimeObserver (p : Option PlayerId) (s : Scope) : Frame s (s.addTimeObserver p) := by
  cases p with
  | none => exact { refl s with owns := ⟨(fun t ht => by cases ht), fun _ => .inl⟩ }
  | some q =>
    refine { refl s with
      observed := fun x hx => (List.mem_append.mp hx).imp_right fun hx => ?_
      owns := ⟨(fun t ht => by cases ht; exact .inr rfl), fun _ => .inl⟩ }
    rw [List.mem_singleton.mp hx]
    rfl

theorem removeTimeObserver {p : Option PlayerId} {s s' : Scope}
    (h : s.removeTimeObserver p = .ok s') : Frame s s' := by
  have hsub := Scope.removeTimeObserver_subset h
  rw [Scope.removeTimeObserver_ok h] at hsub ⊢
  exact { refl s with observed := fun x hx => .inl (hsub x hx) }

theorem startTimer (s : Scope) : Frame s s.startTimer :=
  { refl s with owns := ⟨fun _ => .inl, fun t ht => by cases ht; exact .inr rfl⟩ }

theorem resetTimer (s : Scope) : Frame s s.resetTimer := { refl s with }

end Frame

namespace Commands

variable {p : Option PlayerId}

theorem refl (s : Scope) : Commands p s s :=
  ⟨.refl s, rfl, rfl, rfl, rfl, fun _ _ => rfl⟩

theorem trans {s s' s'' : Scope} (h₁ : Commands p s s') (h₂ : Commands p s' s'') :
    Commands p s s'' where
  toFrame := h₁.toFrame.trans h₂.toFrame
  env := h₂.env.trans (by rw [h₁.env])
  timeObserver := h₂.timeObserver.trans h₁.timeObserver
  timer := h₂.timer.trans h₁.timer
  isTimerRunning := h₂.isTimerRunning.trans h₁.isTimerRunning
  others q hq := (h₂.others q hq).trans (h₁.others q hq)

theorem observers {s s' : Scope} (h : Commands p s s') :
    s'.env.observers = s.env.observers := by
  rw [h.env]

theorem timers {s s' : Scope} (h : Commands p s s') : s'.env.timers = s.env.timers := by
  rw [h.env]

theorem controls (s : Scope) (f : PsVideoControlsView → PsVideoControlsView) :
    Commands p s (s.controls f) :=
  { refl s with owns := .same rfl rfl }

theorem call (s : Scope) (op : PlayerOp) : Commands p s (s.call p op) := by
  cases p with
  | none => exact refl s
  | some q =>
    refine { refl (p := some q) s with
      error := Env.error_call _ _ _ _
      calls := ⟨[⟨s.me, q, op⟩], rfl, by simp⟩
      env := rfl
      others := fun r hr => ?_ }
    have hrq : r ≠ q := fun h => hr (by rw [h])
    exact Env.players_call_of_ne _ _ _ hrq

theorem pauseAction (s : Scope) : Commands p s (s.pauseAction p) :=
  (call s .pause).trans (controls _ _)

theorem stopAction (s : Scope) : Commands p s (s.stopAction p) :=
  ((call s _).trans (call _ _)).trans (controls _ _)

theorem seeks {s s' : Scope} (h : Seeks p s s') : Commands p s s' := by
  induction h with
  | refl s => exact refl s
  | button _ ih => exact (controls _ _).trans ih
  | slider x _ ih => exact (controls _ _).trans ih
  | seek time _ ih => exact (call _ _).trans ih

theorem forwardAction [Arithmetic] {s s' : Scope} (h : s.forwardAction p = .ok s') : Commands p s s' :=
  seeks (.forwardAction h)

theorem backwardAction [Arithmetic] {s s' : Scope} (h : s.backwardAction p = .ok s') : Commands p s s' :=
  seeks (.backwardAction h)

theorem sliderAction [Arithmetic] {x : Seconds} {s s' : Scope} (h : s.sliderAction p x = .ok s') :
    Commands p s s' := seeks (.sliderAction h)

theorem setBitRate (d : String) (s : Scope) : Commands p s (s.setBitRate p d) := call s _

theorem storeSpeed (s : Scope) (r : String) : Commands p s (s.storeSpeed r) :=
  { refl s with owns := .same rfl rfl }

theorem storeQuality (s : Scope) (q : String) : Commands p s (s.storeQuality q) :=
  { refl s with owns := .same rfl rfl }

theorem setVideoSpeed (r : String) (s : Scope) : Commands p s (s.setVideoSpeed p r) := by
  have h0 := ((controls (p := p) s (·.resetControls)).trans (storeSpeed _ r)).trans
    (controls _ ({ · with selectedSpeed := r }))
  unfold Scope.setVideoSpeed
  dsimp only
  cases speedSetting r with
  | none => exact h0.trans (controls _ _)
  | some x => exact ((h0.trans (call _ _)).trans (controls _ _)).trans (controls _ _)

theorem setVideoQuality (q : String) (s : Scope) : Commands p s (s.setVideoQuality p q) := by
  have h0 := ((controls (p := p) s (·.resetControls)).trans (storeQuality _ q)).trans
    (controls _ ({ · with selectedQuality := q }))
  unfold Scope.setVideoQuality
  dsimp only
  exact (h0.trans (setBitRate _ _)).trans (controls _ _)

theorem didSelectRowAt {i : Nat} {s s' : Scope} (h : s.didSelectRowAt p i = .ok s') :
    Commands p s s' := by
  unfold Scope.didSelectRowAt at h
  split at h
  · split at h
    · cases h
    · cases h; exact ((controls s _).trans (setVideoSpeed _ _)).trans (controls _ _)
  · split at h
    · cases h
    · cases h; exact ((controls s _).trans (setVideoQuality _ _)).trans (controls _ _)

theorem showTimes {item : AVPlayerItem} {s s' : Scope} (h : s.showTimes item = .ok s') :
    Commands p s s' := by
  unfold Scope.showTimes at h
  dsimp only at h
  split at h
  · cases h
  · split at h
    · cases h
    · cases h; exact (controls s _).trans (controls _ _)

end Commands

structure Silent (s s' : Scope) : Prop extends Frame s s' where
  players : s'.env.players = s.env.players
  observers : s'.env.observers = s.env.observers
  noCalls : s'.env.calls = s.env.calls
  timeObserver : s'.self.timeObserver = s.self.timeObserver
  playerSpeed : s'.self.playerSpeed = s.self.playerSpeed
  playerQuality : s'.self.playerQuality = s.self.playerQuality
  playButton : s'.self.controlsView.playButton = s.self.controlsView.playButton
  settingsTitle :
    s'.self.controlsView.settingsButton.title = s.self.controlsView.settingsButton.title
  qualityTitle :
    s'.self.controlsView.videoQualityButton.title = s.self.controlsView.videoQualityButton.title

namespace Silent

theorem refl (s : Scope) : Silent s s := ⟨.refl s, rfl, rfl, rfl, rfl, rfl, rfl, rfl, rfl, rfl⟩

theorem trans {s s' s'' : Scope} (h₁ : Silent s s') (h₂ : Silent s' s'') : Silent s s'' where
  toFrame := h₁.toFrame.trans h₂.toFrame
  players := h₂.players.trans h₁.players
  observers := h₂.observers.trans h₁.observers
  noCalls := h₂.noCalls.trans h₁.noCalls
  timeObserver := h₂.timeObserver.trans h₁.timeObserver
  playerSpeed := h₂.playerSpeed.trans h₁.playerSpeed
  playerQuality := h₂.playerQuality.trans h₁.playerQuality
  playButton := h₂.playButton.trans h₁.playButton
  settingsTitle := h₂.settingsTitle.trans h₁.settingsTitle
  qualityTitle := h₂.qualityTitle.trans h₁.qualityTitle

theorem hide (s : Scope) (b : Bool) : Silent s (s.controls (·.hide b)) :=
  ⟨(Commands.controls (p := none) s _).toFrame, rfl, rfl, rfl, rfl, rfl, rfl, rfl, rfl, rfl⟩

theorem resetControls (s : Scope) : Silent s (s.controls (·.resetControls)) :=
  ⟨(Commands.controls (p := none) s _).toFrame, rfl, rfl, rfl, rfl, rfl, rfl, rfl, rfl, rfl⟩

theorem startTimer (s : Scope) : Silent s s.startTimer :=
  ⟨.startTimer s, rfl, rfl, rfl, rfl, rfl, rfl, rfl, rfl, rfl⟩

theorem resetTimer (s : Scope) : Silent s s.resetTimer :=
  ⟨.resetTimer s, rfl, rfl, rfl, rfl, rfl, rfl, rfl, rfl, rfl⟩

theorem showTimes {item : AVPlayerItem} {s s' : Scope} (h : s.showTimes item = .ok s') :
    Silent s s' := by
  have hf : Frame s s' := (Commands.showTimes (p := none) h).toFrame
  unfold Scope.showTimes at h
  dsimp only at h
  split at h
  · cases h
  · split at h
    · cases h
    · cases h; exact ⟨hf, rfl, rfl, rfl, rfl, rfl, rfl, rfl, rfl, rfl⟩

end Silent

/-! ## The inline view -/

namespace PsVideoView

theorem addObservers_frame (s : Scope) : Frame s (addObservers s) := by
  unfold addObservers
  split
  · exact .addTimeObserver _ s
  · exact .refl s

/-- `playAction` is a pause or, after `addObservers`, a sequence of commands. -/
theorem playAction_commands (s : Scope) :
    (s.self.controlsView.playButton.isSelected = true ∧ playAction s = pauseAction s) ∨
    (s.self.controlsView.playButton.isSelected = false ∧
      Commands s.env.player (addObservers s) (playAction s)) := by
  unfold playAction
  cases hb : s.self.controlsView.playButton.isSelected with
  | true => exact .inl ⟨rfl, rfl⟩
  | false =>
    refine .inr ⟨rfl, ?_⟩
    have hp : (addObservers s).env.player = s.env.player := (addObservers_frame s).player
    rw [← hp]
    exact (((Commands.call _ .play).trans (.controls _ (·.selectPlay true))).trans
      (.setBitRate _ _)).trans (.setVideoSpeed _ _)

theorem playAction_frame (s : Scope) : Frame s (playAction s) := by
  obtain ⟨_, h⟩ | ⟨_, h⟩ := playAction_commands s
  · rw [h]; exact (Commands.pauseAction s).toFrame
  · exact (addObservers_frame s).trans h.toFrame

theorem timerAction_silent (s : Scope) : Silent s (timerAction s) := by
  unfold timerAction
  split
  · exact (Silent.hide s true).trans (.resetTimer _)
  · exact .refl s

theorem control_frame [Arithmetic] {c : Control} {s s' : Scope} (h : control c s = .ok s') : Frame s s' := by
  cases c with
  | play => cases h; exact playAction_frame s
  | stop => cases h; exact (Commands.stopAction s).toFrame
  | forward => exact (Commands.forwardAction h).toFrame
  | backward => exact (Commands.backwardAction h).toFrame
  | fullScreen => cases h; exact .refl s
  | slider x => exact (Commands.sliderAction h).toFrame
  | settings => cases h; exact (Commands.controls (p := none) s _).toFrame
  | videoQuality => cases h; exact (Commands.controls (p := none) s _).toFrame
  | row settings i => exact (Commands.didSelectRowAt h).toFrame
  | controlsView =>
    cases h; exact ((Commands.controls (p := none) s _).trans (.controls _ _)).toFrame
  | playerView =>
    cases h; exact (Commands.controls (p := none) s _).toFrame.trans (.startTimer _)

theorem timeObserverCallback_silent {alive : Bool} {s s' : Scope}
    (h : timeObserverCallback alive s = .ok s') : Silent s s' := by
  unfold timeObserverCallback at h
  split at h
  · cases h; exact .refl s
  · split at h
    · split at h
      · have h0 : Silent s (if s.self.isTimerRunning then s else s.startTimer) := by
          split
          · exact .refl s
          · exact .startTimer s
        exact h0.trans (.showTimes h)
      · cases h
    · cases h; exact .refl s

/-- The callback does nothing, or shows the times of the item that it finds ready. -/
theorem timeObserverCallback_cases {alive : Bool} {s s' : Scope}
    (h : timeObserverCallback alive s = .ok s') :
    (s.env.currentItem s.env.player).filter (·.status = .readyToPlay) = none ∧ s' = s ∨
    ∃ item, (s.env.currentItem s.env.player).filter (·.status = .readyToPlay) = some item ∧
      alive = true ∧ (if s.self.isTimerRunning then s else s.startTimer).showTimes item = .ok s' := by
  unfold timeObserverCallback at h
  split at h
  · rename_i hc; cases h; exact .inl ⟨by rw [hc]; rfl, rfl⟩
  · rename_i item hc
    rw [hc, Option.filter_some]
    split at h
    · rename_i hready
      split at h
      · rename_i ha; exact .inr ⟨item, if_pos (decide_eq_true hready), ha, h⟩
      · cases h
    · rename_i hready; cases h; exact .inl ⟨if_neg (by simpa using hready), rfl⟩

end PsVideoView

/-! ## The full-screen controller -/

theorem FullScope.scope_put {s : FullScope} {r : Scope} (h : r.me = s.me) :
    (s.put r).scope = r := by
  cases r; cases h; rfl

theorem FullScope.of_tryOn {f : Option PlayerId → Scope → Except Trap Scope} {s s' : FullScope}
    (h : s.tryOn f = .ok s') : ∃ r, f s.self.player s.scope = .ok r ∧ s' = s.put r := by
  unfold FullScope.tryOn at h
  split at h
  · cases h
  · rename_i r hr; cases h; exact ⟨r, hr, rfl⟩

/-- `Frame` for a full-screen controller, which also keeps its player and its delegate. -/
structure FullFrame (s s' : FullScope) : Prop where
  frame : Frame s.scope s'.scope
  player : s'.self.player = s.self.player
  delegate : s'.self.delegate = s.self.delegate

namespace FullFrame

theorem refl (s : FullScope) : FullFrame s s := ⟨.refl _, rfl, rfl⟩

theorem trans {s s' s'' : FullScope} (h₁ : FullFrame s s') (h₂ : FullFrame s' s'') :
    FullFrame s s'' :=
  ⟨h₁.frame.trans h₂.frame, h₂.player.trans h₁.player, h₂.delegate.trans h₁.delegate⟩

theorem on {f : Option PlayerId → Scope → Scope} {s : FullScope}
    (h : Frame s.scope (f s.self.player s.scope)) : FullFrame s (s.on f) :=
  ⟨by rw [FullScope.on, FullScope.scope_put h.me]; exact h, rfl, rfl⟩

theorem tryOn {f : Option PlayerId → Scope → Except Trap Scope} {s s' : FullScope}
    (hf : ∀ r, f s.self.player s.scope = .ok r → Frame s.scope r) (h : s.tryOn f = .ok s') :
    FullFrame s s' := by
  unfold FullScope.tryOn at h
  split at h
  · cases h
  · rename_i r hr
    cases h
    exact ⟨by rw [FullScope.scope_put (hf r hr).me]; exact hf r hr, rfl, rfl⟩

theorem commands {f : Option PlayerId → Scope → Scope} {s : FullScope}
    (h : Commands s.self.player s.scope (f s.self.player s.scope)) : FullFrame s (s.on f) :=
  on h.toFrame

theorem hideViewToTap (b : Bool) (s : FullScope) :
    FullFrame s (PsVideoFullViewVC.hideViewToTap b s) := ⟨.refl _, rfl, rfl⟩

end FullFrame

namespace PsVideoFullViewVC

/-- A shared handler that is silent. -/
theorem on_silent {f : Option PlayerId → Scope → Scope} {s : FullScope}
    (h : Silent s.scope (f s.self.player s.scope)) : Silent s.scope (s.on f).scope := by
  rw [FullScope.on, FullScope.scope_put h.me]; exact h

theorem timerAction_silent (s : FullScope) : Silent s.scope (timerAction s).scope := by
  unfold timerAction
  split
  · have h1 : Silent s.scope (s.on fun _ => (·.controls (·.hide true))).scope :=
      on_silent (.hide _ true)
    have h2 : Silent s.scope (hideViewToTap false (s.on fun _ => (·.controls (·.hide true)))).scope :=
      h1
    exact (h2.trans (on_silent (.resetControls _))).trans (on_silent (.resetTimer _))
  · exact .refl _

theorem timeObserverCallback_silent {s s' : FullScope} (h : timeObserverCallback s = .ok s') :
    Silent s.scope s'.scope := by
  unfold timeObserverCallback at h
  split at h
  · cases h; exact .refl _
  · split at h
    · unfold FullScope.tryOn at h
      split at h
      · cases h
      · rename_i r hr
        cases h
        have hs := Silent.showTimes hr
        rw [FullScope.scope_put hs.me]; exact hs
    · cases h; exact .refl _

theorem controls_frame (f : PsVideoControlsView → PsVideoControlsView) (s : FullScope) :
    FullFrame s (s.on fun _ => (·.controls f)) := .commands (.controls _ f)

theorem addTimeObserver_frame (s : FullScope) : FullFrame s (addTimeObserver s) :=
  .on (.addTimeObserver _ _)

theorem startTimer_frame (s : FullScope) : FullFrame s (startTimer s) := .on (.startTimer _)

theorem resetTimer_frame (s : FullScope) : FullFrame s (resetTimer s) := .on (.resetTimer _)

theorem setVideoSpeed_frame (r : String) (s : FullScope) : FullFrame s (setVideoSpeed r s) :=
  .commands (.setVideoSpeed r _)

theorem setVideoQuality_frame (q : String) (s : FullScope) : FullFrame s (setVideoQuality q s) :=
  .commands (.setVideoQuality q _)

theorem play_frame (s : FullScope) : FullFrame s (s.on fun p => (·.call p .play)) :=
  .commands (.call _ .play)

theorem pauseAction_frame (s : FullScope) : FullFrame s (pauseAction s) :=
  .commands (.pauseAction _)

theorem viewDidAppear_frame (s : FullScope) : FullFrame s (viewDidAppear s) := by
  unfold viewDidAppear
  split
  · exact (((((play_frame s).trans (controls_frame _ _)).trans (addTimeObserver_frame _)).trans
      (startTimer_frame _)).trans (setVideoSpeed_frame _ _)).trans (setVideoQuality_frame _ _)
  · exact .refl s

theorem playAction_frame (s : FullScope) : FullFrame s (playAction s) := by
  unfold playAction
  split
  · exact pauseAction_frame s
  · have h0 : FullFrame s (if s.self.timeObserver = none then addTimeObserver s else s) := by
      split
      · exact addTimeObserver_frame s
      · exact .refl s
    exact (((h0.trans (play_frame _)).trans (controls_frame _ _)).trans
      (setVideoSpeed_frame _ _)).trans (setVideoQuality_frame _ _)

theorem removeObservers_frame {s s' : FullScope} (h : removeObservers s = .ok s') :
    FullFrame s s' := by
  refine FullFrame.trans ?_ (FullFrame.tryOn (fun r hr => Frame.removeTimeObserver hr) h)
  exact ⟨{ Frame.refl s.scope with backgroundObservers := Env.removeObserver_method _ _ }, rfl, rfl⟩

theorem timerAction_frame (s : FullScope) : FullFrame s (timerAction s) := by
  unfold timerAction
  split
  · exact (((controls_frame _ s).trans (.hideViewToTap _ _)).trans (controls_frame _ _)).trans
      (resetTimer_frame _)
  · exact .refl s

theorem control_frame {c : Control} {s s' : FullScope} (h : control c s = .ok s') :
    FullFrame s s' := by
  cases c with
  | play => cases h; exact playAction_frame s
  | stop => cases h; exact .commands (.stopAction _)
  | forward => exact .tryOn (fun r hr => (Commands.forwardAction hr).toFrame) h
  | backward => exact .tryOn (fun r hr => (Commands.backwardAction hr).toFrame) h
  | fullScreen => exact removeObservers_frame h
  | slider x =>
    exact .tryOn (f := fun p => (·.sliderAction p x))
      (fun r hr => (Commands.sliderAction hr).toFrame) h
  | settings => cases h; exact controls_frame _ s
  | videoQuality => cases h; exact controls_frame _ s
  | row settings i =>
    exact .tryOn (f := fun p => (·.didSelectRowAt p i))
      (fun r hr => (Commands.didSelectRowAt hr).toFrame) h
  | controlsView =>
    cases h
    exact ((controls_frame _ s).trans (.hideViewToTap _ _)).trans (controls_frame _ _)
  | playerView =>
    cases h
    exact ((controls_frame _ s).trans (.hideViewToTap _ _)).trans (startTimer_frame _)

theorem timeObserverCallback_frame {s s' : FullScope} (h : timeObserverCallback s = .ok s') :
    FullFrame s s' := by
  unfold timeObserverCallback at h
  split at h
  · cases h; exact .refl s
  · split at h
    · exact .tryOn (fun r hr => (Commands.showTimes (p := none) hr).toFrame) h
    · cases h; exact .refl s

/-- The same of a controller, which looks at its own player. -/
theorem timeObserverCallback_cases {s s' : FullScope} (h : timeObserverCallback s = .ok s') :
    (s.env.currentItem s.self.player).filter (·.status = .readyToPlay) = none ∧ s' = s ∨
    ∃ item r, (s.env.currentItem s.self.player).filter (·.status = .readyToPlay) = some item ∧
      s.scope.showTimes item = .ok r ∧ s' = s.put r := by
  unfold timeObserverCallback at h
  split at h
  · rename_i hc; cases h; exact .inl ⟨by rw [hc]; rfl, rfl⟩
  · rename_i item hc
    rw [hc, Option.filter_some]
    split at h
    · rename_i hready
      obtain ⟨r, hr, rfl⟩ := FullScope.of_tryOn h
      exact .inr ⟨item, r, if_pos (decide_eq_true hready), hr, rfl⟩
    · rename_i hready; cases h; exact .inl ⟨if_neg (by simpa using hready), rfl⟩

end PsVideoFullViewVC

end PsVideo
