import PsVideo.Step

/-!
# PsVideo.Without

The world without one view `a`: without the players it has made, the controllers it has presented,
and all observers, layers, timers, registrations and commands of these and of itself. `q` is the
player that is current there.

A handler of another object does the same there, so it commutes with `without`, as long as the
player it drives is not of `a`. What a handler of `a` does is not seen there, as long as the player
it drives is of `a`.
-/

namespace PsVideo

/-! ## Forgetting a part of a map -/

section Erase

variable {α β : Type} {P : α → Bool} {d : β} {f : α → β} {x : α} {y : β}

/-- The map with the value `d` wherever `P` holds. -/
def erase (P : α → Bool) (d : β) (f : α → β) : α → β := fun x => if P x then d else f x

@[simp] theorem erase_of_not (h : P x = false) : erase P d f x = f x := by simp [erase, h]

theorem erase_const (P : α → Bool) (d : β) : erase P d (fun _ => d) = fun _ => d := by
  funext x; simp [erase]

variable [DecidableEq α]

theorem erase_update (h : P x = false) :
    erase P d (Function.update f x y) = Function.update (erase P d f) x y := by
  funext z
  by_cases hz : z = x
  · subst hz; simp [h]
  · simp [erase, Function.update_of_ne hz]

theorem erase_update_own (h : P x = true) : erase P d (Function.update f x y) = erase P d f := by
  funext z
  by_cases hz : z = x
  · subst hz; simp [erase, h]
  · simp [erase, Function.update_of_ne hz]

end Erase

/-! ## What is of a view -/

def VcId.of (k : VcId) (a : ViewId) : Bool := k.view = a

def Owner.of (o : Owner) (a : ViewId) : Bool :=
  match o with
  | .view v => v = a
  | .vc k => k.of a
  | .manager => false

def Handle.of (t : Handle) (a : ViewId) : Bool := t.owner.of a

def PlayerId.of (p : PlayerId) (a : ViewId) : Bool := p.view = a

/-- No object registers a method reference, so there is none to keep. -/
def Observer.of (o : Observer) (a : ViewId) : Bool :=
  match o with
  | .object o => o.of a
  | .method => true

/-- The player, if there is one, is of `a`. -/
def Within (a : ViewId) (p : Option PlayerId) : Prop := ∀ x, p = some x → x.of a = true

/-- The player, if there is one, is not of `a`. -/
def Avoids (a : ViewId) (p : Option PlayerId) : Prop := ∀ x, p = some x → x.of a = false

theorem Within.none (a : ViewId) : Within a none := fun _ h => by cases h

theorem Avoids.none (a : ViewId) : Avoids a none := fun _ h => by cases h

theorem within_iff {a : ViewId} {p : Option PlayerId} : p.all (·.of a) = true ↔ Within a p := by
  cases p <;> simp [Within]

theorem avoids_iff {a : ViewId} {p : Option PlayerId} : p.all (!·.of a) = true ↔ Avoids a p := by
  cases p <;> simp [Avoids]

instance (a : ViewId) (p : Option PlayerId) : Decidable (Within a p) :=
  decidable_of_iff _ within_iff

instance (a : ViewId) (p : Option PlayerId) : Decidable (Avoids a p) :=
  decidable_of_iff _ avoids_iff

/-! ## The environment -/

/-- What is of `a` is gone, and `a` has made nothing. -/
def Env.without (a : ViewId) (q : Option PlayerId) (e : Env) : Env where
  player := q
  players := erase (·.of a) {} e.players
  playerCount := erase (· = a) 0 e.playerCount
  observers := e.observers.filter (!·.token.of a)
  observerCount := erase (·.of a) 0 e.observerCount
  layerPlayer := erase (·.of a) none e.layerPlayer
  superlayer := erase (·.of a) none e.superlayer
  layerCount := erase (·.of a) 0 e.layerCount
  timers := e.timers.filter (!·.of a)
  timerCount := erase (·.of a) 0 e.timerCount
  registrations := e.registrations.filter (!·.observer.of a)
  calls := e.calls.filter (!·.caller.of a)

namespace Env

variable {a : ViewId} {q p : Option PlayerId} {o c : Owner} {t : Handle} (e : Env)

theorem without_launch (a : ViewId) : launch.without a none = launch := by
  simp only [without, launch, erase_const, List.filter_nil]

@[simp] theorem player_without : (e.without a q).player = q := rfl

theorem players_without {x : PlayerId} (h : x.of a = false) :
    (e.without a q).players x = e.players x :=
  erase_of_not (P := fun x : PlayerId => x.of a) h

theorem nextToken_without (h : o.of a = false) : (e.without a q).nextToken o = e.nextToken o := by
  simp [nextToken, without, h]

theorem nextLayer_without (h : o.of a = false) : (e.without a q).nextLayer o = e.nextLayer o := by
  simp [nextLayer, without, h]

theorem nextTimer_without (h : o.of a = false) : (e.without a q).nextTimer o = e.nextTimer o := by
  simp [nextTimer, without, h]

theorem call_without (ho : o.of a = false) (hp : Avoids a p) (op : PlayerOp) :
    (e.without a q).call o p op = (e.call o p op).without a q := by
  cases p with
  | none => rfl
  | some x => simp [call, without, hp x rfl, erase_update, ho, List.filter_append]

theorem makePlayer_without {v : ViewId} (hv : v ≠ a) (url : String) :
    (e.without a q).makePlayer v url = (e.makePlayer v url).without a (e.nextPlayer v) := by
  have hn : (e.without a q).nextPlayer v = e.nextPlayer v := by simp [nextPlayer, without, hv]
  have hof : (e.nextPlayer v).of a = false := decide_eq_false hv
  unfold makePlayer
  rw [hn]
  simp [without, hof, erase_update, hv]

theorem addPeriodicTimeObserver_without (h : o.of a = false) (p : PlayerId) :
    (e.without a q).addPeriodicTimeObserver o p = (e.addPeriodicTimeObserver o p).without a q := by
  have ht : (e.nextToken o).of a = false := h
  unfold addPeriodicTimeObserver
  rw [e.nextToken_without h]
  simp [without, h, ht, erase_update, List.filter_append]

theorem removeTimeObserver_without (h : t.of a = false) (p : PlayerId) :
    (e.without a q).removeTimeObserver p t = (e.removeTimeObserver p t).map (·.without a q) := by
  have hmem : (⟨t, p⟩ : TimeObserver) ∈ (e.without a q).observers ↔ ⟨t, p⟩ ∈ e.observers := by
    simp [without, h]
  unfold removeTimeObserver
  by_cases hm : (⟨t, p⟩ : TimeObserver) ∈ e.observers
  · rw [if_pos hm, if_pos (hmem.mpr hm)]
    simp [Except.map, without, List.filter_filter, Bool.and_comm]
  · rw [if_neg hm, if_neg fun hm' => hm (hmem.mp hm')]
    rfl

theorem makeLayer_without (h : o.of a = false) :
    (e.without a q).makeLayer o p = (e.makeLayer o p).without a q := by
  have hl : (e.nextLayer o).of a = false := h
  unfold makeLayer
  rw [e.nextLayer_without h]
  simp [without, h, hl, erase_update]

theorem addSublayer_without (h : t.of a = false) :
    (e.without a q).addSublayer c t = (e.addSublayer c t).without a q := by
  simp [addSublayer, without, h, erase_update]

theorem scheduledTimer_without (h : o.of a = false) :
    (e.without a q).scheduledTimer o = (e.scheduledTimer o).without a q := by
  have ht : (e.nextTimer o).of a = false := h
  unfold scheduledTimer
  rw [e.nextTimer_without h]
  simp [without, h, ht, erase_update, List.filter_append]

theorem invalidate_without (t : Option Handle) :
    (e.without a q).invalidate t = (e.invalidate t).without a q := by
  simp [invalidate, without, List.filter_filter, Bool.and_comm]

theorem addObserver_without (h : o.of a = false) (n : NotificationName) :
    (e.without a q).addObserver o n = (e.addObserver o n).without a q := by
  simp [addObserver, without, Observer.of, h, List.filter_append]

theorem removeObserver_without (n : NotificationName) :
    (e.without a q).removeObserver .method n = (e.removeObserver .method n).without a q := by
  simp [removeObserver, without, List.filter_filter, Bool.and_comm]

theorem currentItem_without (hp : Avoids a p) :
    (e.without a q).currentItem p = e.currentItem p := by
  cases p with
  | none => rfl
  | some x => exact congrArg AVPlayer.currentItem (e.players_without (hp x rfl))

theorem isPlaying_without (hp : Avoids a p) : (e.without a q).isPlaying p = e.isPlaying p := by
  cases p with
  | none => rfl
  | some x => exact congrArg AVPlayer.isPlaying (e.players_without (hp x rfl))

theorem playNextVideo_without (hp : Avoids a e.player) (url : String) :
    PsVideoView.playNextVideo url (e.without a e.player) =
      (PsVideoView.playNextVideo url e).without a e.player := by
  have ho : Owner.manager.of a = false := rfl
  simp only [PsVideoView.playNextVideo, player_without, call_player, call_without _ ho hp]

/-! What `a` makes, moves or drops itself is not seen. -/

theorem makePlayer_own (url : String) : (e.makePlayer a url).without a q = e.without a q := by
  have hof : (e.nextPlayer a).of a = true := decide_eq_true rfl
  simp [makePlayer, without, erase_update_own, hof]

theorem addPeriodicTimeObserver_own (h : o.of a = true) (p : PlayerId) :
    (e.addPeriodicTimeObserver o p).without a q = e.without a q := by
  have ht : (e.nextToken o).of a = true := h
  simp [addPeriodicTimeObserver, without, h, ht, erase_update_own, List.filter_append]

theorem removeTimeObserver_own {e' : Env} (h : t.of a = true) {p : PlayerId}
    (hr : e.removeTimeObserver p t = .ok e') : e'.without a q = e.without a q := by
  unfold removeTimeObserver at hr
  split at hr
  · cases hr
    have ht : ∀ x ∈ e.observers,
        (!x.token.of a && decide (x ≠ ⟨t, p⟩)) = !x.token.of a := by
      intro x _
      by_cases hx : x = ⟨t, p⟩
      · subst hx; simp [h]
      · simp [hx]
    simp only [without, List.filter_filter, List.filter_congr ht]
  · cases hr

theorem makeLayer_own (h : o.of a = true) : (e.makeLayer o p).without a q = e.without a q := by
  have hl : (e.nextLayer o).of a = true := h
  simp [makeLayer, without, h, hl, erase_update_own]

theorem addSublayer_own (h : t.of a = true) :
    (e.addSublayer c t).without a q = e.without a q := by
  simp [addSublayer, without, h, erase_update_own]

theorem scheduledTimer_own (h : o.of a = true) :
    (e.scheduledTimer o).without a q = e.without a q := by
  have ht : (e.nextTimer o).of a = true := h
  simp [scheduledTimer, without, h, ht, erase_update_own, List.filter_append]

theorem invalidate_own {t : Option Handle} (h : ∀ t' ∈ t, t'.of a = true) :
    (e.invalidate t).without a q = e.without a q := by
  have ht : ∀ x ∈ e.timers, (!x.of a && decide (some x ≠ t)) = !x.of a := by
    intro x _
    by_cases hx : some x = t
    · simp [h x hx.symm]
    · simp [hx]
  simp only [invalidate, without, List.filter_filter, List.filter_congr ht]

theorem addObserver_own (h : o.of a = true) (n : NotificationName) :
    (e.addObserver o n).without a q = e.without a q := by
  simp [addObserver, without, Observer.of, h, List.filter_append]

theorem removeObserver_own (n : NotificationName) :
    (e.removeObserver .method n).without a q = e.without a q := by
  have hr : ∀ r ∈ e.registrations,
      (!r.observer.of a && decide (r ≠ ⟨.method, n⟩)) = !r.observer.of a := by
    intro r _
    by_cases hr : r = ⟨.method, n⟩
    · subst hr; simp [Observer.of]
    · simp [hr]
  simp only [removeObserver, without, List.filter_filter, List.filter_congr hr]

end Env

/-! ## The shared handlers -/

def Scope.without (a : ViewId) (q : Option PlayerId) (s : Scope) : Scope :=
  { s with env := s.env.without a q }

namespace Scope

variable {a : ViewId} {q p : Option PlayerId} (s : Scope)

@[simp] theorem without_self : (s.without a q).self = s.self := rfl

@[simp] theorem without_player : (s.without a q).env.player = q := rfl

@[simp] theorem controls_without (f : PsVideoControlsView → PsVideoControlsView) :
    (s.without a q).controls f = (s.controls f).without a q := rfl

theorem addTimeObserver_without (ho : s.me.of a = false) (p : Option PlayerId) :
    (s.without a q).addTimeObserver p = (s.addTimeObserver p).without a q := by
  cases p with
  | none => rfl
  | some x =>
    simp only [addTimeObserver, without, s.env.nextToken_without ho,
      s.env.addPeriodicTimeObserver_without ho]

theorem removeTimeObserver_without (ht : ∀ t, s.self.timeObserver = some t → t.of a = false)
    (p : Option PlayerId) :
    (s.without a q).removeTimeObserver p = (s.removeTimeObserver p).map (·.without a q) := by
  unfold removeTimeObserver
  cases htok : s.self.timeObserver with
  | none => rw [show (s.without a q).self.timeObserver = none from htok]; rfl
  | some t =>
    rw [show (s.without a q).self.timeObserver = some t from htok]
    cases p with
    | none => rfl
    | some x =>
      simp only [without, s.env.removeTimeObserver_without (ht t htok)]
      cases s.env.removeTimeObserver x t <;> rfl

theorem startTimer_without (ho : s.me.of a = false) :
    (s.without a q).startTimer = s.startTimer.without a q := by
  simp only [startTimer, without, s.env.nextTimer_without ho, s.env.scheduledTimer_without ho]

theorem resetTimer_without : (s.without a q).resetTimer = s.resetTimer.without a q := by
  simp only [resetTimer, without, s.env.invalidate_without]

theorem showTimes_without (item : AVPlayerItem) :
    (s.without a q).showTimes item = (s.showTimes item).map (·.without a q) := by
  unfold showTimes
  dsimp only
  cases formatTimeFor item.currentTime.seconds with
  | error t => rfl
  | ok playhead => cases formatTimeFor item.duration.seconds <;> rfl

section Commands

variable (ho : s.me.of a = false) (hp : Avoids a p)
include ho hp

theorem call_without (op : PlayerOp) :
    (s.without a q).call p op = (s.call p op).without a q :=
  congrArg (fun e => ({ s with env := e } : Scope)) (s.env.call_without ho hp op)

theorem pauseAction_without :
    (s.without a q).pauseAction p = (s.pauseAction p).without a q :=
  congrArg (·.controls (·.selectPlay false)) (s.call_without ho hp .pause)

theorem stopAction_without :
    (s.without a q).stopAction p = (s.stopAction p).without a q := by
  have hpause := call_without (q := q) (s.call p (.seek (.makeMillis 0))) ho hp .pause
  unfold stopAction
  rw [s.call_without ho hp, hpause]
  rfl

theorem setBitRate_without (d : String) :
    (s.without a q).setBitRate p d = (s.setBitRate p d).without a q :=
  s.call_without ho hp _

theorem setVideoSpeed_without (r : String) :
    (s.without a q).setVideoSpeed p r = (s.setVideoSpeed p r).without a q := by
  unfold setVideoSpeed
  cases speedSetting r with
  | none => rfl
  | some x =>
    have hc := call_without (q := q) (((s.controls (·.resetControls)).storeSpeed r).controls
      ({ · with selectedSpeed := r })) ho hp (.setRate x.1)
    exact congrArg (fun s => (s.controls (·.setSettingsTitle x.2)).controls (·.selectPlay true)) hc

theorem setVideoQuality_without (d : String) :
    (s.without a q).setVideoQuality p d = (s.setVideoQuality p d).without a q := by
  have hc := setBitRate_without (q := q) (((s.controls (·.resetControls)).storeQuality d).controls
    ({ · with selectedQuality := d })) ho hp (qualitySetting d).1
  exact congrArg (·.controls (·.setQualityTitle (qualitySetting d).2)) hc

theorem didSelectRowAt_without (row : Nat) :
    (s.without a q).didSelectRowAt p row = (s.didSelectRowAt p row).map (·.without a q) := by
  unfold didSelectRowAt
  rw [s.without_self]
  split
  · cases videoSpeedArray[row]? with
    | none => rfl
    | some rate =>
      have h := setVideoSpeed_without (q := q) (s.controls ({ · with selectedSpeed := rate })) ho hp
        rate
      exact congrArg (fun s => Except.ok (s.controls (·.hideTable true))) h
  · cases videoQualityArray[row]? with
    | none => rfl
    | some d =>
      have h := setVideoQuality_without (q := q) (s.controls ({ · with selectedQuality := d })) ho
        hp d
      exact congrArg (fun s => Except.ok (s.controls (·.hideTable true))) h

end Commands

theorem seekTo_without {y : PlayerId} (ho : s.me.of a = false) (hp : Avoids a (some y))
    (ms : Seconds) : (s.without a q).seekTo y ms = (s.seekTo y ms).map (·.without a q) := by
  unfold seekTo
  cases ms.toInt with
  | error t => rfl
  | ok v => exact congrArg Except.ok (s.call_without ho hp _)

theorem forwardAction_without (ho : s.me.of a = false) (hp : Avoids a p) :
    (s.without a q).forwardAction p = (s.forwardAction p).map (·.without a q) := by
  unfold forwardAction
  cases p with
  | none => rfl
  | some y =>
    dsimp only
    rw [show (s.without a q).env.players y = s.env.players y from s.env.players_without (hp y rfl)]
    cases (s.env.players y).currentItem with
    | none => rfl
    | some item =>
      dsimp only
      split
      · exact seekTo_without (s.controls (·.selectPlay false)) ho hp _
      · exact s.seekTo_without ho hp _

theorem backwardAction_without (ho : s.me.of a = false) (hp : Avoids a p) :
    (s.without a q).backwardAction p = (s.backwardAction p).map (·.without a q) := by
  unfold backwardAction
  cases p with
  | none => rfl
  | some y =>
    dsimp only
    rw [show (s.without a q).env.players y = s.env.players y from s.env.players_without (hp y rfl)]
    exact s.seekTo_without ho hp _

theorem sliderAction_without (ho : s.me.of a = false) (hp : Avoids a p) (x : Seconds) :
    (s.without a q).sliderAction p x = (s.sliderAction p x).map (·.without a q) := by
  unfold sliderAction
  cases p with
  | none => rfl
  | some y => exact seekTo_without (s.controls ({ · with sliderValue := x.toFloat })) ho hp _

end Scope

/-! ## The inline view -/

/-- The controls that command the current player of an inline view, or hand it to a session. -/
def Control.commands : Control → Bool
  | .play | .stop | .forward | .backward | .fullScreen | .slider _ | .row _ _ => true
  | .settings | .videoQuality | .controlsView | .playerView => false

namespace PsVideoView

variable {a : ViewId} {q : Option PlayerId} (s : Scope)

theorem addObservers_without (ho : s.me.of a = false) (hq : s.env.player = q) :
    addObservers (s.without a q) = (addObservers s).without a q := by
  unfold addObservers
  rw [s.without_self]
  split
  · rw [addTimeObserver, addTimeObserver, hq]
    exact s.addTimeObserver_without ho q
  · rfl

theorem playAction_without (ho : s.me.of a = false) (hq : s.env.player = q) (hp : Avoids a q) :
    playAction (s.without a q) = (playAction s).without a q := by
  unfold playAction
  rw [s.without_self]
  split
  · rw [pauseAction, pauseAction, hq]
    exact s.pauseAction_without ho hp
  · have hf := addObservers_frame s
    have hm : (addObservers s).me.of a = false := by rw [hf.me]; exact ho
    have hcur : (addObservers s).env.player = q := hf.player.trans hq
    rw [addObservers_without s ho hq]
    generalize addObservers s = r at hm hcur
    simp [Scope.setBitRate, hcur, hm, hp, Scope.call_without, Scope.setVideoSpeed_without]

theorem playBlock_without (ho : s.me.of a = false) (hq : s.env.player = q) (hp : Avoids a q) :
    playBlock (s.without a q) = (playBlock s).without a q := by
  have hl : (s.env.nextLayer s.me).of a = false := ho
  have hi : initVideoPlayer (s.without a q) = (initVideoPlayer s).without a q := by
    have h1 := s.env.makeLayer_without (q := q) (p := q) ho
    have h2 := Env.addSublayer_without (q := q) (c := s.me) (s.env.makeLayer s.me q) hl
    simp only [initVideoPlayer, Scope.without, s.env.nextLayer_without ho, hq, ← h2, ← h1]
    rfl
  unfold playBlock
  rw [hi]
  exact playAction_without (initVideoPlayer s) ho hq hp

theorem control_without (c : Control) (ho : s.me.of a = false)
    (hc : c.commands = true → s.env.player = q ∧ Avoids a q) :
    control c (s.without a q) = (control c s).map (·.without a q) := by
  cases c with
  | fullScreen | settings | videoQuality | controlsView => rfl
  | playerView => exact congrArg Except.ok (Scope.startTimer_without (s.controls (·.hide false)) ho)
  | play =>
    obtain ⟨hq, hp⟩ := hc rfl
    exact congrArg Except.ok (playAction_without s ho hq hp)
  | stop =>
    obtain ⟨rfl, hp⟩ := hc rfl
    exact congrArg Except.ok (s.stopAction_without ho hp)
  | forward => obtain ⟨rfl, hp⟩ := hc rfl; exact s.forwardAction_without ho hp
  | backward => obtain ⟨rfl, hp⟩ := hc rfl; exact s.backwardAction_without ho hp
  | slider x => obtain ⟨rfl, hp⟩ := hc rfl; exact s.sliderAction_without ho hp x
  | row settings i => obtain ⟨rfl, hp⟩ := hc rfl; exact s.didSelectRowAt_without ho hp i

theorem timeObserverCallback_without (alive : Bool) (ho : s.me.of a = false)
    (hq : s.env.player = q) (hp : Avoids a q) :
    timeObserverCallback alive (s.without a q) =
      (timeObserverCallback alive s).map (·.without a q) := by
  subst hq
  unfold timeObserverCallback
  rw [show (s.without a s.env.player).env.currentItem (s.without a s.env.player).env.player =
    s.env.currentItem s.env.player from s.env.currentItem_without hp, s.without_self]
  cases s.env.currentItem s.env.player with
  | none => rfl
  | some item =>
    dsimp only
    split
    · split
      · split
        · exact s.showTimes_without item
        · rw [s.startTimer_without ho]
          exact Scope.showTimes_without _ item
      · rfl
    · rfl

theorem fullScreenAction_without (v : ViewId) {k : VcId} (hk : k.of a = false)
    (hq : s.env.player = q) (ht : ∀ t, s.self.timeObserver = some t → t.of a = false)
    (hl : ∀ l, s.self.playerLayer = some l → l.of a = false) :
    fullScreenAction v k (s.without a q) =
      (fullScreenAction v k s).map fun r => (r.1.without a q, r.2) := by
  subst hq
  unfold fullScreenAction removeObservers
  rw [show (s.without a s.env.player).removeTimeObserver (s.without a s.env.player).env.player =
    (s.removeTimeObserver s.env.player).map (·.without a s.env.player) from
      s.removeTimeObserver_without ht _]
  cases hr : s.removeTimeObserver s.env.player with
  | error t => rfl
  | ok s1 =>
    simp only [Except.map, Scope.without_self]
    cases hl1 : s1.self.playerLayer with
    | none => rfl
    | some layer =>
      have hlayer : layer.of a = false :=
        hl layer ((Frame.removeTimeObserver hr).playerLayer.symm.trans hl1)
      have hvc : (Owner.vc k).of a = false := hk
      have h1 := s1.env.addObserver_without (q := s.env.player) hvc .didEnterBackground
      have h2 := Env.addSublayer_without (q := s.env.player) (c := .vc k)
        (s1.env.addObserver (.vc k) .didEnterBackground) hlayer
      exact congrArg (fun e => Except.ok
        ((⟨s1.me, e, { s1.self with timeObserver := none, playerLayer := some layer }⟩ : Scope),
          presentedVC s k v)) ((congrArg (·.addSublayer (.vc k) layer) h1).trans h2)

theorem timerAction_without : timerAction (s.without a q) = (timerAction s).without a q := by
  unfold timerAction
  rw [s.without_self]
  split
  · exact Scope.resetTimer_without (s.controls (·.hide true))
  · rfl

theorem receive_without {player : PlayerId} {layer : Handle} (quality speed : String)
    (hl : layer.of a = false) : receive player layer quality speed (s.without a q) =
      (receive player layer quality speed s).without a player := by
  have h := Env.addSublayer_without (q := some player) (c := s.me)
    { s.env with player := some player } hl
  simp only [receive, Scope.without, ← h]
  rfl

theorem viewDismissed_without {player : PlayerId} {layer : Handle} (quality speed : String)
    (ho : s.me.of a = false) (hp : Avoids a (some player)) (hl : layer.of a = false) :
    viewDismissed player layer quality speed (s.without a q) =
      (viewDismissed player layer quality speed s).without a player := by
  have hm : (receive player layer quality speed s).me.of a = false := ho
  have hcur : (receive player layer quality speed s).env.player = player := rfl
  unfold viewDismissed
  rw [receive_without s quality speed hl]
  generalize receive player layer quality speed s = r at hm hcur
  have hplay : (r.without a player).env.isPlaying (some player) = r.env.isPlaying (some player) :=
    r.env.isPlaying_without hp
  simp only [hplay]
  split
  · simp [addTimeObserver, hcur, hm, hp, r.call_without, Scope.addTimeObserver_without,
      Scope.startTimer_without, Scope.setVideoSpeed_without, Scope.setVideoQuality_without]
  · exact (r.pauseAction_without hm hp).trans (by rw [pauseAction, hcur])

end PsVideoView

/-! ## The full-screen controller -/

def FullScope.without (a : ViewId) (q : Option PlayerId) (s : FullScope) : FullScope :=
  { s with env := s.env.without a q }

namespace FullScope

variable {a : ViewId} {q : Option PlayerId} (s : FullScope)

theorem on_without {f : Option PlayerId → Scope → Scope}
    (h : f s.self.player (s.scope.without a q) = (f s.self.player s.scope).without a q) :
    (s.without a q).on f = (s.on f).without a q :=
  congrArg s.put h

theorem tryOn_without {f : Option PlayerId → Scope → Except Trap Scope}
    (h : f s.self.player (s.scope.without a q) = (f s.self.player s.scope).map (·.without a q)) :
    (s.without a q).tryOn f = (s.tryOn f).map (·.without a q) := by
  unfold tryOn
  rw [show f (s.without a q).self.player (s.without a q).scope =
    f s.self.player (s.scope.without a q) from rfl, h]
  cases f s.self.player s.scope <;> rfl

end FullScope

namespace PsVideoFullViewVC

variable {a : ViewId} {q : Option PlayerId} (s : FullScope)

theorem addTimeObserver_without (ho : s.me.of a = false) :
    addTimeObserver (s.without a q) = (addTimeObserver s).without a q :=
  s.on_without (s.scope.addTimeObserver_without ho _)

theorem startTimer_without (ho : s.me.of a = false) :
    startTimer (s.without a q) = (startTimer s).without a q :=
  s.on_without (f := fun _ => (·.startTimer)) (s.scope.startTimer_without ho)

theorem resetTimer_without : resetTimer (s.without a q) = (resetTimer s).without a q :=
  s.on_without (f := fun _ => (·.resetTimer)) s.scope.resetTimer_without

theorem timerAction_without : timerAction (s.without a q) = (timerAction s).without a q := by
  unfold timerAction
  rw [show (s.without a q).self = s.self from rfl]
  split
  · exact resetTimer_without ((hideViewToTap false (s.on fun _ => (·.controls (·.hide true)))).on
      fun _ => (·.controls (·.resetControls)))
  · rfl

theorem removeObservers_without (ht : ∀ t, s.self.timeObserver = some t → t.of a = false) :
    removeObservers (s.without a q) = (removeObservers s).map (·.without a q) := by
  have hr := s.env.removeObserver_without (a := a) (q := q) .willResignActive
  unfold removeObservers
  exact (congrArg (fun e => FullScope.tryOn Scope.removeTimeObserver { s with env := e }) hr).trans
    (FullScope.tryOn_without { s with env := s.env.removeObserver .method .willResignActive }
      (Scope.removeTimeObserver_without _ ht _))

theorem timeObserverCallback_without (hp : Avoids a s.self.player) :
    timeObserverCallback (s.without a q) = (timeObserverCallback s).map (·.without a q) := by
  unfold timeObserverCallback
  rw [show (s.without a q).env.currentItem (s.without a q).self.player =
    s.env.currentItem s.self.player from s.env.currentItem_without hp]
  cases s.env.currentItem s.self.player with
  | none => rfl
  | some item =>
    dsimp only
    split
    · exact s.tryOn_without (f := fun _ => (·.showTimes item)) (s.scope.showTimes_without item)
    · rfl

section Commands

variable (ho : s.me.of a = false) (hp : Avoids a s.self.player)
include ho hp

theorem pauseAction_without : pauseAction (s.without a q) = (pauseAction s).without a q :=
  s.on_without (s.scope.pauseAction_without ho hp)

theorem play_without : ((s.without a q).on fun p => (·.call p .play)).on
    (fun _ => (·.controls (·.selectPlay true))) =
    ((s.on fun p => (·.call p .play)).on fun _ => (·.controls (·.selectPlay true))).without a q :=
  congrArg (FullScope.on fun _ => (·.controls (·.selectPlay true)))
    (s.on_without (f := fun p => (·.call p .play)) (s.scope.call_without ho hp .play))

/-- What `playAction` and `viewDidAppear` end with. -/
theorem start_without :
    setVideoQuality (setVideoSpeed s.self.playerSpeed (s.without a q)).self.playerQuality
      (setVideoSpeed s.self.playerSpeed (s.without a q)) =
    (setVideoQuality (setVideoSpeed s.self.playerSpeed s).self.playerQuality
      (setVideoSpeed s.self.playerSpeed s)).without a q := by
  have h1 : setVideoSpeed s.self.playerSpeed (s.without a q) =
      (setVideoSpeed s.self.playerSpeed s).without a q :=
    s.on_without (f := fun p => (·.setVideoSpeed p s.self.playerSpeed))
      (s.scope.setVideoSpeed_without ho hp _)
  have hm : (setVideoSpeed s.self.playerSpeed s).scope.me.of a = false := ho
  rw [h1]
  exact FullScope.on_without _ (f := fun p => (·.setVideoQuality p _))
    (Scope.setVideoQuality_without _ hm hp _)

theorem playAction_without : playAction (s.without a q) = (playAction s).without a q := by
  have h0 : (if s.self.timeObserver = none then addTimeObserver (s.without a q)
      else s.without a q) =
      (if s.self.timeObserver = none then addTimeObserver s else s).without a q := by
    split
    · exact addTimeObserver_without s ho
    · rfl
  have hm : (if s.self.timeObserver = none then addTimeObserver s else s).me.of a = false := by
    split <;> exact ho
  have hp' : Avoids a (if s.self.timeObserver = none then addTimeObserver s else s).self.player := by
    split <;> exact hp
  unfold playAction
  rw [show (s.without a q).env.isPlaying (s.without a q).self.player =
    s.env.isPlaying s.self.player from s.env.isPlaying_without hp,
    show (s.without a q).self = s.self from rfl, h0]
  split
  · exact pauseAction_without s ho hp
  · dsimp only
    rw [play_without _ hm hp']
    exact start_without _ hm hp'

theorem viewDidAppear_without :
    viewDidAppear (s.without a q) = (viewDidAppear s).without a q := by
  unfold viewDidAppear
  rw [show (s.without a q).env.isPlaying (s.without a q).self.player =
    s.env.isPlaying s.self.player from s.env.isPlaying_without hp]
  split
  · dsimp only
    rw [play_without s ho hp, addTimeObserver_without _ (by exact ho),
      startTimer_without _ (by exact ho)]
    exact start_without _ ho hp
  · rfl

theorem control_without (c : Control)
    (ht : ∀ t, s.self.timeObserver = some t → t.of a = false) :
    control c (s.without a q) = (control c s).map (·.without a q) := by
  cases c with
  | settings | videoQuality | controlsView => rfl
  | play => exact congrArg Except.ok (playAction_without s ho hp)
  | stop => exact congrArg Except.ok (s.on_without (s.scope.stopAction_without ho hp))
  | forward => exact s.tryOn_without (s.scope.forwardAction_without ho hp)
  | backward => exact s.tryOn_without (s.scope.backwardAction_without ho hp)
  | fullScreen => exact removeObservers_without s ht
  | slider x =>
    exact s.tryOn_without (f := fun p => (·.sliderAction p x))
      (s.scope.sliderAction_without ho hp x)
  | row settings i =>
    exact s.tryOn_without (f := fun p => (·.didSelectRowAt p i))
      (s.scope.didSelectRowAt_without ho hp i)
  | playerView =>
    exact congrArg Except.ok
      (startTimer_without (hideViewToTap true (s.on fun _ => (·.controls (·.hide false)))) ho)

end Commands

end PsVideoFullViewVC

end PsVideo
