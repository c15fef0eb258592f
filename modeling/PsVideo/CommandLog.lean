import PsVideo.TimerRuns
import PsVideo.Without

/-!
# PsVideo.CommandLog

Who commands whom. A handler commands one player only, the one its object drives, and makes no
layer: `Confined`. `Commanding` lists the events that may give a command, with the object that gives
it and the player it is for; `step_given` says that no command comes from anywhere else.
-/

namespace PsVideo

open Machine

/-- The commands given are the object's own and all for `p`, and no layer is made. -/
structure Confined (p : Option PlayerId) (s s' : Scope) : Prop where
  me : s'.me = s.me
  layerCount : s'.env.layerCount = s.env.layerCount
  calls : ∃ l, s'.env.calls = s.env.calls ++ l ∧ ∀ c ∈ l, c.caller = s.me ∧ p = some c.player

namespace Confined

variable {p : Option PlayerId} {s s' s'' : Scope}

theorem still (hm : s'.me = s.me) (hl : s'.env.layerCount = s.env.layerCount)
    (hc : s'.env.calls = s.env.calls) : Confined p s s' :=
  ⟨hm, hl, [], by rw [hc, List.append_nil], by simp⟩

theorem refl (s : Scope) : Confined p s s := still rfl rfl rfl

theorem trans (h₁ : Confined p s s') (h₂ : Confined p s' s'') : Confined p s s'' where
  me := h₂.me.trans h₁.me
  layerCount := h₂.layerCount.trans h₁.layerCount
  calls := by
    obtain ⟨l, hl, hc⟩ := h₁.calls
    obtain ⟨l', hl', hc'⟩ := h₂.calls
    refine ⟨l ++ l', by rw [hl', hl, List.append_assoc], fun c hm => ?_⟩
    rcases List.mem_append.mp hm with hm | hm
    · exact hc c hm
    · rw [← h₁.me]; exact hc' c hm

theorem controls (s : Scope) (f : PsVideoControlsView → PsVideoControlsView) :
    Confined p s (s.controls f) := still rfl rfl rfl

theorem call (s : Scope) (op : PlayerOp) : Confined p s (s.call p op) := by
  cases p with
  | none => exact refl s
  | some q => exact ⟨rfl, rfl, [⟨s.me, q, op⟩], rfl, by simp⟩

theorem pauseAction (s : Scope) : Confined p s (s.pauseAction p) :=
  (call s .pause).trans (controls _ _)

theorem stopAction (s : Scope) : Confined p s (s.stopAction p) :=
  ((call s _).trans (call _ _)).trans (controls _ _)

theorem seeks (h : Seeks p s s') : Confined p s s' := by
  induction h with
  | refl s => exact refl s
  | button _ ih => exact (controls _ _).trans ih
  | slider x _ ih => exact (controls _ _).trans ih
  | seek time _ ih => exact (call _ _).trans ih

theorem setBitRate (d : String) (s : Scope) : Confined p s (s.setBitRate p d) := call s _

theorem setVideoSpeed (r : String) (s : Scope) : Confined p s (s.setVideoSpeed p r) := by
  have h0 : Confined p s (((s.controls (·.resetControls)).storeSpeed r).controls
      ({ · with selectedSpeed := r })) := still rfl rfl rfl
  unfold Scope.setVideoSpeed
  dsimp only
  cases speedSetting r with
  | none => exact h0.trans (controls _ _)
  | some x => exact ((h0.trans (call _ _)).trans (controls _ _)).trans (controls _ _)

theorem setVideoQuality (q : String) (s : Scope) : Confined p s (s.setVideoQuality p q) := by
  have h0 : Confined p s (((s.controls (·.resetControls)).storeQuality q).controls
      ({ · with selectedQuality := q })) := still rfl rfl rfl
  unfold Scope.setVideoQuality
  dsimp only
  exact (h0.trans (setBitRate _ _)).trans (controls _ _)

theorem didSelectRowAt {i : Nat} (h : s.didSelectRowAt p i = .ok s') : Confined p s s' := by
  unfold Scope.didSelectRowAt at h
  split at h
  · split at h
    · cases h
    · cases h; exact ((controls s _).trans (setVideoSpeed _ _)).trans (controls _ _)
  · split at h
    · cases h
    · cases h; exact ((controls s _).trans (setVideoQuality _ _)).trans (controls _ _)

theorem addTimeObserver (q : Option PlayerId) (s : Scope) : Confined p s (s.addTimeObserver q) := by
  cases q <;> exact still rfl rfl rfl

theorem startTimer (s : Scope) : Confined p s s.startTimer := still rfl rfl rfl

theorem removeTimeObserver {q : Option PlayerId} (h : s.removeTimeObserver q = .ok s') :
    s'.me = s.me ∧ s'.env.layerCount = s.env.layerCount ∧ s'.env.calls = s.env.calls := by
  rw [Scope.removeTimeObserver_ok h]
  exact ⟨rfl, rfl, rfl⟩

theorem showTimes {item : AVPlayerItem} (h : s.showTimes item = .ok s') : Confined p s s' := by
  unfold Scope.showTimes at h
  dsimp only at h
  split at h
  · cases h
  · split at h
    · cases h
    · cases h; exact (controls s _).trans (controls _ _)

end Confined

/-- The controls whose handler commands the player; the full-screen buttons only hand it over. -/
def Control.orders : Control → Bool
  | .fullScreen => false
  | c => c.commands

/-- The properties whose setter commands the player. -/
def Property.orders : Property → Bool
  | .paused _ | .play false | .stop _ | .maxBitRate _ => true
  | .url _ | .play true | .controls _ => false

/-! ## The handlers -/

namespace PsVideoView

variable {s s' : Scope}

theorem addObservers_confined {p : Option PlayerId} (s : Scope) : Confined p s (addObservers s) := by
  unfold addObservers
  split
  · exact .addTimeObserver _ s
  · exact .refl s

theorem playAction_confined (s : Scope) : Confined s.env.player s (playAction s) := by
  unfold playAction
  split
  · exact .pauseAction s
  · have h0 : Confined s.env.player s (addObservers s) := addObservers_confined s
    have hp : (addObservers s).env.player = s.env.player := (addObservers_frame s).player
    rw [← hp] at h0 ⊢
    exact (((h0.trans (.call _ .play)).trans (.controls _ (·.selectPlay true))).trans
      (.setBitRate _ _)).trans (.setVideoSpeed _ _)

theorem control_confined {c : Control} (h : control c s = .ok s') :
    Confined (if c.orders then s.env.player else none) s s' := by
  cases c with
  | play => cases h; exact playAction_confined s
  | stop => cases h; exact .stopAction s
  | forward => exact .seeks (.forwardAction h)
  | backward => exact .seeks (.backwardAction h)
  | slider x => exact .seeks (.sliderAction h)
  | row settings i => exact .didSelectRowAt h
  | fullScreen => cases h; exact .refl s
  | settings | videoQuality => cases h; exact .controls s _
  | controlsView => cases h; exact (Confined.controls s _).trans (.controls _ _)
  | playerView => cases h; exact (Confined.controls s _).trans (.startTimer _)

theorem viewDismissed_confined (p : PlayerId) (layer : Handle) (quality speed : String)
    (s : Scope) : Confined (some p) (receive p layer quality speed s)
      (viewDismissed p layer quality speed s) := by
  unfold viewDismissed
  dsimp only
  split
  · have h0 : Confined (some p) (receive p layer quality speed s)
        ((addTimeObserver (((receive p layer quality speed s).call (some p) .play).controls
          (·.selectPlay true))).startTimer) :=
      (((Confined.call _ .play).trans (.controls _ _)).trans (.addTimeObserver _ _)).trans
        (.startTimer _)
    have hp : ∀ t : Scope, Frame (receive p layer quality speed s) t → t.env.player = some p :=
      fun t ht => ht.player
    have hf : Frame (receive p layer quality speed s)
        ((addTimeObserver (((receive p layer quality speed s).call (some p) .play).controls
          (·.selectPlay true))).startTimer) :=
      (((Commands.call _ _).trans (.controls _ _)).toFrame.trans (.addTimeObserver _ _)).trans
        (.startTimer _)
    generalize (addTimeObserver (((receive p layer quality speed s).call (some p) .play).controls
      (·.selectPlay true))).startTimer = t at h0 hf ⊢
    rw [hp t hf]
    have hf2 := hf.trans (Commands.setVideoSpeed (p := some p) t.self.playerSpeed t).toFrame
    rw [hp _ hf2]
    exact (h0.trans (.setVideoSpeed _ _)).trans (.setVideoQuality _ _)
  · exact .pauseAction _

theorem timerAction_layerCount (s : Scope) :
    (timerAction s).env.layerCount = s.env.layerCount := by
  unfold timerAction
  split <;> rfl

theorem timeObserverCallback_layerCount {alive : Bool} (h : timeObserverCallback alive s = .ok s') :
    s'.env.layerCount = s.env.layerCount := by
  obtain ⟨-, rfl⟩ | ⟨_, -, -, hshow⟩ := timeObserverCallback_cases h
  · rfl
  · rw [(Confined.showTimes (p := none) hshow).layerCount]
    split <;> rfl

end PsVideoView

/-- `Confined` for a full-screen controller, which drives its own player and keeps it. -/
structure FullConfined (s s' : FullScope) : Prop where
  confined : Confined s.self.player s.scope s'.scope
  player : s'.self.player = s.self.player

namespace FullConfined

variable {s s' s'' : FullScope}

theorem refl (s : FullScope) : FullConfined s s := ⟨.refl _, rfl⟩

theorem trans (h₁ : FullConfined s s') (h₂ : FullConfined s' s'') : FullConfined s s'' :=
  ⟨h₁.confined.trans (h₁.player ▸ h₂.confined), h₂.player.trans h₁.player⟩

theorem on {f : Option PlayerId → Scope → Scope}
    (h : Confined s.self.player s.scope (f s.self.player s.scope)) : FullConfined s (s.on f) :=
  ⟨by rw [FullScope.on, FullScope.scope_put h.me]; exact h, rfl⟩

theorem tryOn {f : Option PlayerId → Scope → Except Trap Scope}
    (hf : ∀ r, f s.self.player s.scope = .ok r → Confined s.self.player s.scope r)
    (h : s.tryOn f = .ok s') : FullConfined s s' := by
  obtain ⟨r, hr, rfl⟩ := FullScope.of_tryOn h
  exact ⟨by rw [FullScope.scope_put (hf r hr).me]; exact hf r hr, rfl⟩

theorem hideViewToTap (b : Bool) (s : FullScope) :
    FullConfined s (PsVideoFullViewVC.hideViewToTap b s) := ⟨.refl _, rfl⟩

theorem controls (f : PsVideoControlsView → PsVideoControlsView) (s : FullScope) :
    FullConfined s (s.on fun _ => (·.controls f)) := on (.controls _ f)

theorem addTimeObserver (s : FullScope) : FullConfined s (PsVideoFullViewVC.addTimeObserver s) :=
  on (.addTimeObserver _ _)

theorem startTimer (s : FullScope) : FullConfined s (PsVideoFullViewVC.startTimer s) :=
  on (.startTimer _)

/-- Play, and select the button. -/
theorem play (s : FullScope) : FullConfined s ((s.on fun p => (·.call p .play)).on fun _ =>
    (·.controls (·.selectPlay true))) :=
  (on (f := fun p => (·.call p .play)) (.call _ .play)).trans (controls _ _)

/-- Set the speed, then the quality. -/
theorem settings (r : String) (q : FullScope → String) (s : FullScope) :
    FullConfined s (PsVideoFullViewVC.setVideoQuality (q (PsVideoFullViewVC.setVideoSpeed r s))
      (PsVideoFullViewVC.setVideoSpeed r s)) :=
  (on (.setVideoSpeed r _)).trans (on (.setVideoQuality _ _))

end FullConfined

namespace PsVideoFullViewVC

variable {s s' : FullScope}

theorem pauseAction_confined (s : FullScope) : FullConfined s (pauseAction s) :=
  .on (.pauseAction _)

theorem viewDidAppear_confined (s : FullScope) : FullConfined s (viewDidAppear s) := by
  unfold viewDidAppear
  split
  · exact (((FullConfined.play s).trans (.addTimeObserver _)).trans (.startTimer _)).trans
      (.settings _ (·.self.playerQuality) _)
  · exact .refl s

theorem playAction_confined (s : FullScope) : FullConfined s (playAction s) := by
  unfold playAction
  split
  · exact pauseAction_confined s
  · have h0 : FullConfined s (if s.self.timeObserver = none then addTimeObserver s else s) := by
      split
      · exact .addTimeObserver s
      · exact .refl s
    exact (h0.trans (.play _)).trans (.settings _ (·.self.playerQuality) _)

theorem control_confined {c : Control} (h : control c s = .ok s') : FullConfined s s' := by
  cases c with
  | play => cases h; exact playAction_confined s
  | stop => cases h; exact .on (.stopAction _)
  | forward => exact .tryOn (fun r hr => .seeks (.forwardAction hr)) h
  | backward => exact .tryOn (fun r hr => .seeks (.backwardAction hr)) h
  | fullScreen =>
    let s₀ : FullScope := { s with env := s.env.removeObserver .method .willResignActive }
    have h : s₀.tryOn Scope.removeTimeObserver = .ok s' := h
    have h0 : FullConfined s s₀ := ⟨.still rfl rfl rfl, rfl⟩
    refine h0.trans (.tryOn (fun r hr => ?_) h)
    obtain ⟨hm, hl, hc⟩ := Confined.removeTimeObserver hr
    exact .still hm hl hc
  | slider x =>
    exact .tryOn (f := fun p => (·.sliderAction p x)) (fun r hr => .seeks (.sliderAction hr)) h
  | settings | videoQuality => cases h; exact .controls _ s
  | row settings i =>
    exact .tryOn (f := fun p => (·.didSelectRowAt p i)) (fun r hr => .didSelectRowAt hr) h
  | controlsView =>
    cases h
    exact ((FullConfined.controls _ s).trans (.hideViewToTap _ _)).trans (.controls _ _)
  | playerView =>
    cases h
    exact ((FullConfined.controls _ s).trans (.hideViewToTap _ _)).trans (.startTimer _)

/-- The buttons that give no command. -/
theorem control_calls {c : Control} (hc : c.orders = false) (h : control c s = .ok s') :
    s'.env.calls = s.env.calls := by
  cases c with
  | play | stop | forward | backward | slider x | row settings i => cases hc
  | fullScreen =>
    unfold control backAction removeObservers at h
    obtain ⟨r, hr, rfl⟩ := FullScope.of_tryOn h
    exact (Confined.removeTimeObserver hr).2.2
  | settings | videoQuality | controlsView | playerView => cases h; rfl

theorem timerAction_layerCount (s : FullScope) :
    (timerAction s).env.layerCount = s.env.layerCount := by
  unfold timerAction
  split <;> rfl

theorem timeObserverCallback_layerCount (h : timeObserverCallback s = .ok s') :
    s'.env.layerCount = s.env.layerCount := by
  obtain ⟨-, rfl⟩ | ⟨_, r, -, hshow, rfl⟩ := timeObserverCallback_cases h
  · rfl
  · exact (Confined.showTimes (p := none) hshow).layerCount

end PsVideoFullViewVC

/-! ## The world -/

/-- While `e` is handled in `w`, the object may command the player. -/
inductive Commanding (w : World) : Event → Owner → PlayerId → Prop where
  | property {v : ViewId} {pr : Property} {p : PlayerId} : pr.orders = true →
      w.env.player = some p → Commanding w (.property v pr) (.view v) p
  | tap {v : ViewId} {c : Control} {p : PlayerId} : c.orders = true →
      w.env.player = some p → Commanding w (.tap v c) (.view v) p
  | block {v : ViewId} {p : PlayerId} : w.env.player = some p →
      Commanding w (.delayedBlock v) (.view v) p
  | dismissed {k : VcId} {p : PlayerId} : w.screen.vc = some k → (w.vcs k).player = some p →
      Commanding w .viewDismissed (.view (w.vcs k).delegate) p
  | fullTap {k : VcId} {c : Control} {p : PlayerId} : c.orders = true → w.screen.vc = some k →
      (w.vcs k).player = some p → Commanding w (.fullTap c) (.vc k) p
  | appear {k : VcId} {p : PlayerId} : w.screen = .presenting k → (w.vcs k).player = some p →
      Commanding w .viewDidAppear (.vc k) p
  | background {k : VcId} {p : PlayerId} : k ∈ w.notified → (w.vcs k).player = some p →
      Commanding w .background (.vc k) p
  | mainBlock {p : PlayerId} : w.env.player = some p → Commanding w .mainBlock .manager p

/-- All commands of the step are accounted for. -/
def Given (w : World) (e : Event) (w' : World) : Prop :=
  ∃ l, w'.env.calls = w.env.calls ++ l ∧ ∀ c ∈ l, Commanding w e c.caller c.player

namespace Given

variable {w w' : World} {e : Event}

theorem none (h : w'.env.calls = w.env.calls) : Given w e w' :=
  ⟨[], by rw [h, List.append_nil], by simp⟩

theorem confined {p : Option PlayerId} {s s' : Scope} (hc : Confined p s s')
    (hs : s.env.calls = w.env.calls) (h : ∀ q, p = some q → Commanding w e s.me q)
    (hw : w'.env.calls = s'.env.calls) : Given w e w' := by
  obtain ⟨l, hl, hown⟩ := hc.calls
  refine ⟨l, by rw [hw, hl, hs], fun c hm => ?_⟩
  obtain ⟨hcaller, hp⟩ := hown c hm
  rw [hcaller]
  exact h _ hp

theorem silent (h : SilentStep w w') : Given w e w' := by
  cases h with
  | refl => exact none rfl
  | put hs => exact none hs.noCalls
  | fullPut _ hs => exact none hs.noCalls

/-- Every controller that hears the notification pauses its own player. -/
theorem background (w : World) :
    Given w .background (w.env.registrations.foldl World.notifyBackground w) := by
  refine (background_rule (P := fun w' => Quiet w w' ∧ Given w .background w')
    ⟨.refl w, none rfl⟩ fun w' k hk _ _ hi => ⟨?_, ?_⟩).2
  · exact hi.1.trans (.fullPut (PsVideoFullViewVC.pauseAction_frame _))
  · obtain ⟨l, hl, hown⟩ := hi.2
    obtain ⟨l', hl', hown'⟩ :=
      (PsVideoFullViewVC.pauseAction_confined (w'.fullScope k)).confined.calls
    refine ⟨l ++ l', (hl'.trans (congrArg (· ++ l') hl)).trans (List.append_assoc _ _ _),
      fun c hm => ?_⟩
    rcases List.mem_append.mp hm with hm | hm
    · exact hown c hm
    · obtain ⟨hcaller, hp⟩ := hown' c hm
      have hp : (w'.vcs k).player = some c.player := hp
      rw [hcaller]
      exact .background hk ((hi.1.vcPlayer k).symm.trans hp)

end Given

theorem property_calls {accepts : String → Bool} {w w' : World} {v : ViewId} {p : Property}
    (h : w.step accepts (.property v p) = .ok w') : Given w (.property v p) w' := by
  have hp : ∀ q, w.env.player = some q → p.orders = true →
      Commanding w (.property v p) (w.scope v).me q := fun q hq hc => .property hc hq
  cases p with
  | url u => obtain ⟨_, rfl⟩ := url_ok h; exact .none rfl
  | paused b =>
    cases b with
    | true => cases h; exact .confined (.pauseAction (w.scope v)) rfl (hp · · rfl) rfl
    | false =>
      cases h
      exact .confined ((Confined.call (w.scope v) .play).trans (.controls _ (·.selectPlay true)))
        rfl (hp · · rfl) rfl
  | play b =>
    cases b with
    | true => cases h; exact .none rfl
    | false => cases h; exact .confined (.pauseAction (w.scope v)) rfl (hp · · rfl) rfl
  | stop b => cases h; exact .confined (.stopAction (w.scope v)) rfl (hp · · rfl) rfl
  | controls b => cases h; exact .none rfl
  | maxBitRate d =>
    cases h
    exact .confined ((Confined.controls (w.scope v) _).trans (.setBitRate d _)) rfl (hp · · rfl) rfl

/-- No step gives a command that is not listed. -/
theorem step_given {accepts : String → Bool} {w w' : World} {e : Event} (he : w.enabled e)
    (h : w.step accepts e = .ok w') : Given w e w' := by
  cases e with
  | property v p => exact property_calls h
  | tap v c =>
    by_cases hf : c = .fullScreen
    · subst hf
      obtain ⟨s, layer, hs, _, _, rfl⟩ := fullScreen_ok h
      exact .none (Confined.removeTimeObserver hs).2.2
    · obtain ⟨s, hs, rfl⟩ := tap_ok hf h
      refine .confined (PsVideoView.control_confined hs) rfl (fun q hq => ?_) rfl
      cases hc : c.orders with
      | true => rw [hc] at hq; exact .tap hc hq
      | false => rw [hc] at hq; cases hq
  | fullTap c =>
    obtain ⟨k, s, hk, _, _, hs, rfl⟩ := fullTap_ok he h
    cases hc : c.orders with
    | true =>
      exact .confined (PsVideoFullViewVC.control_confined hs).confined rfl
        (fun q hq => .fullTap hc hk hq) rfl
    | false => exact .none (PsVideoFullViewVC.control_calls hc hs)
  | viewDidAppear =>
    obtain ⟨k, hk, rfl⟩ := viewDidAppear_ok he h
    exact .confined (PsVideoFullViewVC.viewDidAppear_confined (w.fullScope k)).confined rfl
      (fun q hq => .appear hk hq) rfl
  | viewDismissed =>
    obtain ⟨k, p, layer, hk, hp, _, rfl⟩ := viewDismissed_ok he h
    refine .confined (PsVideoView.viewDismissed_confined p layer _ _ _) rfl (fun q hq => ?_) rfl
    exact .dismissed hk (hp.trans hq)
  | delayedBlock v =>
    cases h
    exact .confined (PsVideoView.playAction_confined (PsVideoView.initVideoPlayer (w.scope v))) rfl
      (fun q hq => .block hq) rfl
  | mainBlock =>
    obtain ⟨url, rest, _, rfl⟩ := mainBlock_ok he h
    let s : Scope := ⟨.manager, w.env, PsVideoView.init⟩
    have hc : Confined w.env.player s ⟨.manager, PsVideoView.playNextVideo url w.env, s.self⟩ :=
      ((Confined.call s _).trans (.call _ _)).trans (.call _ _)
    exact .confined hc rfl (fun q hq => .mainBlock hq) rfl
  | background => cases h; exact .background w
  | timer t => cases h; exact .silent (.timer w t)
  | tick t => exact .silent (.tick h)
  | _ => cases h; exact .none rfl

/-- A controller keeps its player. -/
theorem step_vcPlayer {accepts : String → Bool} {w w' : World} {e : Event} {k : VcId}
    (hk : w.Made k) (he : w.enabled e) (h : w.step accepts e = .ok w') :
    (w'.vcs k).player = (w.vcs k).player := by
  cases hq : e.quiet with
  | true => exact (step_quiet hq he h).vcPlayer k
  | false =>
    cases e with
    | mount | unmount v => cases h; rfl
    | property v p =>
      cases p with
      | url u => obtain ⟨_, rfl⟩ := url_ok h; rfl
      | _ => cases hq
    | tap v c =>
      cases c with
      | fullScreen =>
        obtain ⟨s, layer, _, _, _, rfl⟩ := fullScreen_ok h
        have hne : k ≠ w.nextVc v := by rintro rfl; exact w.not_made_nextVc v hk
        simp only [Function.update_of_ne hne]
      | _ => cases hq
    | viewDismissed => obtain ⟨j, p, layer, _, _, _, rfl⟩ := viewDismissed_ok he h; rfl
    | delayedBlock v => cases h; rfl
    | _ => cases hq

/-- Every command of a controller was for the one player it has. -/
structure Loyal (w : World) : Prop extends Retained w where
  opened : Opened w
  calls : ∀ c ∈ w.env.calls, ∀ k, c.caller = .vc k → w.Made k ∧ (w.vcs k).player = some c.player

namespace Loyal

variable {accepts : String → Bool} {w w' : World} {e : Event}

theorem commanding (hi : Loyal w) {k : VcId} {p : PlayerId} (h : Commanding w e (.vc k) p) :
    w.Made k ∧ (w.vcs k).player = some p := by
  cases h with
  | fullTap _ hk hp => exact ⟨hi.opened k hk, hp⟩
  | appear hk hp => exact ⟨hi.opened k (congrArg Screen.vc hk), hp⟩
  | background hk hp =>
    exact ⟨(hi.registered k).mp (List.mem_of_mem_filter hk), hp⟩

theorem step (hi : Loyal w) (he : w.enabled e) (h : w.step accepts e = .ok w') : Loyal w' := by
  refine ⟨hi.toRetained.step he h, hi.opened.step he h, fun c hc k hk => ?_⟩
  have hold : w.Made k ∧ (w.vcs k).player = some c.player := by
    obtain ⟨l, hl, hgiven⟩ := step_given he h
    rw [hl] at hc
    rcases List.mem_append.mp hc with hc | hc
    · exact hi.calls c hc k hk
    · exact hi.commanding (hk ▸ hgiven c hc)
  exact ⟨(step_grows he h).2 k hold.1, (step_vcPlayer hold.1 he h).trans hold.2⟩

end Loyal

end PsVideo
