import PsVideo.Without

/-!
# PsVideo.Unseen

What a handler of an object of view `a` does, as long as the player it drives is of `a`: nothing
that is there without `a`.
-/

namespace PsVideo

/-- If the handler belongs to an object of `a`, the environment without `a` is as before. -/
structure Unseen (a : ViewId) (s s' : Scope) : Prop where
  me : s'.me = s.me
  env : s.me.of a = true → ∀ q, s'.env.without a q = s.env.without a q

namespace Unseen

variable {a : ViewId} {p : Option PlayerId} {s s' s'' : Scope}

theorem refl (s : Scope) : Unseen a s s := ⟨rfl, fun _ _ => rfl⟩

theorem trans (h₁ : Unseen a s s') (h₂ : Unseen a s' s'') : Unseen a s s'' :=
  ⟨h₂.me.trans h₁.me, fun ho q => (h₂.env (by rw [h₁.me]; exact ho) q).trans (h₁.env ho q)⟩

theorem commands (hc : Commands p s s') (hp : Within a p) : Unseen a s s' := by
  refine ⟨hc.me, fun ho q => ?_⟩
  obtain ⟨l, hl, hcaller⟩ := hc.calls
  have hplayers : erase (·.of a) {} s'.env.players = erase (·.of a) {} s.env.players := by
    funext x
    cases hx : x.of a with
    | true => simp [erase, hx]
    | false =>
      have hne : p ≠ some x := fun h => by rw [hp x h] at hx; cases hx
      simp [erase, hx, hc.others x hne]
  have hcalls : s'.env.calls.filter (!·.caller.of a) = s.env.calls.filter (!·.caller.of a) := by
    have hown : l.filter (!·.caller.of a) = [] :=
      List.filter_eq_nil_iff.mpr fun c hm => by simp [hcaller c hm, ho]
    rw [hl, List.filter_append, hown, List.append_nil]
  rw [hc.env]
  simp only [Env.without, hplayers, hcalls]

theorem controls (s : Scope) (f : PsVideoControlsView → PsVideoControlsView) :
    Unseen a s (s.controls f) := ⟨rfl, fun _ _ => rfl⟩

theorem addTimeObserver (p : Option PlayerId) (s : Scope) : Unseen a s (s.addTimeObserver p) := by
  refine ⟨s.addTimeObserver_me p, fun ho q => ?_⟩
  cases p with
  | none => rfl
  | some x => exact s.env.addPeriodicTimeObserver_own ho x

theorem removeTimeObserver (ht : ∀ t, s.self.timeObserver = some t → t.owner = s.me)
    (h : s.removeTimeObserver p = .ok s') : Unseen a s s' := by
  refine ⟨(Frame.removeTimeObserver h).me, fun ho q => ?_⟩
  unfold Scope.removeTimeObserver at h
  split at h
  · rename_i t x htok
    split at h
    · cases h
    · rename_i e he
      cases h
      exact s.env.removeTimeObserver_own (by rw [Handle.of, ht t htok]; exact ho) he
  · cases h; rfl

theorem startTimer (s : Scope) : Unseen a s s.startTimer :=
  ⟨rfl, fun ho _ => s.env.scheduledTimer_own ho⟩

theorem resetTimer (ht : ∀ t, s.self.timer = some t → t.owner = s.me) :
    Unseen a s s.resetTimer :=
  ⟨rfl, fun ho _ => s.env.invalidate_own fun t hm => by rw [Handle.of, ht t hm]; exact ho⟩

theorem showTimes {item : AVPlayerItem} (h : s.showTimes item = .ok s') : Unseen a s s' :=
  commands (Commands.showTimes h) (.none a)

end Unseen

/-! ## The inline view -/

namespace PsVideoView

variable {a : ViewId} {s s' : Scope}

theorem playAction_unseen (hp : Within a s.env.player) : Unseen a s (playAction s) := by
  obtain ⟨_, h⟩ | ⟨_, h⟩ := playAction_commands s
  · rw [h]; exact .commands (.pauseAction s) hp
  · have h0 : Unseen a s (addObservers s) := by
      unfold addObservers
      split
      · exact .addTimeObserver _ s
      · exact .refl s
    exact h0.trans (.commands h hp)

theorem playBlock_unseen (hp : Within a s.env.player) : Unseen a s (playBlock s) := by
  have h0 : Unseen a s (initVideoPlayer s) := by
    refine ⟨rfl, fun ho q => ?_⟩
    have hl : (s.env.nextLayer s.me).of a = true := ho
    exact (Env.addSublayer_own _ hl).trans (s.env.makeLayer_own ho)
  exact h0.trans (playAction_unseen hp)

theorem control_unseen {c : Control} (hp : c.commands = true → Within a s.env.player)
    (h : control c s = .ok s') : Unseen a s s' := by
  cases c with
  | play => cases h; exact playAction_unseen (hp rfl)
  | stop => cases h; exact .commands (.stopAction s) (hp rfl)
  | forward => exact .commands (.forwardAction h) (hp rfl)
  | backward => exact .commands (.backwardAction h) (hp rfl)
  | fullScreen => cases h; exact .refl s
  | slider x => exact .commands (.sliderAction h) (hp rfl)
  | settings | videoQuality => cases h; exact .controls s _
  | row settings i => exact .commands (.didSelectRowAt h) (hp rfl)
  | controlsView => cases h; exact (Unseen.controls s _).trans (.controls _ _)
  | playerView => cases h; exact (Unseen.controls s _).trans (.startTimer _)

theorem timerAction_unseen (ht : ∀ t, s.self.timer = some t → t.owner = s.me) :
    Unseen a s (timerAction s) := by
  unfold timerAction
  split
  · exact (Unseen.controls s _).trans (.resetTimer ht)
  · exact .refl s

theorem timeObserverCallback_unseen {alive : Bool} (h : timeObserverCallback alive s = .ok s') :
    Unseen a s s' := by
  unfold timeObserverCallback at h
  split at h
  · cases h; exact .refl s
  · split at h
    · split at h
      · have h0 : Unseen a s (if s.self.isTimerRunning then s else s.startTimer) := by
          split
          · exact .refl s
          · exact .startTimer s
        exact h0.trans (.showTimes h)
      · cases h
    · cases h; exact .refl s

theorem viewDismissed_unseen {player : PlayerId} {layer : Handle} (quality speed : String)
    (hp : player.of a = true) (hl : layer.of a = true) :
    Unseen a s (viewDismissed player layer quality speed s) := by
  have hp : Within a (some player) := fun x hx => by cases hx; exact hp
  have h0 : Unseen a s (receive player layer quality speed s) :=
    ⟨rfl, fun _ _ => Env.addSublayer_own { s.env with player := some player } hl⟩
  unfold viewDismissed
  dsimp only
  split
  · have hcur : ∀ r : Scope, r.env.player = (receive player layer quality speed s).env.player →
        Within a r.env.player := fun r hr => by rw [hr]; exact hp
    refine (((((h0.trans (.commands (.call _ .play) hp)).trans (.controls _ _)).trans
      (.addTimeObserver _ _)).trans (.startTimer _)).trans
      (.commands (.setVideoSpeed _ _) (hcur _ ?_))).trans
      (.commands (.setVideoQuality _ _) (hcur _ ?_))
    · simp [addTimeObserver]
    · simp [addTimeObserver]
  · exact h0.trans (.commands (.pauseAction _) hp)

end PsVideoView

/-! ## The full-screen controller -/

namespace PsVideoFullViewVC

variable {a : ViewId} {s s' : FullScope}

theorem on_unseen {f : Option PlayerId → Scope → Scope}
    (h : Unseen a s.scope (f s.self.player s.scope)) : Unseen a s.scope (s.on f).scope := by
  rw [FullScope.on, FullScope.scope_put h.me]; exact h

theorem tryOn_unseen {f : Option PlayerId → Scope → Except Trap Scope}
    (hf : ∀ r, f s.self.player s.scope = .ok r → Unseen a s.scope r) (h : s.tryOn f = .ok s') :
    Unseen a s.scope s'.scope := by
  unfold FullScope.tryOn at h
  split at h
  · cases h
  · rename_i r hr
    cases h
    rw [FullScope.scope_put (hf r hr).me]; exact hf r hr

theorem controls_unseen (f : PsVideoControlsView → PsVideoControlsView) (s : FullScope) :
    Unseen a s.scope (s.on fun _ => (·.controls f)).scope := on_unseen (.controls _ f)

theorem hideViewToTap_unseen (b : Bool) (s : FullScope) :
    Unseen a s.scope (hideViewToTap b s).scope := .refl _

theorem removeObservers_unseen (ht : ∀ t, s.self.timeObserver = some t → t.owner = s.me)
    (h : removeObservers s = .ok s') : Unseen a s.scope s'.scope := by
  have h0 : Unseen a s.scope
      { s with env := s.env.removeObserver .method .willResignActive : FullScope }.scope :=
    ⟨rfl, fun _ _ => s.env.removeObserver_own .willResignActive⟩
  exact h0.trans (tryOn_unseen (fun r hr => .removeTimeObserver ht hr) h)

theorem timerAction_unseen (ht : ∀ t, s.self.timer = some t → t.owner = s.me) :
    Unseen a s.scope (timerAction s).scope := by
  unfold timerAction
  split
  · exact (((controls_unseen _ s).trans (hideViewToTap_unseen _ _)).trans
      (controls_unseen _ _)).trans (on_unseen (.resetTimer ht))
  · exact .refl _

theorem timeObserverCallback_unseen (h : timeObserverCallback s = .ok s') :
    Unseen a s.scope s'.scope := by
  unfold timeObserverCallback at h
  split at h
  · cases h; exact .refl _
  · split at h
    · exact tryOn_unseen (fun r hr => .showTimes hr) h
    · cases h; exact .refl _

section Commands

variable (hp : Within a s.self.player)
include hp

theorem pauseAction_unseen : Unseen a s.scope (pauseAction s).scope :=
  on_unseen (.commands (.pauseAction _) hp)

theorem play_unseen : Unseen a s.scope
    ((s.on fun p => (·.call p .play)).on fun _ => (·.controls (·.selectPlay true))).scope :=
  (on_unseen (.commands (.call _ .play) hp)).trans (controls_unseen _ _)

/-- What `playAction` and `viewDidAppear` end with. -/
theorem start_unseen : Unseen a s.scope
    (setVideoQuality (setVideoSpeed s.self.playerSpeed s).self.playerQuality
      (setVideoSpeed s.self.playerSpeed s)).scope :=
  (on_unseen (.commands (.setVideoSpeed _ _) hp)).trans
    (on_unseen (.commands (.setVideoQuality _ _) hp))

theorem playAction_unseen : Unseen a s.scope (playAction s).scope := by
  unfold playAction
  split
  · exact pauseAction_unseen hp
  · split
    · exact ((on_unseen (.addTimeObserver _ _)).trans (play_unseen hp)).trans (start_unseen hp)
    · exact (play_unseen hp).trans (start_unseen hp)

theorem viewDidAppear_unseen : Unseen a s.scope (viewDidAppear s).scope := by
  unfold viewDidAppear
  split
  · exact (((play_unseen hp).trans (on_unseen (.addTimeObserver _ _))).trans
      (on_unseen (.startTimer _))).trans (start_unseen hp)
  · exact .refl _

theorem control_unseen {c : Control} (ht : ∀ t, s.self.timeObserver = some t → t.owner = s.me)
    (h : control c s = .ok s') : Unseen a s.scope s'.scope := by
  cases c with
  | play => cases h; exact playAction_unseen hp
  | stop => cases h; exact on_unseen (.commands (.stopAction _) hp)
  | forward => exact tryOn_unseen (fun r hr => .commands (.forwardAction hr) hp) h
  | backward => exact tryOn_unseen (fun r hr => .commands (.backwardAction hr) hp) h
  | fullScreen => exact removeObservers_unseen ht h
  | slider x =>
    exact tryOn_unseen (f := fun p => (·.sliderAction p x))
      (fun r hr => .commands (.sliderAction hr) hp) h
  | settings | videoQuality => cases h; exact controls_unseen _ s
  | row settings i =>
    exact tryOn_unseen (f := fun p => (·.didSelectRowAt p i))
      (fun r hr => .commands (.didSelectRowAt hr) hp) h
  | controlsView =>
    cases h
    exact ((controls_unseen _ s).trans (hideViewToTap_unseen _ _)).trans (controls_unseen _ _)
  | playerView =>
    cases h
    exact ((controls_unseen _ s).trans (hideViewToTap_unseen _ _)).trans (on_unseen (.startTimer _))

end Commands

end PsVideoFullViewVC

end PsVideo
