import PsVideo.Crashes
import PsVideo.LayerLedger

/-!
# PsVideo.AppJs

`App.js`, the app around the native view. It renders one `VideoPlayer` or none, with a fixed url and
`play={true}`, and has two buttons: one toggles the player, the other calls `playAnotherVideo` with a
fixed argument. `Driven` is what this gives of the native state, and `app_crash_iff` says which of
the crashes are left.
-/

namespace PsVideo

open Machine

namespace App

/-- The initial state of `videoUri`; `setVideoUri` is never called. -/
def videoUri : String :=
  "https://commondatastorage.googleapis.com/gtv-videos-bucket/sample/ElephantsDream.mp4"

/-- The argument of `VideoManager.playAnotherVideo`. -/
def anotherVideo : String :=
  "http://commondatastorage.googleapis.com/gtv-videos-bucket/sample/ForBiggerBlazes.mp4"

/-- What React Native has of the `VideoPlayer`: no view, one that is being created, with or without
its two properties, or the finished one. -/
inductive Rendered where
  | hidden
  | creating (url play : Bool)
  | shown
  deriving DecidableEq

/-- The properties are set in either order, and the view is finished with the second. -/
def Rendered.next : Rendered → Event → Rendered
  | .hidden, .mount => .creating false false
  | .creating _ play, .property _ (.url _) => if play then .shown else .creating true false
  | .creating url _, .property _ (.play _) => if url then .shown else .creating false true
  | .shown, .unmount _ => .hidden
  | r, _ => r

/-- The events that the app lets arrive. A view is created with both of its properties in one go, and
gets no property later; the player is not rendered while a full-screen controller covers the
button. -/
def Sends (w : World) : Rendered → Event → Bool
  | .hidden, .mount => w.screen = .inline
  | .hidden, .unmount _ => false
  | .hidden, .property _ _ => false
  | .creating false _, .property _ (.url u) => u = videoUri
  | .creating _ false, .property _ (.play b) => b
  | .creating _ _, _ => false
  | .shown, .mount => false
  | .shown, .property _ _ => false
  | _, .playAnotherVideo u => u = anotherVideo
  | _, _ => true

end App

open App

/-- The native machine under `App.js`. -/
def appJs (accepts : String → Bool) : Machine (World × Rendered) Event Trap :=
  ((app accepts).track Rendered.next).restrict fun s e => Sends s.1 s.2 e = true

instance (accepts : String → Bool) (s : World × Rendered) (e : Event) :
    Decidable ((appJs accepts).enabled s e) :=
  inferInstanceAs (Decidable (s.1.enabled e ∧ Sends s.1 s.2 e = true))

/-! ## Tokens -/

/-- No observer is removed, and the token in the field is the old one or registered with `p`. -/
structure Grows (p : Option PlayerId) (s s' : Scope) : Prop where
  observers : ∀ o ∈ s.env.observers, o ∈ s'.env.observers
  token : ∀ t ∈ s'.self.timeObserver,
    t ∈ s.self.timeObserver ∨ ∀ q ∈ p, ⟨t, q⟩ ∈ s'.env.observers

namespace Grows

variable {p : Option PlayerId} {s s' s'' : Scope}

theorem same (ho : s'.env.observers = s.env.observers)
    (ht : s'.self.timeObserver = s.self.timeObserver) : Grows p s s' :=
  ⟨fun o h => by rw [ho]; exact h, fun t h => .inl (by rw [← ht]; exact h)⟩

theorem refl (s : Scope) : Grows p s s := same rfl rfl

theorem trans (h₁ : Grows p s s') (h₂ : Grows p s' s'') : Grows p s s'' where
  observers o h := h₂.observers o (h₁.observers o h)
  token t h := by
    obtain ht | ht := h₂.token t h
    · exact (h₁.token t ht).imp_right fun hq q hp => h₂.observers _ (hq q hp)
    · exact .inr ht

theorem commands {q : Option PlayerId} (h : Commands q s s') : Grows p s s' :=
  same h.observers h.timeObserver

theorem silent (h : Silent s s') : Grows p s s' := same h.observers h.timeObserver

theorem addTimeObserver (p : Option PlayerId) (s : Scope) : Grows p s (s.addTimeObserver p) := by
  cases p with
  | none => exact ⟨fun _ => id, (fun t ht => by cases ht)⟩
  | some q =>
    refine ⟨fun o h => List.mem_append_left _ h, fun t ht => .inr fun r hr => ?_⟩
    cases ht
    cases hr
    exact List.mem_append_right _ (List.mem_singleton.mpr rfl)

theorem removable (h : Grows p s s') (hr : s.Removable p) : s'.Removable p := by
  intro t ht q hq
  obtain ht | ht := h.token t ht
  · exact h.observers _ (hr t ht q hq)
  · exact ht q hq

end Grows

namespace PsVideoView

variable {s s' : Scope}

theorem playAction_grows (s : Scope) : Grows s.env.player s (playAction s) := by
  obtain ⟨_, h⟩ | ⟨_, h⟩ := playAction_commands s
  · rw [h]; exact .commands (.pauseAction s)
  · refine Grows.trans ?_ (.commands h)
    unfold addObservers
    split
    · exact .addTimeObserver _ s
    · exact .refl s

theorem control_grows {c : Control} (h : control c s = .ok s') : Grows s.env.player s s' := by
  cases c with
  | play => cases h; exact playAction_grows s
  | stop => cases h; exact .commands (.stopAction s)
  | forward => exact .commands (.forwardAction h)
  | backward => exact .commands (.backwardAction h)
  | slider x => exact .commands (.sliderAction h)
  | row settings i => exact .commands (.didSelectRowAt h)
  | _ => cases h; exact .same rfl rfl

/-- Whatever the field held, after `viewDismissed` it holds a token of the current player or, if that
is not playing, what it held. -/
theorem viewDismissed_grows (p : PlayerId) (layer : Handle) (quality speed : String) (s : Scope) :
    Grows (some p) s (viewDismissed p layer quality speed s) := by
  have h0 : Grows (some p) s (receive p layer quality speed s) := .same rfl rfl
  refine h0.trans ?_
  unfold viewDismissed
  dsimp only
  split
  · refine .trans ?_ (.commands (.setVideoQuality _ _))
    refine .trans ?_ (.commands (.setVideoSpeed _ _))
    refine .trans ?_ (.silent (.startTimer _))
    refine .trans ?_ (.addTimeObserver _ _)
    exact .commands ((Commands.call _ _).trans (.controls _ _))
  · exact .commands (.pauseAction _)

end PsVideoView

namespace PsVideoFullViewVC

variable {s s' : FullScope}

theorem on_grows {q : Option PlayerId} {f : Option PlayerId → Scope → Scope}
    (hf : Frame s.scope (f s.self.player s.scope))
    (h : Grows q s.scope (f s.self.player s.scope)) : Grows q s.scope (s.on f).scope := by
  rw [FullScope.on, FullScope.scope_put hf.me]; exact h

theorem on_commands {q : Option PlayerId} {f : Option PlayerId → Scope → Scope}
    (h : Commands s.self.player s.scope (f s.self.player s.scope)) :
    Grows q s.scope (s.on f).scope := on_grows h.toFrame (.commands h)

theorem tryOn_grows {f : Option PlayerId → Scope → Except Trap Scope}
    (hf : ∀ r, f s.self.player s.scope = .ok r → Commands s.self.player s.scope r)
    (h : s.tryOn f = .ok s') : Grows s.self.player s.scope s'.scope := by
  obtain ⟨r, hr, rfl⟩ := FullScope.of_tryOn h
  rw [FullScope.scope_put (hf r hr).me]
  exact .commands (hf r hr)

theorem addTimeObserver_grows {q : Option PlayerId} (hq : s.self.player = q) :
    Grows q s.scope (addTimeObserver s).scope :=
  on_grows (.addTimeObserver _ _) (hq ▸ .addTimeObserver _ _)

theorem play_grows {q : Option PlayerId} (s : FullScope) : Grows q s.scope
    ((s.on fun p => (·.call p .play)).on fun _ => (·.controls (·.selectPlay true))).scope :=
  (on_commands (f := fun p => (·.call p .play)) (.call _ .play)).trans
    (on_commands (.controls _ _))

/-- Set the speed, then the quality. -/
theorem settings_grows {q : Option PlayerId} (r : String) (d : FullScope → String)
    (s : FullScope) : Grows q s.scope
      (setVideoQuality (d (setVideoSpeed r s)) (setVideoSpeed r s)).scope :=
  (on_commands (.setVideoSpeed r _)).trans (on_commands (.setVideoQuality _ _))

theorem viewDidAppear_grows (s : FullScope) : Grows s.self.player s.scope (viewDidAppear s).scope := by
  unfold viewDidAppear
  split
  · refine .trans ?_ (settings_grows _ (·.self.playerQuality) _)
    refine .trans ?_ (on_grows (.startTimer _) (.silent (.startTimer _)))
    exact (play_grows s).trans (addTimeObserver_grows rfl)
  · exact .refl _

theorem playAction_grows (s : FullScope) : Grows s.self.player s.scope (playAction s).scope := by
  unfold playAction
  split
  · exact on_commands (.pauseAction _)
  · refine .trans ?_ (settings_grows _ (·.self.playerQuality) _)
    refine .trans ?_ (play_grows _)
    split
    · exact addTimeObserver_grows rfl
    · exact .refl _

theorem control_grows {c : Control} (hc : c ≠ .fullScreen) (h : control c s = .ok s') :
    Grows s.self.player s.scope s'.scope := by
  cases c with
  | fullScreen => exact absurd rfl hc
  | play => cases h; exact playAction_grows s
  | stop => cases h; exact on_commands (.stopAction _)
  | forward => exact tryOn_grows (fun r hr => .forwardAction hr) h
  | backward => exact tryOn_grows (fun r hr => .backwardAction hr) h
  | slider x =>
    exact tryOn_grows (f := fun p => (·.sliderAction p x)) (fun r hr => .sliderAction hr) h
  | row settings i =>
    exact tryOn_grows (f := fun p => (·.didSelectRowAt p i)) (fun r hr => .didSelectRowAt hr) h
  | settings | videoQuality | controlsView | playerView => cases h; exact .same rfl rfl

end PsVideoFullViewVC

/-! ## The world -/

/-- What neither mounts nor unmounts a view nor sets a property. -/
def Event.native : Event → Bool
  | .mount | .unmount _ | .property _ _ => false
  | _ => true

/-- The event runs a handler of view `v` that may add an observer. -/
def Event.drives (v : ViewId) : Event → Bool
  | .tap u _ | .delayedBlock u => u = v
  | _ => false

/-- The same players, and the observers of every object as in `Grows`. -/
structure TokensGrow (e : Event) (w w' : World) : Prop where
  player : w'.env.player = w.env.player
  vcPlayer : ∀ k, (w'.vcs k).player = (w.vcs k).player
  view : ∀ v, Grows w.env.player (w.scope v) (w'.scope v)
  kept : ∀ v, e.drives v = false → (w'.views v).timeObserver = (w.views v).timeObserver
  vc : ∀ k, Grows (w.vcs k).player (w.fullScope k).scope (w'.fullScope k).scope

namespace TokensGrow

variable {accepts : String → Bool} {e : Event} {w w' w'' : World}

theorem same (hp : w'.env.player = w.env.player) (ho : w'.env.observers = w.env.observers)
    (hv : w'.views = w.views) (hk : w'.vcs = w.vcs) : TokensGrow e w w' where
  player := hp
  vcPlayer k := by rw [hk]
  view v := .same ho (by simp only [World.scope, hv])
  kept v _ := by rw [hv]
  vc k := .same ho (by simp only [World.fullScope, FullScope.scope, hk])

theorem refl (w : World) : TokensGrow e w w := same rfl rfl rfl rfl

theorem trans (h₁ : TokensGrow e w w') (h₂ : TokensGrow e w' w'') : TokensGrow e w w'' where
  player := h₂.player.trans h₁.player
  vcPlayer k := (h₂.vcPlayer k).trans (h₁.vcPlayer k)
  view v := (h₁.view v).trans (h₁.player ▸ h₂.view v)
  kept v hv := (h₂.kept v hv).trans (h₁.kept v hv)
  vc k := (h₁.vc k).trans (h₁.vcPlayer k ▸ h₂.vc k)

theorem put {v : ViewId} {s : Scope} (hm : s.me = .view v) (hp : s.env.player = w.env.player)
    (hg : Grows w.env.player (w.scope v) s)
    (hk : e.drives v = false → s.self.timeObserver = (w.views v).timeObserver) :
    TokensGrow e w (w.put v s) where
  player := hp
  vcPlayer _ := rfl
  view u := by
    by_cases hu : u = v
    · subst hu; rw [World.scope_put hm]; exact hg
    · exact ⟨hg.observers, fun t ht => .inl (by
        simpa [World.scope, World.put, Function.update_of_ne hu] using ht)⟩
  kept u hd := by
    by_cases hu : u = v
    · subst hu; simpa [World.put] using hk hd
    · simp [World.put, Function.update_of_ne hu]
  vc _ := ⟨hg.observers, fun _ => .inl⟩

theorem fullPut {k : VcId} {s : FullScope} (hf : FullFrame (w.fullScope k) s)
    (hg : Grows (w.vcs k).player (w.fullScope k).scope s.scope) :
    TokensGrow e w (w.fullPut k s) where
  player := hf.frame.player
  vcPlayer j := by
    by_cases hj : j = k
    · subst hj
      have hp : s.self.player = (w.vcs j).player := hf.player
      simpa [World.fullPut] using hp
    · simp [World.fullPut, Function.update_of_ne hj]
  view _ := ⟨hg.observers, fun _ => .inl⟩
  kept _ _ := rfl
  vc j := by
    by_cases hj : j = k
    · subst hj; rw [World.fullScope_fullPut hf.frame.me]; exact hg
    · exact ⟨hg.observers, fun t ht => .inl (by
        simpa [World.fullScope, FullScope.scope, World.fullPut, Function.update_of_ne hj] using ht)⟩

theorem silent (h : SilentStep w w') : TokensGrow e w w' := by
  cases h with
  | refl => exact refl w
  | put h => exact .put h.me h.player (.silent h) fun _ => h.timeObserver
  | fullPut hf h => exact .fullPut hf (.silent h)

theorem background (w : World) :
    TokensGrow e w (w.env.registrations.foldl World.notifyBackground w) :=
  background_rule (P := TokensGrow e w) (refl w) fun _ _ _ _ _ hi => hi.trans
    (.fullPut (PsVideoFullViewVC.pauseAction_frame _)
      (PsVideoFullViewVC.on_commands (.pauseAction _)))

/-- The native events other than the three that remove a token or change the player. -/
theorem step (hn : e.native = true) (h1 : ∀ v, e ≠ .tap v .fullScreen)
    (h2 : e ≠ .fullTap .fullScreen) (h3 : e ≠ .viewDismissed) (he : w.enabled e)
    (h : w.step accepts e = .ok w') : TokensGrow e w w' := by
  cases e with
  | mount | unmount | property => cases hn
  | tap v c =>
    obtain ⟨s, hs, rfl⟩ := tap_ok (fun hc => h1 v (by rw [hc])) h
    have hf := PsVideoView.control_frame hs
    exact .put hf.me hf.player (PsVideoView.control_grows hs) fun hd => by simp [Event.drives] at hd
  | fullTap c =>
    obtain ⟨k, s, _, _, _, hs, rfl⟩ := fullTap_ok he h
    have hg := PsVideoFullViewVC.control_grows (fun hc => h2 (by rw [hc])) hs
    have hput : TokensGrow (.fullTap c) w (w.fullPut k s) :=
      .fullPut (PsVideoFullViewVC.control_frame hs) hg
    exact hput.trans (.same rfl rfl rfl rfl)
  | viewDidAppear =>
    obtain ⟨k, _, rfl⟩ := viewDidAppear_ok he h
    have hput : TokensGrow .viewDidAppear w _ :=
      .fullPut (PsVideoFullViewVC.viewDidAppear_frame (w.fullScope k))
        (PsVideoFullViewVC.viewDidAppear_grows (w.fullScope k))
    exact hput.trans (.same rfl rfl rfl rfl)
  | viewDismissed => exact absurd rfl h3
  | delayedBlock v =>
    cases h
    have hf := PsVideoView.playBlock_frame (w.scope v)
    have h0 : TokensGrow (.delayedBlock v) w { w with delayed := w.delayed.tail } :=
      .same rfl rfl rfl rfl
    have hinit : Grows w.env.player (w.scope v) (PsVideoView.initVideoPlayer (w.scope v)) :=
      .same rfl rfl
    have hg : Grows w.env.player (w.scope v) (PsVideoView.playBlock (w.scope v)) :=
      hinit.trans (PsVideoView.playAction_grows (PsVideoView.initVideoPlayer (w.scope v)))
    exact h0.trans (.put hf.me hf.player hg fun hd => by simp [Event.drives] at hd)
  | playAnotherVideo url => cases h; exact .same rfl rfl rfl rfl
  | mainBlock =>
    obtain ⟨_, _, _, rfl⟩ := mainBlock_ok he h
    exact .same rfl rfl rfl rfl
  | background => cases h; exact .background w
  | timer t => cases h; exact .silent (.timer w t)
  | tick t => exact .silent (.tick h)
  | itemProgress p status duration time => cases h; exact .same rfl rfl rfl rfl
  | itemEnd p | playbackError p => cases h; exact .same rfl rfl rfl rfl

end TokensGrow

namespace App

def Rendered.hasUrl : Rendered → Bool
  | .hidden => false
  | .creating url _ => url
  | .shown => true

/-- There is no view that waits for its `play`. -/
def Rendered.played : Rendered → Bool
  | .creating _ play => play
  | _ => true

def Rendered.settled : Rendered → Bool
  | .creating _ _ => false
  | _ => true

/-- The events that are sent, and what becomes of the view. -/
inductive Sent (w : World) : Rendered → Event → Rendered → Prop where
  | mount : w.screen = .inline → Sent w .hidden .mount (.creating false false)
  | unmount {v : ViewId} : Sent w .shown (.unmount v) .hidden
  | url {v : ViewId} {play : Bool} : Sent w (.creating false play) (.property v (.url videoUri))
      (if play then .shown else .creating true false)
  | play {v : ViewId} {url : Bool} : Sent w (.creating url false) (.property v (.play true))
      (if url then .shown else .creating false true)
  | native {r : Rendered} {e : Event} : e.native = true → r.settled = true → Sent w r e r

theorem sent {w : World} {r : Rendered} {e : Event} (h : Sends w r e = true) :
    Sent w r e (r.next e) := by
  cases r with
  | hidden =>
    cases e with
    | mount => exact .mount (of_decide_eq_true h)
    | unmount v | property v p => cases h
    | _ => exact .native rfl rfl
  | creating url play =>
    cases e with
    | property v p =>
      cases p with
      | url u =>
        cases url with
        | false =>
          obtain rfl : u = videoUri := of_decide_eq_true h
          exact .url
        | true => cases play <;> cases h
      | play b =>
        cases play with
        | false =>
          obtain rfl : b = true := by cases url <;> exact h
          exact .play
        | true => cases url <;> cases h
      | _ => cases url <;> cases play <;> cases h
    | _ => cases url <;> cases play <;> cases h
  | shown =>
    cases e with
    | mount | property v p => cases h
    | unmount v => exact .unmount
    | _ => exact .native rfl rfl

end App

/-! ## The invariant -/

/-- At most one view is mounted, the newest. Its player is there once it has its url, and it gets
one block. Its token can be removed while it can be tapped, and so can that of a controller that has
not been dismissed; in a session the view has none. -/
structure Driven (es : List Event) (w : World) (r : Rendered) : Prop where
  hidden : r = .hidden → ∀ v, w.mounted v = false
  newest : ∀ v, w.mounted v = true → v + 1 = w.nextView
  player : r.hasUrl = true → w.env.player ≠ none
  vcs : ∀ k, w.Made k → (w.vcs k).player ≠ none
  once : ∀ v, w.delayed.count v + es.count (.delayedBlock v) ≤ 1
  unplayed : r.played = false → ∀ v, w.mounted v = true →
    w.delayed.count v + es.count (.delayedBlock v) = 0
  creating : r.settled = false → w.screen = .inline ∧
    ∀ v, w.mounted v = true → (w.views v).timeObserver = none
  inline : w.screen = .inline → ∀ v, w.mounted v = true → (w.scope v).Removable w.env.player
  session : ∀ k, w.screen.vc = some k → w.env.player = (w.vcs k).player ∧
    ∀ v, w.mounted v = true → (w.views v).timeObserver = none ∧ .delayedBlock v ∈ es
  up : ∀ k, w.screen.vc = some k → w.screen ≠ .dismissing k →
    (w.fullScope k).scope.Removable (w.vcs k).player

theorem Scope.Removable.of_none {p : Option PlayerId} {s : Scope}
    (h : s.self.timeObserver = none) : s.Removable p := by
  intro t ht
  rw [h] at ht; cases ht

theorem driven_launch : Driven [] .launch .hidden where
  hidden _ _ := rfl
  newest v hv := by cases hv
  player h := by cases h
  vcs k hk := absurd hk (Nat.not_lt_zero _)
  once v := by simp [World.launch]
  unplayed h := by cases h
  creating h := by cases h
  inline _ v hv := by cases hv
  session k hk := by cases hk
  up k hk := by cases hk

section Native

variable {accepts : String → Bool} {e : Event} {w w' : World}

theorem native_world (hn : e.native = true) (he : w.enabled e) (h : w.step accepts e = .ok w') :
    w'.mounted = w.mounted ∧ w'.nextView = w.nextView ∧
      ((∀ v, e ≠ .delayedBlock v) → w'.delayed = w.delayed) := by
  cases e with
  | mount | unmount | property => cases hn
  | tap v c =>
    by_cases hf : c = .fullScreen
    · subst hf
      obtain ⟨s, layer, _, _, _, rfl⟩ := fullScreen_ok h
      exact ⟨rfl, rfl, fun _ => rfl⟩
    · obtain ⟨s, _, rfl⟩ := tap_ok hf h
      exact ⟨rfl, rfl, fun _ => rfl⟩
  | fullTap c =>
    obtain ⟨k, s, _, _, _, _, rfl⟩ := fullTap_ok he h
    exact ⟨rfl, rfl, fun _ => rfl⟩
  | viewDidAppear =>
    obtain ⟨k, _, rfl⟩ := viewDidAppear_ok he h
    exact ⟨rfl, rfl, fun _ => rfl⟩
  | viewDismissed =>
    obtain ⟨k, p, layer, _, _, _, rfl⟩ := viewDismissed_ok he h
    exact ⟨rfl, rfl, fun _ => rfl⟩
  | delayedBlock v => cases h; exact ⟨rfl, rfl, fun hne => absurd rfl (hne v)⟩
  | mainBlock =>
    obtain ⟨_, _, _, rfl⟩ := mainBlock_ok he h
    exact ⟨rfl, rfl, fun _ => rfl⟩
  | background =>
    cases h
    exact background_rule (P := fun w' => w'.mounted = w.mounted ∧ w'.nextView = w.nextView ∧
      (_ → w'.delayed = w.delayed)) ⟨rfl, rfl, fun _ => rfl⟩ fun _ _ _ _ _ hi => hi
  | timer t =>
    cases h
    have hs := SilentStep.timer w t
    generalize w.timer t = w₁ at hs ⊢
    cases hs <;> exact ⟨rfl, rfl, fun _ => rfl⟩
  | tick t =>
    cases tick_ok h <;> exact ⟨rfl, rfl, fun _ => rfl⟩
  | _ => cases h; exact ⟨rfl, rfl, fun _ => rfl⟩

end Native

theorem Screen.inline_of_vc {s : Screen} (h : s.vc = none) : s = .inline := by
  cases s with
  | inline => rfl
  | presenting k | presented k | dismissing k => cases h

/-- A controller that is being dismissed stays so until it is gone. -/
theorem step_dismissing {accepts : String → Bool} {e : Event} {w w' : World} {k : VcId}
    (hn : e.native = true) (h3 : e ≠ .viewDismissed) (hk : w.screen = .dismissing k)
    (he : w.enabled e) (h : w.step accepts e = .ok w') : w'.screen = .dismissing k := by
  cases e with
  | mount | unmount | property => cases hn
  | tap v c =>
    have hin := he.2.1
    rw [hk] at hin; cases hin
  | fullTap c =>
    obtain ⟨j, s, hj, _, _, _, rfl⟩ := fullTap_ok he h
    have hj : w.screen.vc = some j := hj
    rw [hk] at hj
    cases hj
    dsimp only
    split
    · rfl
    · exact hk
  | viewDidAppear =>
    obtain ⟨j, hj, _⟩ := viewDidAppear_ok he h
    rw [hk] at hj; cases hj
  | viewDismissed => exact absurd rfl h3
  | mainBlock =>
    obtain ⟨_, _, _, rfl⟩ := mainBlock_ok he h
    exact hk
  | background => cases h; exact (background_screen w).trans hk
  | timer t => cases h; exact (SilentStep.timer w t).screen.trans hk
  | tick t => exact (SilentStep.tick h).screen.trans hk
  | _ => cases h; exact hk

namespace Driven

variable {accepts : String → Bool} {e : Event} {w w' : World} {r : Rendered} {es : List Event}

theorem count_snoc (hne : ∀ v, e ≠ .delayedBlock v) (v : ViewId) :
    (es ++ [e]).count (.delayedBlock v) = es.count (.delayedBlock v) := by
  simp [hne v]

theorem mount (hi : Driven es w .hidden) (hl : Lined es w) (hin : w.screen = .inline)
    (h : w.step accepts .mount = .ok w') :
    Driven (es ++ [.mount]) w' (.creating false false) := by
  cases h
  have hnew : ∀ v, Function.update w.mounted w.nextView true v = true → v = w.nextView := by
    intro v hv
    by_contra hne
    rw [Function.update_of_ne hne, hi.hidden rfl v] at hv
    cases hv
  have hempty : ∀ v, Function.update w.mounted w.nextView true v = true →
      (Function.update w.views w.nextView
        (PsVideoView.init.setup (.view w.nextView)) v).timeObserver = none := by
    intro v hv
    obtain rfl := hnew v hv
    rw [Function.update_self]; rfl
  have hvc : w.screen.vc = none := by rw [hin]; rfl
  refine ⟨(fun hr => by cases hr), fun v hv => by rw [hnew v hv], (fun hr => by cases hr), hi.vcs,
    fun v => ?_, fun _ v hv => ?_, fun _ => ⟨hin, hempty⟩, fun _ v hv => .of_none (hempty v hv),
    fun k hk => ?_, fun k hk => ?_⟩
  · rw [count_snoc (by simp)]; exact hi.once v
  · obtain rfl := hnew v hv
    rw [count_snoc (by simp)]
    have h1 : w.nextView ∉ w.delayed := fun hm => Nat.lt_irrefl _ (hl.delayed _ hm)
    have h2 : .delayedBlock w.nextView ∉ es := fun hm => Nat.lt_irrefl _ (hl.ran _ hm)
    rw [List.count_eq_zero_of_not_mem h1, List.count_eq_zero_of_not_mem h2]
  · cases hvc.symm.trans hk
  · cases hvc.symm.trans hk

theorem unmount {u : ViewId} (hi : Driven es w .shown) (hu : w.mounted u = true)
    (h : w.step accepts (.unmount u) = .ok w') : Driven (es ++ [.unmount u]) w' .hidden := by
  cases h
  have hold : ∀ v, Function.update w.mounted u false v = true → w.mounted v = true ∧ v ≠ u := by
    intro v hv
    by_cases hne : v = u
    · subst hne; simp at hv
    · rw [Function.update_of_ne hne] at hv; exact ⟨hv, hne⟩
  refine ⟨fun _ v => ?_, fun v hv => hi.newest v (hold v hv).1, (fun hr => by cases hr), hi.vcs,
    fun v => ?_, (fun hr => by cases hr), (fun hr => by cases hr),
    fun hin v hv => hi.inline hin v (hold v hv).1, fun k hk => ?_, hi.up⟩
  · -- the only view that was mounted is `u`
    refine eq_false_of_ne_true fun hv => ?_
    obtain ⟨hm, hne⟩ := hold v hv
    exact hne (Nat.succ.inj ((hi.newest v hm).trans (hi.newest u hu).symm))
  · rw [count_snoc (by simp)]; exact hi.once v
  · obtain ⟨hp, hs⟩ := hi.session k hk
    refine ⟨hp, fun v hv => ?_⟩
    obtain ⟨ht, hb⟩ := hs v (hold v hv).1
    exact ⟨ht, List.mem_append_left _ hb⟩

theorem url {v : ViewId} {play : Bool} (hi : Driven es w (.creating false play))
    (h : w.step accepts (.property v (.url videoUri)) = .ok w') :
    Driven (es ++ [.property v (.url videoUri)]) w'
      (if play then .shown else .creating true false) := by
  obtain ⟨_, rfl⟩ := url_ok h
  obtain ⟨hin, hempty⟩ := hi.creating rfl
  have hvc : w.screen.vc = none := by rw [hin]; rfl
  refine ⟨fun hr => ?_, hi.newest, (fun _ hp => by cases hp), hi.vcs, fun u => ?_, fun hr u hu => ?_,
    fun _ => ⟨hin, hempty⟩, fun _ u hu => .of_none (hempty u hu), fun k hk => ?_, fun k hk => ?_⟩
  · cases play <;> cases hr
  · rw [count_snoc (by simp)]; exact hi.once u
  · rw [count_snoc (by simp)]
    cases play with
    | true => cases hr
    | false => exact hi.unplayed rfl u hu
  · cases hvc.symm.trans hk
  · cases hvc.symm.trans hk

theorem play {v : ViewId} {url : Bool} (hi : Driven es w (.creating url false))
    (hv : w.mounted v = true) (h : w.step accepts (.property v (.play true)) = .ok w') :
    Driven (es ++ [.property v (.play true)]) w'
      (if url then .shown else .creating false true) := by
  cases h
  obtain ⟨hin, hempty⟩ := hi.creating rfl
  have hvc : w.screen.vc = none := by rw [hin]; rfl
  refine ⟨fun hr => ?_, hi.newest, fun hr => ?_, hi.vcs, fun u => ?_, fun hr => ?_,
    fun _ => ⟨hin, hempty⟩, fun _ u hu => .of_none (hempty u hu), fun k hk => ?_, fun k hk => ?_⟩
  · cases url <;> cases hr
  · cases url with
    | true => exact hi.player rfl
    | false => cases hr
  · rw [count_snoc (by simp), List.count_append]
    by_cases hu : u = v
    · -- the view waited for its block
      subst hu
      have h0 := hi.unplayed rfl u hv
      simp only [List.count_singleton_self]
      omega
    · have h1 := hi.once u
      simpa [Ne.symm hu] using h1
  · cases url <;> cases hr
  · cases hvc.symm.trans hk
  · cases hvc.symm.trans hk

/-- A native event has only to keep the players of the controllers and the tokens. -/
theorem native (hi : Driven es w r) (hn : e.native = true) (hr : r.settled = true)
    (he : w.enabled e) (h : w.step accepts e = .ok w')
    (hvcs : ∀ k, w'.Made k → (w'.vcs k).player ≠ none)
    (hinline : w'.screen = .inline → ∀ v, w.mounted v = true →
      (w'.scope v).Removable w'.env.player)
    (hsession : ∀ k, w'.screen.vc = some k → w'.env.player = (w'.vcs k).player ∧
      ∀ v, w.mounted v = true → (w'.views v).timeObserver = none ∧ .delayedBlock v ∈ es)
    (hup : ∀ k, w'.screen.vc = some k → w'.screen ≠ .dismissing k →
      (w'.fullScope k).scope.Removable (w'.vcs k).player) : Driven (es ++ [e]) w' r := by
  obtain ⟨hm, hnv, hd⟩ := native_world hn he h
  refine ⟨fun hh v => by rw [hm]; exact hi.hidden hh v, fun v hv => ?_, fun hu => ?_, hvcs,
    fun v => ?_, fun hpl => ?_, fun hs => ?_, fun hin v hv => hinline hin v (hm ▸ hv),
    fun k hk => ⟨(hsession k hk).1, fun v hv => ?_⟩, hup⟩
  · rw [hnv]; exact hi.newest v (hm ▸ hv)
  · obtain hp | ⟨v, u, rfl, _⟩ | ⟨k, rfl, hk, hp⟩ := step_player he h
    · rw [hp]; exact hi.player hu
    · cases hn
    · rw [hp, ← (hi.session k hk).1]; exact hi.player hu
  · by_cases hb : ∃ u, e = .delayedBlock u
    · -- a block moves from the queue to the past
      obtain ⟨u, rfl⟩ := hb
      have h1 := hi.once v
      cases h
      obtain ⟨rest, hrest⟩ := List.head?_eq_some_iff.mp he
      simp only [World.put, hrest, List.tail_cons, List.count_append, List.count_cons,
        List.count_nil] at h1 ⊢
      by_cases huv : u = v
      · subst huv; simp at h1 ⊢; omega
      · simp [huv] at h1 ⊢; omega
    · have hne : ∀ u, e ≠ .delayedBlock u := fun u hu => hb ⟨u, hu⟩
      rw [hd hne, count_snoc hne]; exact hi.once v
  · cases r with
    | hidden | shown => cases hpl
    | creating url play => cases hr
  · rw [hr] at hs; cases hs
  · obtain ⟨ht, hb⟩ := (hsession k hk).2 v (hm ▸ hv)
    exact ⟨ht, List.mem_append_left _ hb⟩

/-- An event that only adds observers. -/
theorem grows (hi : Driven es w r) (hn : e.native = true) (hr : r.settled = true)
    (h1 : ∀ v, e ≠ .tap v .fullScreen) (h2 : e ≠ .fullTap .fullScreen) (h3 : e ≠ .viewDismissed)
    (he : w.enabled e) (h : w.step accepts e = .ok w') : Driven (es ++ [e]) w' r := by
  have hg := TokensGrow.step hn h1 h2 h3 he h
  obtain ⟨hs, hc, hd⟩ : w'.screen.vc = w.screen.vc ∧ w'.vcCount = w.vcCount ∧
      ∀ k, w.screen = .dismissing k → w'.screen = .dismissing k := by
    cases hq : e.quiet with
    | true =>
      have q := step_quiet hq he h
      exact ⟨q.screen, q.vcCount, fun k hk => step_dismissing hn h3 hk he h⟩
    | false =>
      cases e with
      | mount | unmount | property => cases hn
      | tap v c =>
        cases c with
        | fullScreen => exact absurd rfl (h1 v)
        | _ => cases hq
      | viewDismissed => exact absurd rfl h3
      | delayedBlock v => cases h; exact ⟨rfl, rfl, fun _ => id⟩
      | _ => cases hq
  refine hi.native hn hr he h (fun k hk => ?_) (fun hin v hv => ?_) (fun k hk => ?_)
    fun k hk hne => ?_
  · rw [World.Made, hc] at hk
    rw [hg.vcPlayer]; exact hi.vcs k hk
  · have hvc : w.screen.vc = none := by rw [← hs, hin]; rfl
    rw [hg.player]
    exact (hg.view v).removable (hi.inline (Screen.inline_of_vc hvc) v hv)
  · rw [hs] at hk
    obtain ⟨hp, hv⟩ := hi.session k hk
    refine ⟨by rw [hg.player, hg.vcPlayer]; exact hp, fun v hm => ?_⟩
    obtain ⟨ht, hb⟩ := hv v hm
    refine ⟨(hg.kept v ?_).trans ht, hb⟩
    -- the view is covered, and its block has run
    cases e with
    | tap u c =>
      have hin := he.2.1
      rw [hin] at hk; cases hk
    | delayedBlock u =>
      refine decide_eq_false ?_
      rintro rfl
      have hone := hi.once u
      have hq := List.count_pos_iff.mpr (List.mem_of_mem_head? he)
      have hb := List.count_pos_iff.mpr hb
      omega
    | _ => rfl
  · rw [hs] at hk
    rw [hg.vcPlayer]
    exact (hg.vc k).removable (hi.up k hk fun hdis => hne (hd k hdis))

/-- The full-screen button of the view that is shown. -/
theorem fullScreen {v : ViewId} (hi : Driven es w r) (hl : Lined es w) (hr : r.settled = true)
    (he : w.enabled (.tap v .fullScreen)) (h : w.step accepts (.tap v .fullScreen) = .ok w') :
    Driven (es ++ [.tap v .fullScreen]) w' r := by
  have hp : w.env.player ≠ none := by
    cases r with
    | hidden => have hm := hi.hidden rfl v; rw [he.1] at hm; cases hm
    | creating url play => cases hr
    | shown => exact hi.player rfl
  have h0 := h
  obtain ⟨s, layer, hs, hf, hlay, rfl⟩ := fullScreen_ok h
  have hran : .delayedBlock v ∈ es := by
    by_contra hno
    rw [(hl.layer v).mpr hno] at hlay; cases hlay
  refine hi.native rfl hr he h0 (fun k hk => ?_) (fun hin => by cases hin) (fun k hk => ?_)
    fun k hk _ => ?_
  · by_cases hkn : k = w.nextVc v
    · subst hkn
      simpa [presentedVC, World.scope] using hp
    · have hk := ((World.made_of_count (w := w) (v := v) rfl k).mp hk).resolve_right hkn
      simpa [Function.update_of_ne hkn] using hi.vcs k hk
  · obtain rfl : w.nextVc v = k := Option.some.inj hk
    refine ⟨?_, fun u hu => ?_⟩
    · simpa [presentedVC, World.scope, World.put, Env.addSublayer, Env.addObserver] using hf.player
    · -- the view that is mounted is the one that was tapped
      obtain rfl : u = v := Nat.succ.inj ((hi.newest u hu).trans (hi.newest v he.1).symm)
      exact ⟨by simp [World.put], hran⟩
  · obtain rfl : w.nextVc v = k := Option.some.inj hk
    exact .of_none (by simp [World.fullScope, FullScope.scope, presentedVC])

/-- The exit button. -/
theorem exit (hi : Driven es w r) (hr : r.settled = true)
    (he : w.enabled (.fullTap .fullScreen)) (h : w.step accepts (.fullTap .fullScreen) = .ok w') :
    Driven (es ++ [.fullTap .fullScreen]) w' r := by
  have hq := step_quiet rfl he h
  have h0 := h
  obtain ⟨k, s, hk, _, _, _, rfl⟩ := fullTap_ok he h
  refine hi.native rfl hr he h0 (fun j hj => ?_) (fun hin => by cases hin) (fun j hj => ?_)
    fun j hj hne => ?_
  · rw [hq.vcPlayer]; exact hi.vcs j hj
  · obtain rfl : k = j := Option.some.inj hj
    rw [hq.player, hq.vcPlayer]
    exact hi.session k hk
  · obtain rfl : k = j := Option.some.inj hj
    exact absurd rfl hne

theorem viewDismissed (hi : Driven es w r) (hr : r.settled = true)
    (he : w.enabled .viewDismissed) (h : w.step accepts .viewDismissed = .ok w') :
    Driven (es ++ [.viewDismissed]) w' r := by
  have h0 := h
  obtain ⟨k, p, layer, hk, hp, _, rfl⟩ := viewDismissed_ok he h
  obtain ⟨_, hs⟩ := hi.session k hk
  have hf := PsVideoView.viewDismissed_frame p layer
    (w.vcs k).controlsView.videoQualityButton.title
    (w.vcs k).controlsView.settingsButton.title (w.scope (w.vcs k).delegate)
  have hg := PsVideoView.viewDismissed_grows p layer
    (w.vcs k).controlsView.videoQualityButton.title
    (w.vcs k).controlsView.settingsButton.title (w.scope (w.vcs k).delegate)
  refine hi.native rfl hr he h0 hi.vcs (fun _ v hv => ?_) (fun j hj => by cases hj)
    fun j hj => by cases hj
  have hpl := hf.player
  generalize PsVideoView.viewDismissed p layer _ _ (w.scope (w.vcs k).delegate) = s at hg hpl ⊢
  by_cases hd : v = (w.vcs k).delegate
  · -- the view has no token, or one that it has just got for its player
    subst hd
    have hrem : s.Removable (some p) := hg.removable (.of_none (hs _ hv).1)
    have hpl : s.env.player = some p := hpl
    intro t ht q hq
    simp only [World.put, World.scope, Function.update_self] at ht hq ⊢
    rw [hpl] at hq
    exact hrem t ht q hq
  · refine .of_none ?_
    simpa [World.put, World.scope, Function.update_of_ne hd] using (hs v hv).1

theorem step {r' : Rendered} (hi : Driven es w r) (hl : Lined es w) (hs : Sent w r e r')
    (he : w.enabled e) (h : w.step accepts e = .ok w') : Driven (es ++ [e]) w' r' := by
  cases hs with
  | mount hin => exact hi.mount hl hin h
  | unmount => exact hi.unmount he h
  | url => exact hi.url h
  | play => exact hi.play he h
  | native hn hr =>
    by_cases h1 : ∃ v, e = .tap v .fullScreen
    · obtain ⟨v, rfl⟩ := h1; exact hi.fullScreen hl hr he h
    by_cases h2 : e = .fullTap .fullScreen
    · subst h2; exact hi.exit hr he h
    by_cases h3 : e = .viewDismissed
    · subst h3; exact hi.viewDismissed hr he h
    exact hi.grows hn hr (fun v hv => h1 ⟨v, hv⟩) h2 h3 he h

end Driven

/-- Every run under `App.js` is a run of the native app, and keeps the invariant. -/
theorem driven_steps {accepts : String → Bool} {es : List Event} {s : World × Rendered}
    (h : Steps (appJs accepts) (.launch, .hidden) es s) :
    Steps (app accepts) .launch es s.1 ∧ Lined es s.1 ∧ Driven es s.1 s.2 := by
  have hrun : Steps (app accepts) .launch es s.1 := h.of_restrict.of_track
  refine ⟨hrun, lined_steps hrun, ?_⟩
  have hi := h.traced (I := fun es (s : World × Rendered) =>
    (Lined es s.1 ∧ Ledger es s.1) ∧ Driven es s.1 s.2) (fun es s e s' hi he hs => ?_) []
    ⟨⟨.launch, .launch⟩, driven_launch⟩
  · exact hi.2
  · obtain ⟨hs, hr⟩ := track_ok hs
    refine ⟨⟨hi.1.1.step hi.1.2 he.1 hs, hi.1.2.step he.1 hs⟩, ?_⟩
    rw [hr]
    exact hi.2.step hi.1.1 (sent he.2) he.1 hs

/-! ## The crashes that are left -/

/-- The full-screen button before the block of the view has run, the exit button a second time, and
times that do not convert. -/
inductive App.Crash (es : List Event) (w : World) : Event → Trap → Prop where
  | early {v : ViewId} : .delayedBlock v ∉ es → App.Crash es w (.tap v .fullScreen) .unwrapNil
  | twice {k : VcId} : w.screen = .dismissing k →
      ¬ (w.fullScope k).scope.Removable (w.vcs k).player →
      App.Crash es w (.fullTap .fullScreen) .observerNotRegistered
  | seek {v : ViewId} {c : Control} : c.Crash w.env w.env.player .conversion →
      App.Crash es w (.tap v c) .conversion
  | fullSeek {k : VcId} {c : Control} : w.screen.vc = some k →
      c.Crash w.env (w.vcs k).player .conversion → App.Crash es w (.fullTap c) .conversion
  | label {v : ViewId} {n : ℕ} {item : AVPlayerItem} :
      w.env.currentItem w.env.player = some item → item.Unshowable →
      App.Crash es w (.tick ⟨.view v, n⟩) .conversion
  | fullLabel {k : VcId} {n : ℕ} {item : AVPlayerItem} :
      w.env.currentItem (w.vcs k).player = some item → item.Unshowable →
      App.Crash es w (.tick ⟨.vc k, n⟩) .conversion

/-- With a player a control can only fail to convert. -/
theorem Control.Crash.conversion {env : Env} {p : Option PlayerId} {c : Control} {t : Trap}
    (h : c.Crash env p t) (hp : p ≠ none) : t = .conversion := by
  cases h with
  | noPlayer hn => exact absurd hn hp
  | forward _ _ | backward _ _ | slider _ _ => rfl

/-- **What can crash under `App.js`.** In every state that its runs reach, an event that can arrive
crashes the app exactly with the traps on the list: no url, no missing player and no observer of an
inline view does. -/
theorem app_crash_iff {accepts : String → Bool} {es : List Event} {w : World} {r : Rendered}
    {e : Event} {t : Trap} (hu : accepts videoUri = true)
    (h : Steps (appJs accepts) (.launch, .hidden) es (w, r))
    (he : (appJs accepts).enabled (w, r) e) :
    w.step accepts e = .error t ↔ App.Crash es w e t := by
  obtain ⟨hrun, hl, hi⟩ := driven_steps h
  obtain ⟨he, hs⟩ := he
  obtain ⟨r', hs⟩ : ∃ r', Sent w r e r' := ⟨_, sent hs⟩
  rw [(housed hrun).error_iff he]
  -- a view that is tapped is shown, with its player
  have hplayer : ∀ v c, e = .tap v c → w.env.player ≠ none := by
    rintro v c rfl
    cases hs with
    | native _ hr =>
      cases r with
      | hidden => have hm := hi.hidden rfl v; rw [he.1] at hm; cases hm
      | creating url play => cases hr
      | shown => exact hi.player rfl
  have hvc : ∀ k, w.screen.vc = some k → (w.vcs k).player ≠ none := fun k hk =>
    hi.vcs k (hl.opened k hk)
  constructor
  · intro hc
    cases hc with
    | url hn =>
      cases hs with
      | url => rw [hu] at hn; cases hn
      | native hn _ => cases hn
    | tap hc => obtain rfl := hc.conversion (hplayer _ _ rfl); exact .seek hc
    | fullTap hk hc => obtain rfl := hc.conversion (hvc _ hk); exact .fullSeek hk hc
    | observer hr => exact absurd (hi.inline he.2.1 _ he.1) hr
    | layer _ hn => exact .early ((hl.layer _).mp hn)
    | @fullObserver k hk hr =>
      by_cases hd : w.screen = .dismissing k
      · exact .twice hd hr
      · exact absurd (hi.up k hk hd) hr
    | dismissed hk hn => exact absurd hn (hvc _ hk)
    | label hi ht => exact .label hi ht
    | fullLabel hi ht => exact .fullLabel hi ht
  · intro hc
    cases hc with
    | early hn => exact .layer (hi.inline he.2.1 _ he.1) ((hl.layer _).mpr hn)
    | twice hd hr => exact .fullObserver (by rw [hd]; rfl) hr
    | seek hc => exact .tap hc
    | fullSeek hk hc => exact .fullTap hk hc
    | label hi ht => exact .label hi ht
    | fullLabel hi ht => exact .fullLabel hi ht

/-- The player is toggled away, but its observer still ticks, and the item turns out to be endless. -/
theorem app_crash_iff_toggled : ∃ w r, Steps (appJs fun _ => true) (.launch, .hidden)
    [.mount, .property 0 (.play true), .property 0 (.url videoUri), .delayedBlock 0, .unmount 0,
      .itemProgress ⟨0, 0⟩ .readyToPlay .indefinite (.makeMillis 1000)] (w, r) ∧
    w.mounted 0 = false ∧
    w.step (fun _ => true) (.tick ⟨.view 0, 0⟩) = .error .conversion := by
  obtain ⟨⟨w, r⟩, hw, hobs⟩ := Steps.of_exec_map (appJs fun _ => true) (.launch, .hidden)
    [.mount, .property 0 (.play true), .property 0 (.url videoUri), .delayedBlock 0, .unmount 0,
      .itemProgress ⟨0, 0⟩ .readyToPlay .indefinite (.makeMillis 1000)]
    (fun s => (decide ((appJs fun _ => true).enabled s (.tick ⟨.view 0, 0⟩)), s.1.mounted 0,
      (s.1.env.currentItem s.1.env.player).map fun item => (item.status, item.duration)))
    (a := (true, false, some (.readyToPlay, .indefinite))) (by decide +kernel)
  obtain ⟨he, hobs⟩ := Prod.mk.inj hobs
  obtain ⟨hv, hitem⟩ := Prod.mk.inj hobs
  obtain ⟨item, hi, ht⟩ := Option.map_eq_some_iff.mp hitem
  exact ⟨w, r, hw, hv, (app_crash_iff rfl hw (of_decide_eq_true he)).mpr (.label hi (.of_indefinite ht))⟩

end PsVideo
