import PsVideo.OneView

/-!
# PsVideo.Layers

Layers and the players behind them. Every delayed block makes a layer and nothing ever removes one,
so there is one layer as long as one block has run; and the layer keeps the player it was made for,
so it shows the current player as long as no other is made after it. A player is retained by the
static variable, by a layer in the layer tree, and by a full-screen controller that lives.
-/

namespace PsVideo

open Machine

/-- Something keeps the player alive. -/
def World.retains (w : World) (p : PlayerId) : Prop :=
  w.env.player = some p ∨ (∃ l, w.env.superlayer l ≠ none ∧ w.env.layerPlayer l = some p) ∨
    ∃ k, w.vcAlive k = true ∧ (w.vcs k).player = some p

/-- One layer in the view, the one in its field, bound to the current player; and no other player
that is still alive plays. -/
def OneLayer (w : World) : Prop :=
  ∃ l, (w.views 0).playerLayer = some l ∧ (∀ l', w.env.superlayer l' = some (.view 0) ↔ l' = l) ∧
    w.env.layerPlayer l = w.env.player ∧
    ∀ p, w.retains p → w.env.player ≠ some p → (w.env.players p).rate = 0

/-- A delayed block runs only while there is no layer, and a url update arrives only while there is
none or outside the inline view. -/
def LayerSafe (w : World) : Event → Bool
  | .delayedBlock _ => (w.views 0).playerLayer = none
  | .property _ (.url _) => (w.views 0).playerLayer = none ∨ w.screen ≠ .inline
  | _ => true

def LayerRun (w : World) (e : Event) : Prop := e.oneView = true ∧ LayerSafe w e

instance (w : World) (e : Event) : Decidable (LayerRun w e) := inferInstanceAs (Decidable (_ ∧ _))

/-- Before the first block: no layer anywhere, and no full-screen session could be opened. -/
structure Bare (w : World) : Prop where
  layer : (w.views 0).playerLayer = none
  tree : ∀ l, w.env.superlayer l = none
  vcs : ∀ k, (w.vcs k).player = none
  inline : w.screen.vc = none

/-- After it: `l` is the only layer in the tree, it is in the view or in the controller that is
shown, and every controller has got the player it is bound to. -/
structure Layered (l : Handle) (w : World) : Prop where
  layer : (w.views 0).playerLayer = some l
  tree : ∀ l', w.env.superlayer l' ≠ none → l' = l
  inline : w.screen.vc = none →
    w.env.superlayer l = some (.view 0) ∧ w.env.player = w.env.layerPlayer l
  vcs : ∀ k, (w.vcs k).player = none ∨ (w.vcs k).player = w.env.layerPlayer l
  session : ∀ k, w.screen.vc = some k →
    (w.vcs k).player = w.env.layerPlayer l ∧ (w.vcs k).playerLayer = some l

variable {accepts : String → Bool} {w w' : World} {l : Handle}

theorem Bare.quiet (h : Bare w) (q : Quiet w w') : Bare w' where
  layer := (q.viewLayer 0).trans h.layer
  tree l := by rw [q.superlayer]; exact h.tree l
  vcs k := (q.vcPlayer k).trans (h.vcs k)
  inline := q.screen.trans h.inline

theorem Layered.quiet (h : Layered l w) (q : Quiet w w') : Layered l w' where
  layer := (q.viewLayer 0).trans h.layer
  tree l' := by rw [q.superlayer]; exact h.tree l'
  inline hin := by
    rw [q.superlayer, q.player, q.layerPlayer]
    exact h.inline (q.screen.symm.trans hin)
  vcs k := by rw [q.vcPlayer, q.layerPlayer]; exact h.vcs k
  session k hk := by
    rw [q.vcPlayer, q.vcLayer, q.layerPlayer]
    exact h.session k (q.screen.symm.trans hk)

/-- The first block makes the layer. -/
theorem Bare.block (h : Bare w) : ∃ l, Layered l ({ w with delayed := w.delayed.tail }.put 0
    (PsVideoView.playBlock (w.scope 0))) := by
  let l : Handle := w.env.nextLayer (.view 0)
  have hf := PsVideoView.playBlock_frame (w.scope 0)
  have hsup : ∀ l', (PsVideoView.playBlock (w.scope 0)).env.superlayer l' =
      if l' = l then some (.view 0) else none := by
    intro l'
    rw [hf.superlayer]
    by_cases hl : l' = l
    · subst hl; simp [PsVideoView.initVideoPlayer, Env.addSublayer, World.scope, l]
    · have := h.tree l'
      simpa [PsVideoView.initVideoPlayer, Env.addSublayer, Env.makeLayer, World.scope, hl,
        Function.update_of_ne (show l' ≠ w.env.nextLayer (.view 0) from hl)] using this
  have hbound : (PsVideoView.playBlock (w.scope 0)).env.layerPlayer l = w.env.player := by
    rw [hf.layerPlayer]
    simp [PsVideoView.initVideoPlayer, Env.addSublayer, Env.makeLayer, World.scope, l]
  refine ⟨l, ?_, fun l' hl' => ?_, fun _ => ⟨?_, ?_⟩, fun k => .inl (h.vcs k), fun k hk => ?_⟩
  · have hl : (PsVideoView.initVideoPlayer (w.scope 0)).self.playerLayer = some l := rfl
    simpa [World.put] using hf.playerLayer.trans hl
  · by_contra hne
    exact hl' ((hsup l').trans (if_neg hne))
  · exact (hsup l).trans (if_pos rfl)
  · exact hf.player.trans hbound.symm
  · have hin : w.screen.vc = some k := hk
    rw [h.inline] at hin; cases hin

/-- The full-screen button moves the layer. -/
theorem Layered.fullScreen (h : Layered l w) (hin : w.screen = .inline)
    (hw : w.step accepts (.tap 0 .fullScreen) = .ok w') : Layered l w' := by
  obtain ⟨s, layer, _, hf, hl, rfl⟩ := fullScreen_ok hw
  obtain rfl : layer = l := Option.some.inj (hl.symm.trans h.layer)
  have hbound : s.env.layerPlayer = w.env.layerPlayer := hf.layerPlayer
  have hplayer : w.env.player = w.env.layerPlayer layer := (h.inline (by rw [hin]; rfl)).2
  refine ⟨?_, fun l' hl' => ?_, (fun hin => by cases hin), fun k => ?_, fun k hk => ?_⟩
  · simpa [World.put] using hf.playerLayer.trans hl
  · by_contra hne
    have hl' : s.env.superlayer l' ≠ none := by
      simpa [World.put, Env.addSublayer, Env.addObserver, Function.update_of_ne hne] using hl'
    rw [hf.superlayer] at hl'
    exact hne (h.tree l' hl')
  · by_cases hk : k = w.nextVc 0
    · subst hk
      right
      simpa [presentedVC, World.scope, World.put, Env.addSublayer, Env.addObserver, hbound]
        using hplayer
    · simpa [Function.update_of_ne hk, World.put, Env.addSublayer, Env.addObserver, hbound]
        using h.vcs k
  · obtain rfl : w.nextVc 0 = k := Option.some.inj hk
    simp only [Function.update_self]
    refine ⟨?_, hl⟩
    simpa [presentedVC, World.scope, World.put, Env.addSublayer, Env.addObserver, hbound]
      using hplayer

/-- `viewDismissed` moves it back, and makes its player current again. -/
theorem Layered.viewDismissed (h : Layered l w) (hs : Solo w) (he : w.enabled .viewDismissed)
    (hw : w.step accepts .viewDismissed = .ok w') : Layered l w' := by
  obtain ⟨k, p, layer, hk, hp, hl, rfl⟩ := viewDismissed_ok he hw
  have hd := hs.delegate k
  obtain ⟨hplayer, hlayer⟩ := h.session k hk
  obtain rfl : layer = l := Option.some.inj (hl.symm.trans hlayer)
  rw [hd]
  have hf := PsVideoView.viewDismissed_frame p layer
    (w.vcs k).controlsView.videoQualityButton.title
    (w.vcs k).controlsView.settingsButton.title (w.scope 0)
  generalize PsVideoView.viewDismissed p layer _ _ (w.scope 0) = s at hf ⊢
  have hself : s.self.playerLayer = some layer := hf.playerLayer
  have hsup : s.env.superlayer = Function.update w.env.superlayer layer (some (.view 0)) :=
    hf.superlayer
  have hbound : s.env.layerPlayer = w.env.layerPlayer := hf.layerPlayer
  refine ⟨?_, fun l' hl' => ?_, fun _ => ⟨?_, ?_⟩, fun j => ?_, fun j hj => by cases hj⟩
  · simpa [World.put] using hself
  · by_contra hne
    have hl' : w.env.superlayer l' ≠ none := by
      simpa [World.put, hsup, Function.update_of_ne hne] using hl'
    exact hne (h.tree l' hl')
  · simp [World.put, hsup]
  · simp only [World.put, hbound]
    rw [← hplayer, hp]
    exact hf.player
  · simpa [World.put, hbound] using h.vcs j

/-- A url update outside the inline view leaves the layer alone. -/
theorem Layered.url (h : Layered l w) (hin : w.screen.vc ≠ none) (v : ViewId) (u : String) :
    Layered l { w with env := w.env.makePlayer v u } :=
  ⟨h.layer, h.tree, fun hin' => absurd hin' hin, h.vcs, h.session⟩

/-- Either no block has run, or there is the one layer. -/
def LayerInv (es : List Event) (w : World) : Prop :=
  (Bare w ∧ ∀ v, .delayedBlock v ∉ es) ∨ ∃ l, Layered l w

theorem LayerInv.step {es : List Event} {e : Event} (hi : LayerInv es w) (hs : Solo w)
    (h1 : e.oneView = true) (he : w.enabled e) (hg : LayerSafe w e)
    (h : w.step accepts e = .ok w') : LayerInv (es ++ [e]) w' := by
  -- an event that is no block has only to keep the two forms
  have keep : (∀ v, e ≠ .delayedBlock v) → (Bare w → Bare w') → (∀ l, Layered l w → Layered l w') →
      LayerInv (es ++ [e]) w' := by
    intro hne hb hl
    rcases hi with ⟨hbare, hes⟩ | ⟨l, hlay⟩
    · refine .inl ⟨hb hbare, fun v hv => ?_⟩
      rcases List.mem_append.mp hv with hv | hv
      · exact hes v hv
      · exact hne v (List.mem_singleton.mp hv).symm
    · exact .inr ⟨l, hl l hlay⟩
  cases hq : e.quiet with
  | true =>
    have q := step_quiet hq he h
    exact keep (by rintro v rfl; cases hq) (·.quiet q) fun _ => (·.quiet q)
  | false =>
    cases e with
    | mount | unmount v => cases h1
    | property v p =>
      cases p with
      | url u =>
        obtain ⟨_, rfl⟩ := url_ok h
        refine keep (by simp) (fun hb => ⟨hb.layer, hb.tree, hb.vcs, hb.inline⟩) fun l hl => ?_
        rcases of_decide_eq_true hg with hg | hg
        · rw [hl.layer] at hg; cases hg
        · refine hl.url (fun hin => hg ?_) v u
          cases hsc : w.screen with
          | inline => rfl
          | _ => rw [hsc] at hin; cases hin
      | _ => cases hq
    | tap v c =>
      cases c with
      | fullScreen =>
        obtain rfl : v = 0 := hs.mounted v he.1
        refine keep (by simp) (fun hb => ?_) fun l hl => hl.fullScreen he.2.1 h
        -- without a layer `fullScreenAction` traps
        obtain ⟨_, layer, _, _, hl, _⟩ := fullScreen_ok h
        rw [hb.layer] at hl; cases hl
      | _ => cases hq
    | viewDismissed =>
      refine keep (by simp) (fun hb => ?_) fun l hl => hl.viewDismissed hs he h
      -- without a layer no session was opened
      obtain ⟨k, _, _, hk, _⟩ := viewDismissed_ok he h
      rw [hb.inline] at hk; cases hk
    | delayedBlock v =>
      obtain rfl : v = 0 := hs.delayed v (List.mem_of_mem_head? he)
      cases h
      rcases hi with ⟨hb, _⟩ | ⟨l, hl⟩
      · exact .inr hb.block
      · rw [LayerSafe, hl.layer] at hg; cases of_decide_eq_true hg
    | _ => cases hq

theorem Layered.oneLayer (h : Layered l w) (hin : w.screen = .inline) : OneLayer w := by
  obtain ⟨hsup, hplayer⟩ := h.inline (by rw [hin]; rfl)
  refine ⟨l, h.layer, fun l' => ⟨fun hl' => h.tree l' (by rw [hl']; simp), ?_⟩, hplayer.symm, ?_⟩
  · rintro rfl; exact hsup
  · -- only the current player is retained
    rintro p (hp | ⟨l', hl', hp⟩ | ⟨k, _, hp⟩) hne
    · exact absurd hp hne
    · obtain rfl := h.tree l' hl'
      exact absurd (hplayer.trans hp) hne
    · rcases h.vcs k with hk | hk
      · rw [hk] at hp; cases hp
      · exact absurd (hplayer.trans (hk.symm.trans hp)) hne

/-- **One layer, one sounding player.** In every run of one view that meets the condition, once a
delayed block has run, in every state with the inline view on the screen. -/
theorem one_layer {es : List Event} (h : Steps ((app accepts).restrict LayerRun) .oneView es w)
    (hs : w.screen = .inline) (hb : ∃ v, .delayedBlock v ∈ es) : OneLayer w := by
  have h0 : Solo .oneView ∧ LayerInv [] .oneView :=
    ⟨solo_oneView, .inl ⟨⟨rfl, fun _ => rfl, fun _ => rfl, rfl⟩, by simp⟩⟩
  have hi : Solo w ∧ LayerInv es w := h.traced (I := fun es w => Solo w ∧ LayerInv es w)
    (fun es s e s' hi he hs => ⟨hi.1.step he.2.1 he.1 hs, hi.2.step hi.1 he.2.1 he.1 he.2.2 hs⟩)
    [] h0
  obtain ⟨v, hv⟩ := hb
  rcases hi.2 with ⟨_, hes⟩ | ⟨l, hl⟩
  · exact absurd hv (hes v)
  · exact hl.oneLayer hs

theorem one_layer_session : ∃ w, Steps ((app fun _ => true).restrict LayerRun) .oneView
    [.property 0 (.url "a"), .property 0 (.play true), .property 0 (.url "b"), .delayedBlock 0,
      .tap 0 .fullScreen, .viewDidAppear, .fullTap .fullScreen, .viewDismissed] w ∧ OneLayer w := by
  obtain ⟨w, hw, hs⟩ := Steps.of_exec_map ((app fun _ => true).restrict LayerRun) .oneView
    [.property 0 (.url "a"), .property 0 (.play true), .property 0 (.url "b"), .delayedBlock 0,
      .tap 0 .fullScreen, .viewDidAppear, .fullTap .fullScreen, .viewDismissed]
    (fun w => w.screen) (a := .inline) (by decide +kernel)
  exact ⟨w, hw, one_layer hw hs ⟨0, by simp⟩⟩

/-- Each block leaves its layer in the view. -/
theorem not_one_layer : ∃ w, Steps (app fun _ => true) .oneView
    [.property 0 (.url "a"), .property 0 (.play true), .property 0 (.play true), .delayedBlock 0,
      .delayedBlock 0] w ∧ w.screen = .inline ∧ ¬ OneLayer w := by
  obtain ⟨w, hw, hobs⟩ := Steps.of_exec_map (app fun _ => true) .oneView
    [.property 0 (.url "a"), .property 0 (.play true), .property 0 (.play true), .delayedBlock 0,
      .delayedBlock 0]
    (fun w => (w.screen, w.env.superlayer ⟨.view 0, 0⟩, w.env.superlayer ⟨.view 0, 1⟩))
    (a := (.inline, some (.view 0), some (.view 0))) (by decide +kernel)
  obtain ⟨hs, hl⟩ := Prod.mk.inj hobs
  obtain ⟨h0, h1⟩ := Prod.mk.inj hl
  refine ⟨w, hw, hs, ?_⟩
  rintro ⟨l, _, hone, _⟩
  have heq : (⟨.view 0, 0⟩ : Handle) = ⟨.view 0, 1⟩ := ((hone _).mp h0).trans ((hone _).mp h1).symm
  cases heq

end PsVideo
