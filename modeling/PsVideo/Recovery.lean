import PsVideo.BitRate
import PsVideo.SessionEnd

/-!
# PsVideo.Recovery

How the video can be got to play again under `App.js`. A player that has failed never plays again, and
only a url update makes another one. `App.js` sets the url of a view once, so after a failure the only
way is the toggle button, which always is one. The other button starts any player that has not failed,
once the session on the screen has been ended.
-/

namespace PsVideo

open Machine App

/-! ## Playback errors -/

section Errors

variable {accepts : String → Bool} {e : Event} {w w' : World}

theorem SilentStep.error (h : SilentStep w w') (q : PlayerId) :
    (w'.env.players q).error = (w.env.players q).error := by
  cases h with
  | refl => rfl
  | put h => exact h.error q
  | fullPut hf _ => exact hf.frame.error q

/-- Only `playbackError` makes a player fail, and nothing mends it. -/
theorem step_error (hu : ∀ v u, e ≠ .property v (.url u)) (he : w.enabled e)
    (h : w.step accepts e = .ok w') (q : PlayerId) :
    (w'.env.players q).error = (w.env.players q).error ∨
      e = .playbackError q ∧ (w'.env.players q).error = true := by
  cases e with
  | mount | unmount v => cases h; exact .inl rfl
  | property v p =>
    obtain rfl | ⟨s, hc, rfl⟩ := property_ok (fun u hp => hu v u (by rw [hp])) h
    · exact .inl rfl
    · exact .inl (hc.error q)
  | tap v c =>
    by_cases hc : c = .fullScreen
    · subst hc
      obtain ⟨s, layer, _, hf, _, rfl⟩ := fullScreen_ok h
      exact .inl (hf.error q)
    · obtain ⟨s, hs, rfl⟩ := tap_ok hc h
      exact .inl ((PsVideoView.control_frame hs).error q)
  | fullTap c =>
    obtain ⟨k, s, _, _, _, hs, rfl⟩ := fullTap_ok he h
    exact .inl ((PsVideoFullViewVC.control_frame hs).frame.error q)
  | viewDidAppear =>
    obtain ⟨k, _, rfl⟩ := viewDidAppear_ok he h
    exact .inl ((PsVideoFullViewVC.viewDidAppear_frame (w.fullScope k)).frame.error q)
  | viewDismissed =>
    obtain ⟨k, p, layer, _, _, _, rfl⟩ := viewDismissed_ok he h
    exact .inl ((PsVideoView.viewDismissed_frame p layer _ _ _).error q)
  | delayedBlock v => cases h; exact .inl ((PsVideoView.playBlock_frame (w.scope v)).error q)
  | playAnotherVideo url => cases h; exact .inl rfl
  | mainBlock =>
    obtain ⟨url, rest, _, rfl⟩ := mainBlock_ok he h
    exact .inl (by simp only [PsVideoView.playNextVideo, Env.error_call])
  | background =>
    cases h
    exact .inl (background_rule (P := fun w' => (w'.env.players q).error =
      (w.env.players q).error) rfl fun w' k _ _ _ hi =>
        ((PsVideoFullViewVC.pauseAction_frame (w'.fullScope k)).frame.error q).trans hi)
  | timer t => cases h; exact .inl ((SilentStep.timer w t).error q)
  | tick t => exact .inl ((SilentStep.tick h).error q)
  | itemProgress p status duration time =>
    cases h
    obtain hq | hq := (w.moved_updatePlayer p (·.progress status duration time)).players q
    · exact .inl (by rw [hq])
    · exact .inl (by rw [hq]; rfl)
  | itemEnd p =>
    cases h
    obtain hq | hq := (w.moved_updatePlayer p (·.ended)).players q
    · exact .inl (by rw [hq])
    · exact .inl (by rw [hq]; rfl)
  | playbackError p =>
    cases h
    by_cases hqp : q = p
    · subst hqp
      exact .inr ⟨rfl, by simp [World.updatePlayer, AVPlayer.failed]⟩
    · exact .inl (by simp [World.updatePlayer, Function.update_of_ne hqp])

theorem canPlay_after (hu : ∀ v u, e ≠ .property v (.url u)) (hf : ∀ p, e ≠ .playbackError p)
    (he : w.enabled e) (h : w.step accepts e = .ok w') (hp : w'.env.player = w.env.player)
    (hc : w.env.canPlay = true) : w'.env.canPlay = true := by
  have herr : ∀ q, (w'.env.players q).error = (w.env.players q).error := fun q =>
    (step_error hu he h q).resolve_right fun hq => hf q hq.1
  simpa [Env.canPlay, hp, herr] using hc

end Errors

theorem playNextVideo_plays {e : Env} (u : String) (h : e.canPlay = true) :
    (PsVideoView.playNextVideo u e).plays = true := by
  obtain ⟨q, hq, hok⟩ : ∃ q, e.player = some q ∧ (e.players q).error = false := by
    simpa [Env.canPlay, Option.any_eq_true] using h
  simp [PsVideoView.playNextVideo, Env.plays, Env.isPlaying, AVPlayer.isPlaying, hq,
    PlayerOp.apply, hok]

/-! ## The buttons of `App.js` -/

/-- What mounts or unmounts the view: the toggle button. -/
def Event.toggles : Event → Bool
  | .mount | .unmount _ => true
  | _ => false

namespace App

/-- A controller on the screen covers the two buttons. -/
def Uncovered (s : World × Rendered) : Event → Prop
  | .mount | .unmount _ | .playAnotherVideo _ => s.1.screen = .inline
  | _ => True

def pressed (accepts : String → Bool) : Machine (World × Rendered) Event Trap :=
  (appJs accepts).restrict Uncovered

def untoggled (accepts : String → Bool) : Machine (World × Rendered) Event Trap :=
  (pressed accepts).restrict fun _ e => e.toggles = false

def Rendered.urlToCome : Rendered → Bool
  | .creating url _ => !url
  | _ => false

/-- There is a player that has not failed, or there will be. -/
def Playable (s : World × Rendered) : Prop := s.2.urlToCome = true ∨ s.1.env.canPlay = true

def Rendered.missing : Rendered → ℕ
  | .creating url play => (!url).toNat + (!play).toNat
  | _ => 0

/-- A view is there unless none is rendered, and it is finished with its second property. -/
def Whole (w : World) (r : Rendered) : Prop :=
  (r = .hidden ∨ ∃ v, w.mounted v = true) ∧ r ≠ .creating true true

theorem Whole.step {accepts : String → Bool} {e : Event} {w w' : World} {r r' : Rendered}
    (hi : Whole w r) (hs : Sent w r e r') (he : w.enabled e) (h : w.step accepts e = .ok w') :
    Whole w' r' := by
  cases hs with
  | mount => cases h; exact ⟨.inr ⟨w.nextView, by simp⟩, by simp⟩
  | unmount => exact ⟨.inl rfl, by simp⟩
  | @url v play =>
    obtain ⟨_, rfl⟩ := url_ok h
    exact ⟨.inr (hi.1.resolve_left (by simp)), by cases play <;> simp⟩
  | @play v url =>
    cases h
    exact ⟨.inr (hi.1.resolve_left (by simp)), by cases url <;> simp⟩
  | native hn _ => rw [Whole, (native_world hn he h).1]; exact hi

/-- The events that lead out of a session are no matter of React Native or of the buttons. -/
theorem leaves_sent {e : Event} {w : World} {r : Rendered} (hr : r.settled = true)
    (he : e.leaves = true) : Sends w r e = true ∧ r.next e = r ∧ Uncovered (w, r) e ∧
      e.toggles = false ∧ (∀ v u, e ≠ .property v (.url u)) ∧ ∀ p, e ≠ .playbackError p := by
  have hsettled : ∀ url play, r ≠ .creating url play := by rintro url play rfl; cases hr
  cases e with
  | viewDidAppear | viewDismissed =>
    cases r with
    | hidden | shown => simp [Sends, Rendered.next, Uncovered, Event.toggles]
    | creating url play => exact absurd rfl (hsettled url play)
  | fullTap c =>
    cases r with
    | hidden | shown => simp [Sends, Rendered.next, Uncovered, Event.toggles]
    | creating url play => exact absurd rfl (hsettled url play)
  | _ => cases he

def Reached (accepts : String → Bool) (s : World × Rendered) : Prop :=
  ∃ es, Steps (appJs accepts) (.launch, .hidden) es s

namespace Reached

variable {accepts : String → Bool} {e : Event} {w w' : World} {r : Rendered}
  {s : World × Rendered}

theorem whole (hs : Reached accepts s) : Whole s.1 s.2 := by
  obtain ⟨es, h⟩ := hs
  refine h.invariant (I := fun s => Whole s.1 s.2) (fun s e s' hi he hs => ?_)
    ⟨.inl rfl, by simp⟩
  obtain ⟨hs, hr⟩ := track_ok hs
  rw [hr]
  exact hi.step (sent he.2) he.1 hs

theorem appJs_step (h : w.step accepts e = .ok w') :
    (appJs accepts).step (w, r) e = .ok (w', r.next e) := by
  simp [appJs, restrict, track, app, h]

theorem move (hs : Reached accepts (w, r)) (he : w.enabled e) (hsend : Sends w r e = true)
    (h : w.step accepts e = .ok w') : Reached accepts (w', r.next e) := by
  obtain ⟨es, hrun⟩ := hs
  exact ⟨es ++ [e], hrun.snoc ⟨he, hsend⟩ (appJs_step h)⟩

theorem driven (hs : Reached accepts s) : ∃ es, Driven es s.1 s.2 :=
  hs.imp fun _ h => (driven_steps h).2.2

theorem endable (hs : Reached accepts s) : Endable s.1 := by
  obtain ⟨es, h⟩ := hs
  obtain ⟨hrun, hl, hi⟩ := driven_steps h
  exact ⟨housed hrun, hi.up, fun k hk => hi.vcs k (hl.opened k hk)⟩

/-- A view that is being created gets its url before long, or has a player that has not failed. -/
theorem settle (ha : accepts videoUri = true) (hs : Reached accepts s) :
    CanReach (untoggled accepts) (fun t => Reached accepts t ∧ t.2.settled = true ∧
      (Playable s → Playable t)) s := by
  refine CanReach.of_measure (I := fun t => Reached accepts t ∧ (Playable s → Playable t))
    (fun t => t.2.missing) (fun t hi => ?_) ⟨hs, id⟩
  obtain ⟨w, r⟩ := t
  obtain ⟨hr, hp⟩ := hi
  cases r with
  | hidden | shown => exact .inl ⟨hr, rfl, hp⟩
  | creating url play =>
    obtain ⟨v, hv⟩ : ∃ v, w.mounted v = true := hr.whole.1.resolve_left (by simp)
    have hno : Rendered.creating url play ≠ .creating true true := hr.whole.2
    cases url with
    | false =>
      have h : w.step accepts (.property v (.url videoUri)) =
          .ok { w with env := w.env.makePlayer v videoUri } := by
        simp [World.step, World.setProperty, ha]
      have hsend : Sends w (.creating false play) (.property v (.url videoUri)) = true := by
        simp [Sends]
      refine .inr ⟨.property v (.url videoUri), _, ⟨⟨⟨hv, hsend⟩, trivial⟩, rfl⟩, appJs_step h,
        ⟨hr.move hv hsend h, ?_⟩, ?_⟩
      · exact fun _ => .inr (by simp [Env.canPlay, Env.makePlayer, AVPlayer.ofURL])
      · cases play <;> simp [Rendered.next, Rendered.missing]
    | true =>
      obtain rfl : play = false := by cases play with
        | false => rfl
        | true => exact absurd rfl hno
      have h : w.step accepts (.property v (.play true)) =
          .ok { w with delayed := w.delayed ++ [v] } := rfl
      refine .inr ⟨.property v (.play true), _, ⟨⟨⟨hv, rfl⟩, trivial⟩, rfl⟩, appJs_step h,
        ⟨hr.move hv rfl h, ?_⟩, ?_⟩
      · exact fun hs => .inr ((hp hs).resolve_left (by simp [Rendered.urlToCome]))
      · simp [Rendered.next, Rendered.missing]

/-- Without a url update the player of the app stays the same: a session ends with the player that
it was given. -/
theorem player_kept (hs : Reached accepts (w, r)) (hu : ∀ v u, e ≠ .property v (.url u))
    (he : w.enabled e) (h : w.step accepts e = .ok w') : w'.env.player = w.env.player := by
  obtain ⟨es, hi⟩ := hs.driven
  obtain hp | ⟨v, u, rfl, _⟩ | ⟨k, _, hk, hp⟩ := step_player he h
  · exact hp
  · exact absurd rfl (hu v u)
  · exact hp.trans (hi.session k hk).1.symm

theorem toInline (hs : Reached accepts s) (hr : s.2.settled = true) :
    CanReach (untoggled accepts) (fun t => (Reached accepts t ∧ t.2 = s.2 ∧
      (s.1.env.canPlay = true → t.1.env.canPlay = true)) ∧ t.1.screen = .inline) s := by
  refine CanReach.of_measure (I := fun t => Reached accepts t ∧ t.2 = s.2 ∧
    (s.1.env.canPlay = true → t.1.env.canPlay = true)) (fun t => t.1.screen.toGo)
    (fun t hi => ?_) ⟨hs, rfl, id⟩
  obtain ⟨w, r⟩ := t
  obtain ⟨hw, rfl, hp⟩ := hi
  have hnext : w.screen = .inline ∨ ∃ e w', e.leaves = true ∧ w.enabled e ∧
      w.step accepts e = .ok w' ∧ Endable w' ∧ w'.screen.toGo < w.screen.toGo := hw.endable.next
  obtain hin | ⟨e, w', hl, he, h, _, hlt⟩ := hnext
  · exact .inl ⟨⟨hw, rfl, hp⟩, hin⟩
  obtain ⟨hsend, hsame, hcov, ht, hu, hf⟩ := leaves_sent (w := w) hr hl
  refine .inr ⟨e, _, ⟨⟨⟨he, hsend⟩, hcov⟩, ht⟩, appJs_step h, ⟨hw.move he hsend h, hsame, ?_⟩, hlt⟩
  exact fun hc => canPlay_after hu hf he h (hw.player_kept hu he h) (hp hc)

theorem start (hr : r.settled = true) (hin : w.screen = .inline) (hc : w.env.canPlay = true) :
    CanReach (untoggled accepts) (fun t => t.1.env.plays = true) (w, r) := by
  have run : ∀ w : World, w.main ≠ [] → w.env.canPlay = true →
      CanReach (untoggled accepts) (fun t => t.1.env.plays = true) (w, r) := by
    intro w hm hc
    obtain ⟨u, rest, hm'⟩ := List.exists_cons_of_ne_nil hm
    have h : w.step accepts .mainBlock =
        .ok { w with env := PsVideoView.playNextVideo u w.env, main := rest } := by
      simp only [World.step, hm']
    have hsend : Sends w r .mainBlock = true := by cases r <;> first | rfl | cases hr
    exact .cons (e := .mainBlock) ⟨⟨⟨hm, hsend⟩, trivial⟩, rfl⟩ (appJs_step h)
      (.now (playNextVideo_plays u hc))
  by_cases hm : w.main = []
  · have h : w.step accepts (.playAnotherVideo anotherVideo) =
        .ok { w with main := w.main ++ [anotherVideo] } := rfl
    have hsend : Sends w r (.playAnotherVideo anotherVideo) = true := by
      cases r with
      | hidden | shown => simp [Sends]
      | creating url play => cases hr
    refine .cons (e := .playAnotherVideo anotherVideo) ⟨⟨⟨trivial, hsend⟩, hin⟩, rfl⟩
      (appJs_step h) ?_
    have hnext : r.next (.playAnotherVideo anotherVideo) = r := by cases r <;> rfl
    rw [hnext]
    exact run _ (by simp) hc
  · exact run w hm hc

theorem replay (ha : accepts videoUri = true) (hs : Reached accepts s) (hp : Playable s) :
    CanReach (untoggled accepts) (fun t => t.1.env.plays = true) s := by
  refine (hs.settle ha).bind fun t ⟨ht, hset, hpt⟩ => ?_
  have hc : t.1.env.canPlay = true := (hpt hp).resolve_left (by
    cases hr : t.2 with
    | hidden | shown => simp [Rendered.urlToCome]
    | creating url play => rw [hr] at hset; cases hset)
  refine (ht.toInline hset).bind fun t' ⟨⟨_, hr, hpc⟩, hin⟩ => ?_
  exact start (hr ▸ hset) hin (hpc hc)

end Reached

end App

/-- **The video can always be got to play**: from every state reached under `App.js`, by the toggle
button if need be. -/
theorem app_can_play {accepts : String → Bool} {es : List Event} {s : World × Rendered}
    (ha : accepts videoUri = true) (h : Steps (appJs accepts) (.launch, .hidden) es s) :
    CanReach (pressed accepts) (fun t => t.1.env.plays = true) s := by
  have hs : Reached accepts s := ⟨es, h⟩
  by_cases hp : Playable s
  · exact (hs.replay ha hp).of_restrict
  -- the view is unmounted, if it is there, and another one is mounted
  have mount : ∀ w, Reached accepts (w, .hidden) → w.screen = .inline →
      CanReach (pressed accepts) (fun t => t.1.env.plays = true) (w, .hidden) := by
    intro w hw hin
    have hsend : Sends w .hidden .mount = true := by simp [Sends, hin]
    have h : w.step accepts .mount = .ok _ := rfl
    exact .cons (e := .mount) ⟨⟨trivial, hsend⟩, hin⟩ (Reached.appJs_step h)
      ((hw.move (e := .mount) trivial hsend h).replay ha (.inl rfl)).of_restrict
  refine (hs.settle ha).of_restrict.bind fun t ⟨ht, hset, _⟩ => ?_
  refine (ht.toInline hset).of_restrict.bind fun t' ⟨⟨ht', hr, _⟩, hin⟩ => ?_
  obtain ⟨w, r⟩ := t'
  obtain rfl : r = t.2 := hr
  generalize t.2 = r at hset ht'
  cases r with
  | creating url play => cases hset
  | hidden => exact mount w ht' hin
  | shown =>
    obtain ⟨v, hv⟩ : ∃ v, w.mounted v = true := ht'.whole.1.resolve_left (by simp)
    have h : w.step accepts (.unmount v) = .ok _ := rfl
    exact .cons (e := .unmount v) ⟨⟨hv, rfl⟩, hin⟩ (Reached.appJs_step h)
      (mount _ (ht'.move (e := .unmount v) hv rfl h) hin)

theorem app_can_play_failed : ∃ s, Steps (appJs fun _ => true) (.launch, .hidden)
    [.mount, .property 0 (.url videoUri), .property 0 (.play true), .delayedBlock 0,
      .tap 0 .fullScreen, .playbackError ⟨0, 0⟩] s ∧
    CanReach (pressed fun _ => true) (fun t => t.1.env.plays = true) s := by
  obtain ⟨s, hs, _⟩ := Steps.of_exec_map (appJs fun _ => true) (.launch, .hidden)
    [.mount, .property 0 (.url videoUri), .property 0 (.play true), .delayedBlock 0,
      .tap 0 .fullScreen, .playbackError ⟨0, 0⟩]
    (fun _ => ()) (a := ()) (by decide +kernel)
  exact ⟨s, hs, app_can_play rfl hs⟩

end PsVideo
