import PsVideo.OneView

/-!
# PsVideo.UrlUpdate

Which player is current. Only the setter of `url` makes players, so those of a view are numbered in
the order of its url updates; but `viewDismissed` also assigns `PsVideoView.player`, with the player
that the controller was given when it was presented. A url update that arrives while a full-screen
session is open is undone when the session ends.
-/

namespace PsVideo

open Machine

/-- The view whose url is updated. -/
def Event.urlOf : Event → Option ViewId
  | .property v (.url _) => some v
  | _ => none

/-- The player made by the most recent url update among the events. -/
def newestPlayer (es : List Event) : Option PlayerId :=
  let urls := es.filterMap Event.urlOf
  urls.getLast?.map fun v => ⟨v, urls.count v - 1⟩

/-- A url update arrives only while no full-screen session is open. -/
def UrlWhileInline (w : World) (e : Event) : Prop := e.urlOf.isSome → w.screen = .inline

instance (w : World) (e : Event) : Decidable (UrlWhileInline w e) :=
  inferInstanceAs (Decidable (_ → _))

/-- After the events `es` the newest player is current, and an open session holds it too. -/
structure HoldsNewest (es : List Event) (w : World) : Prop where
  count : ∀ v, w.env.playerCount v = (es.filterMap Event.urlOf).count v
  player : w.env.player = newestPlayer es
  session : ∀ k, w.screen.vc = some k → (w.vcs k).player = w.env.player

theorem newestPlayer_snoc_url {es : List Event} {v : ViewId} {u : String} :
    newestPlayer (es ++ [.property v (.url u)]) =
      some ⟨v, (es.filterMap Event.urlOf).count v⟩ := by
  simp [newestPlayer, Event.urlOf, List.filterMap_append]

theorem filterMap_urlOf_snoc {es : List Event} {e : Event} (h : e.urlOf = none) :
    (es ++ [e]).filterMap Event.urlOf = es.filterMap Event.urlOf := by
  simp [List.filterMap_append, h]

theorem newestPlayer_snoc {es : List Event} {e : Event} (h : e.urlOf = none) :
    newestPlayer (es ++ [e]) = newestPlayer es := by
  simp only [newestPlayer, filterMap_urlOf_snoc h]

theorem urlOf_of_quiet {e : Event} (h : e.quiet = true) : e.urlOf = none := by
  cases e with
  | property v p => cases p <;> first | rfl | cases h
  | _ => rfl

theorem HoldsNewest.step {accepts : String → Bool} {es : List Event} {w w' : World} {e : Event}
    (hi : HoldsNewest es w) (he : w.enabled e) (hg : UrlWhileInline w e)
    (h : w.step accepts e = .ok w') : HoldsNewest (es ++ [e]) w' := by
  -- an event that is no url update has only to keep the players and the session
  have keep : e.urlOf = none → w'.env.playerCount = w.env.playerCount →
      w'.env.player = w.env.player →
      (∀ k, w'.screen.vc = some k → (w'.vcs k).player = w'.env.player) →
      HoldsNewest (es ++ [e]) w' := fun hu hn hp hk =>
    ⟨fun v => by rw [hn, hi.count, filterMap_urlOf_snoc hu],
      by rw [hp, hi.player, newestPlayer_snoc hu], hk⟩
  cases hq : e.quiet with
  | true =>
    have q := step_quiet hq he h
    refine keep (urlOf_of_quiet hq) q.playerCount q.player fun k hk => ?_
    rw [q.vcPlayer, q.player, hi.session k (q.screen ▸ hk)]
  | false =>
    cases e with
    | mount => cases h; exact keep rfl rfl rfl hi.session
    | unmount v => cases h; exact keep rfl rfl rfl hi.session
    | property v p =>
      cases p with
      | url u =>
        obtain ⟨_, rfl⟩ := url_ok h
        refine ⟨fun x => ?_, ?_, fun k hk => ?_⟩
        · have hc := hi.count x
          by_cases hx : x = v
          · subst hx
            simp [Env.makePlayer, hc, List.filterMap_append, Event.urlOf]
          · simp [Env.makePlayer, hc, List.filterMap_append, Event.urlOf, Function.update_of_ne hx,
              Ne.symm hx]
        · rw [newestPlayer_snoc_url, ← hi.count]; rfl
        · have hs : w.screen = .inline := hg rfl
          simp [hs, Screen.vc] at hk
      | _ => cases hq
    | tap v c =>
      cases c with
      | fullScreen =>
        obtain ⟨s, layer, _, hf, _, rfl⟩ := fullScreen_ok h
        refine keep rfl hf.playerCount hf.player fun k hk => ?_
        simp only [Screen.vc, Option.some.injEq] at hk
        subst hk
        simp only [Function.update_self]
        exact hf.player.symm
      | _ => cases hq
    | viewDismissed =>
      obtain ⟨k, p, layer, hk, hp, _, rfl⟩ := viewDismissed_ok he h
      have hf := PsVideoView.viewDismissed_frame p layer
        (w.vcs k).controlsView.videoQualityButton.title
        (w.vcs k).controlsView.settingsButton.title (w.scope (w.vcs k).delegate)
      refine keep rfl hf.playerCount ?_ fun j hj => by simp [World.put, Screen.vc] at hj
      -- the player written back is the one the session was given
      rw [← hi.session k hk, hp]
      exact hf.player
    | delayedBlock v =>
      cases h
      have hf := PsVideoView.playBlock_frame (w.scope v)
      refine keep rfl hf.playerCount hf.player fun k hk => ?_
      exact (hi.session k hk).trans hf.player.symm
    | _ => cases hq

/-- **The newest player is current.** In every run whose url updates arrive outside full-screen
sessions, after every event the current player is the one made by the most recent url update. -/
theorem player_newest {accepts : String → Bool} {es : List Event} {w : World}
    (h : Steps ((app accepts).restrict UrlWhileInline) .launch es w) :
    w.env.player = newestPlayer es := by
  have h0 : HoldsNewest [] .launch :=
    ⟨fun _ => rfl, rfl, fun k hk => by simp [World.launch, Screen.vc] at hk⟩
  exact (h.traced (fun es s e s' hi he hs => HoldsNewest.step hi he.1 he.2 hs) [] h0).player

theorem player_newest_session : ∃ w, Steps ((app fun _ => true).restrict UrlWhileInline) .launch
    [.mount, .property 0 (.url "a"), .property 0 (.play true), .delayedBlock 0, .tap 0 .fullScreen,
      .viewDidAppear, .fullTap .fullScreen, .viewDismissed, .property 0 (.url "b")] w ∧
    w.env.player = some ⟨0, 1⟩ := by
  obtain ⟨w, hw, _⟩ := Steps.of_exec_map ((app fun _ => true).restrict UrlWhileInline) .launch
    [.mount, .property 0 (.url "a"), .property 0 (.play true), .delayedBlock 0, .tap 0 .fullScreen,
      .viewDidAppear, .fullTap .fullScreen, .viewDismissed, .property 0 (.url "b")]
    (fun _ => ()) (a := ()) (by decide +kernel)
  exact ⟨w, hw, player_newest hw⟩

/-- A url update that arrives while the controller is up is lost when it is dismissed. -/
theorem player_not_newest : ∃ w, Steps (app fun _ => true) .oneView
    [.property 0 (.url "a"), .property 0 (.play true), .delayedBlock 0, .tap 0 .fullScreen,
      .viewDidAppear, .property 0 (.url "b"), .fullTap .fullScreen, .viewDismissed] w ∧
    w.env.player ≠ newestPlayer
      [.property 0 (.url "a"), .property 0 (.play true), .delayedBlock 0, .tap 0 .fullScreen,
        .viewDidAppear, .property 0 (.url "b"), .fullTap .fullScreen, .viewDismissed] := by
  obtain ⟨w, hw, hp⟩ := Steps.of_exec_map (app fun _ => true) .oneView
    [.property 0 (.url "a"), .property 0 (.play true), .delayedBlock 0, .tap 0 .fullScreen,
      .viewDidAppear, .property 0 (.url "b"), .fullTap .fullScreen, .viewDismissed]
    (fun w => w.env.player) (a := some ⟨0, 0⟩) (by decide +kernel)
  refine ⟨w, hw, ?_⟩
  rw [hp]
  decide

end PsVideo
