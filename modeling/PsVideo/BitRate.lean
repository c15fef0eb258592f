import PsVideo.RoundTrip
import PsVideo.PlayButton

/-!
# PsVideo.BitRate

The limit on the bit rate. It belongs to the player's item, and a new item has none. `setVideoQuality`
sets it for a quality, `playAction` sets it again with `playerQuality`, which is not always a text
that `setBitRate` knows, and everything else that starts the player leaves it as it is. So whether
the limit in force is that of the quality selected last depends on which of these came last.
-/

namespace PsVideo

open Machine

/-- The limit that `setVideoQuality` sets for a quality. -/
def qualityLimit (quality : String) : Nat := maxBitRate (qualitySetting quality).1

/-- The quality selected last, in either player. -/
def Event.chosen (quality : String) : Event → String
  | .tap _ (.row false i) | .fullTap (.row false i) => videoQualityArray[i]?.getD quality
  | _ => quality

def AVPlayer.limit (a : AVPlayer) : Option Nat := a.currentItem.map (·.preferredPeakBitRate)

/-- The limit of the current player's item. -/
def Env.limit (e : Env) : Option Nat := e.player.bind fun p => (e.players p).limit

/-- If there is an item, its limit is `n`. -/
def Env.Caps (e : Env) (n : Nat) : Prop := ∀ m ∈ e.limit, m = n

instance (e : Env) (n : Nat) : Decidable (e.Caps n) :=
  inferInstanceAs (Decidable (∀ m ∈ e.limit, m = n))

/-- The current player is playing. -/
def Env.plays (e : Env) : Bool := e.isPlaying e.player

/-- The current player, if there is one, has not failed. -/
def Env.canPlay (e : Env) : Bool := e.player.any fun p => !(e.players p).error

/-- While the current player plays, the limit is `n`. -/
def Env.InForce (e : Env) (n : Nat) : Prop := e.plays = true → e.Caps n

namespace Env

variable {e e' : Env}

theorem limit_eq {q : PlayerId} (h : e.player = some q) : e.limit = (e.players q).limit := by
  simp [limit, h]

theorem plays_eq {q : PlayerId} (h : e.player = some q) : e.plays = (e.players q).isPlaying := by
  simp [plays, isPlaying, h]

theorem InForce.of_still {n : Nat} (h : e.plays = false) : e.InForce n :=
  fun hp => by rw [h] at hp; cases hp

theorem Caps.inForce {n : Nat} (h : e.Caps n) : e.InForce n := fun _ => h

/-- A failed player does not play. -/
theorem still_of_failed (hp : e'.player = e.player)
    (he : ∀ q, (e'.players q).error = (e.players q).error) (h : e.canPlay = false) :
    e'.plays = false := by
  cases hq : e.player with
  | none => simp [plays, isPlaying, hp, hq]
  | some q =>
    have herr : (e.players q).error = true := by simpa [canPlay, hq] using h
    simp [plays, isPlaying, hp, hq, AVPlayer.isPlaying, he, herr]

/-- What does not install an item or set a limit. -/
theorem Moved.limit {g : AVPlayer → AVPlayer} (hm : e.Moved g e')
    (h : ∀ a, (g a).limit = a.limit) : e'.limit = e.limit := by
  cases hq : e.player with
  | none => simp [Env.limit, hm.player, hq]
  | some q =>
    rw [limit_eq hq, limit_eq (hm.player.trans hq)]
    obtain hp | hp := hm.players q
    · rw [hp]
    · rw [hp, h]

/-- What does not start a player. -/
theorem Moved.plays {g : AVPlayer → AVPlayer} (hm : e.Moved g e')
    (h : ∀ a : AVPlayer, (g a).isPlaying = true → a.isPlaying = true) (hplays : e'.plays = true) :
    e.plays = true := by
  cases hq : e.player with
  | none => simp [Env.plays, isPlaying, hm.player, hq] at hplays
  | some q =>
    rw [plays_eq (hm.player.trans hq)] at hplays
    rw [plays_eq hq]
    obtain hp | hp := hm.players q
    · rwa [hp] at hplays
    · rw [hp] at hplays; exact h _ hplays

theorem limit_call {op : PlayerOp} (h : ∀ a, (op.apply a).limit = a.limit) (o : Owner)
    (p : Option PlayerId) : (e.call o p op).limit = e.limit := (moved_call e o p op).limit h

/-- The limit is set. -/
theorem caps_call (e : Env) (o : Owner) (n : Nat) :
    (e.call o e.player (.setPeakBitRate n)).Caps n := by
  intro m hm
  cases hq : e.player with
  | none => simp [limit, hq] at hm
  | some q =>
    rw [limit_eq (e := e.call o e.player (.setPeakBitRate n)) hq, hq, players_call] at hm
    simp only [PlayerOp.apply, AVPlayer.limit, Option.map_map, Option.mem_def,
      Option.map_eq_some_iff] at hm
    obtain ⟨item, _, rfl⟩ := hm
    rfl

end Env

/-- The current player and its limit stay, and it does not start. -/
structure Calm (e e' : Env) : Prop where
  player : e'.player = e.player
  plays : e'.plays = true → e.plays = true
  limit : e'.limit = e.limit

namespace Calm

variable {e e' e'' : Env} {s s' : Scope} {p : Option PlayerId}

theorem refl (e : Env) : Calm e e := ⟨rfl, id, rfl⟩

theorem trans (h₁ : Calm e e') (h₂ : Calm e' e'') : Calm e e'' :=
  ⟨h₂.player.trans h₁.player, h₁.plays ∘ h₂.plays, h₂.limit.trans h₁.limit⟩

theorem inForce {n : Nat} (hc : Calm e e') (h : e.InForce n) : e'.InForce n := by
  intro hp m hm
  rw [hc.limit] at hm
  exact h (hc.plays hp) m hm

theorem same (hp : e'.player = e.player) (hs : e'.players = e.players) : Calm e e' where
  player := hp
  plays h := by rw [Env.plays, Env.isPlaying, hp, hs] at h; exact h
  limit := by rw [Env.limit, hp, hs]; rfl

/-- A pause, a seek or what a player does by itself. -/
theorem moved {g : AVPlayer → AVPlayer} (hm : e.Moved g e') (hl : ∀ a, (g a).limit = a.limit)
    (hp : ∀ a : AVPlayer, (g a).isPlaying = true → a.isPlaying = true) : Calm e e' :=
  ⟨hm.player, hm.plays hp, hm.limit hl⟩

theorem pause (o : Owner) : Calm e (e.call o p .pause) :=
  moved (Env.moved_call e o p .pause) (fun _ => rfl) fun a h => by
    simp [PlayerOp.apply, AVPlayer.isPlaying] at h

theorem seek (time : CMTime) (o : Owner) : Calm e (e.call o p (.seek time)) := by
  refine moved (Env.moved_call e o p (.seek time)) (fun a => ?_) ?_
  · cases ha : a.currentItem <;> simp [PlayerOp.apply, AVPlayer.limit, ha]
  · intro a h
    exact h

theorem seeks (h : Seeks p s s') : Calm s.env s'.env := by
  induction h with
  | refl s => exact refl _
  | button _ ih | slider _ _ ih => exact ih
  | seek time _ ih => exact (seek time _).trans ih

theorem silent (h : Silent s s') : Calm s.env s'.env := same h.player h.players

end Calm

/-! ## The handlers -/

namespace Scope

variable {s s' : Scope} {p : Option PlayerId}

theorem play_limit (s : Scope) : (s.call p .play).env.limit = s.env.limit :=
  Env.limit_call (fun _ => rfl) _ _

theorem setVideoSpeed_limit (r : String) (s : Scope) :
    (s.setVideoSpeed p r).env.limit = s.env.limit := by
  rw [setVideoSpeed_env]
  cases speedSetting r with
  | none => rfl
  | some x => exact Env.limit_call (fun _ => rfl) _ _

theorem setBitRate_caps (d : String) (s : Scope) :
    (s.setBitRate s.env.player d).env.Caps (maxBitRate d) := Env.caps_call _ _ _

theorem setVideoQuality_caps (quality : String) (s : Scope) :
    (s.setVideoQuality s.env.player quality).env.Caps (qualityLimit quality) :=
  Env.caps_call _ _ _

/-- What may start the player needs the limit to be right already, unless the player has failed. -/
theorem inForce_of_start {n : Nat} (hf : Frame s s') (hl : s'.env.limit = s.env.limit)
    (h : s.env.canPlay = true → s.env.Caps n) : s'.env.InForce n := by
  cases hc : s.env.canPlay with
  | true =>
    refine Env.Caps.inForce fun m hm => ?_
    rw [hl] at hm
    exact h hc m hm
  | false => exact .of_still (Env.still_of_failed hf.player hf.error hc)

/-- A row of the quality table sets the limit of its quality, and one of the speed table may start
the player. -/
theorem didSelectRowAt_inForce {i : Nat} {q : String} {settings : Bool}
    (hset : s.self.controlsView.isSettingsSelected = settings)
    (hg : settings = true → s.env.canPlay = true → s.env.Caps (qualityLimit q))
    (h : s.didSelectRowAt s.env.player i = .ok s') :
    s'.env.InForce (qualityLimit (if settings then q else videoQualityArray[i]?.getD q)) := by
  have hf := (Commands.didSelectRowAt h).toFrame
  unfold didSelectRowAt at h
  rw [hset] at h
  cases settings with
  | true =>
    simp only [if_true] at h ⊢
    split at h
    · cases h
    · rename_i r _
      cases h
      exact inForce_of_start hf (setVideoSpeed_limit r _) (hg rfl)
  | false =>
    simp only [Bool.false_eq_true, if_false] at h ⊢
    split at h
    · cases h
    · rename_i quality hq
      cases h
      rw [hq, Option.getD_some]
      exact (setVideoQuality_caps quality (s.controls ({ · with selectedQuality := quality }))).inForce

end Scope

open Scope

namespace PsVideoView

variable {s s' : Scope}

/-- A tap on play pauses, or sets the limit of `playerQuality`. -/
theorem playAction_inForce {n : Nat} (hi : s.env.InForce n)
    (hg : s.env.canPlay = true → s.self.controlsView.playButton.isSelected = false →
      maxBitRate s.self.playerQuality = n) : (playAction s).env.InForce n := by
  cases hc : s.env.canPlay with
  | false =>
    have hf := playAction_frame s
    exact .of_still (Env.still_of_failed hf.player hf.error hc)
  | true =>
    unfold playAction
    split
    · exact (Calm.pause _).inForce hi
    · rename_i hb
      have hq : (addObservers s).self.playerQuality = s.self.playerQuality := by
        unfold addObservers
        split
        · exact addTimeObserver_playerQuality s _
        · rfl
      rw [← hg hc (by simpa using hb), ← hq]
      refine Env.Caps.inForce fun m hm => ?_
      rw [setVideoSpeed_limit] at hm
      exact setBitRate_caps _ _ m hm

theorem playBlock_inForce {n : Nat} (hi : s.env.InForce n)
    (hg : s.env.canPlay = true → s.self.controlsView.playButton.isSelected = false →
      maxBitRate s.self.playerQuality = n) : (playBlock s).env.InForce n :=
  playAction_inForce (s := initVideoPlayer s) hi hg

theorem control_inForce {c : Control} {q : String} {v : ViewId}
    (hi : s.env.InForce (qualityLimit q)) (hcan : s.self.controlsView.canTap c)
    (hplay : c = .play → s.env.canPlay = true →
      s.self.controlsView.playButton.isSelected = false →
      maxBitRate s.self.playerQuality = qualityLimit q)
    (hrow : ∀ i, c = .row true i → s.env.canPlay = true → s.env.Caps (qualityLimit q))
    (h : control c s = .ok s') : s'.env.InForce (qualityLimit ((Event.tap v c).chosen q)) := by
  cases c with
  | play => cases h; exact playAction_inForce hi (hplay rfl)
  | stop => cases h; exact ((Calm.seek _ _).trans (.pause _)).inForce hi
  | forward => exact (Calm.seeks (.forwardAction h)).inForce hi
  | backward => exact (Calm.seeks (.backwardAction h)).inForce hi
  | slider x => exact (Calm.seeks (.sliderAction h)).inForce hi
  | fullScreen | settings | videoQuality | controlsView => cases h; exact hi
  | playerView => cases h; exact (Calm.same rfl rfl).inForce hi
  | row settings i =>
    have hr := didSelectRowAt_inForce hcan.2.1 (fun hs => hrow i (by rw [hs])) h
    cases settings <;> exact hr

/-- `viewDismissed` pauses, or sets the limit of the quality that is handed back. -/
theorem viewDismissed_inForce {p : PlayerId} {layer : Handle} {quality speed : String} {n : Nat}
    (hg : s.env.isPlaying (some p) = true → qualityLimit quality = n) :
    (viewDismissed p layer quality speed s).env.InForce n := by
  unfold viewDismissed
  dsimp only
  split
  · rename_i hplay
    rw [← hg hplay]
    refine Env.Caps.inForce ?_
    have hq : ∀ (t : Scope) (r : String), t.self.playerQuality = quality →
        ((t.setVideoSpeed t.env.player r).setVideoQuality (t.setVideoSpeed t.env.player r).env.player
          (t.setVideoSpeed t.env.player r).self.playerQuality).env.Caps (qualityLimit quality) := by
      intro t r ht
      have hself : (t.setVideoSpeed t.env.player r).self.playerQuality = quality := by
        rw [setVideoSpeed_self]; exact ht
      rw [hself]
      exact setVideoQuality_caps quality _
    exact hq _ _ (addTimeObserver_playerQuality _ _)
  · rename_i hplay
    exact (Calm.pause _).inForce (.of_still (eq_false_of_ne_true hplay))

end PsVideoView

/-! ## The world -/

/-- The inline view shows, over a player that can play. -/
def World.ready (w : World) : Bool := w.screen = .inline && w.env.canPlay

/-- The world, and the quality selected last. What may start the player without setting a limit
comes only while the limit is right, and what sets one sets that of the quality selected last. -/
def BitRateSafe (s : World × String) : Event → Bool
  | .property _ (.paused false) | .tap _ (.row true _) =>
    s.1.ready = true → s.1.env.Caps (qualityLimit s.2)
  | .tap _ .play | .delayedBlock _ => s.1.ready = true → s.1.showsPlaying = false →
      maxBitRate (s.1.views 0).playerQuality = qualityLimit s.2
  | .mainBlock => !s.1.ready
  | .property _ (.maxBitRate d) => s.1.screen = .inline → s.1.env.plays = true →
      maxBitRate d = qualityLimit s.2
  | .viewDismissed => ∀ k ∈ s.1.screen.vc, s.1.env.isPlaying (s.1.vcs k).player = true →
      qualityLimit (s.1.vcs k).controlsView.videoQualityButton.title = qualityLimit s.2
  | _ => true

def BitRateRun (s : World × String) (e : Event) : Prop := e.oneView = true ∧ BitRateSafe s e

instance (s : World × String) (e : Event) : Decidable (BitRateRun s e) :=
  inferInstanceAs (Decidable (_ ∧ _))

theorem SilentStep.calm {w w' : World} (h : SilentStep w w') : Calm w.env w'.env := by
  cases h with
  | refl => exact .refl _
  | put h => exact .silent h
  | fullPut _ h => exact .silent h

theorem background_calm (w : World) :
    Calm w.env (w.env.registrations.foldl World.notifyBackground w).env :=
  background_rule (P := fun w' => Calm w.env w'.env) (.refl _) fun _ _ _ _ _ hi =>
    hi.trans (.pause _)

/-- While the inline view shows, the limit of quality `q` is in force. -/
def BitRateInForce (q : String) (w : World) : Prop :=
  w.screen = .inline → w.env.InForce (qualityLimit q)

namespace BitRateInForce

variable {q : String} {w w' : World}

theorem calm (hi : BitRateInForce q w) (hc : Calm w.env w'.env)
    (hs : w'.screen = .inline → w.screen = .inline) : BitRateInForce q w' :=
  fun hin => hc.inForce (hi (hs hin))

theorem ready {w : World} (hin : w.screen = .inline) (hc : w.env.canPlay = true) :
    w.ready = true := by
  simp [World.ready, hin, hc]

theorem step {accepts : String → Bool} {e : Event} (hi : BitRateInForce q w) (hs : Solo w)
    (hg : BitRateRun (w, q) e) (he : w.enabled e) (h : w.step accepts e = .ok w') :
    BitRateInForce (e.chosen q) w' := by
  obtain ⟨h1, hg⟩ := hg
  by_cases hv : e.session = true
  · exact fun hin => absurd hin (step_session hv he h).2
  cases e with
  | mount | unmount v => cases h1
  | property v p =>
    obtain rfl : v = 0 := hs.mounted v he
    cases p with
    | url u =>
      obtain ⟨_, rfl⟩ := url_ok h
      refine fun _ => .of_still ?_
      simp [Env.plays, Env.isPlaying, Env.makePlayer, AVPlayer.ofURL, AVPlayer.isPlaying]
    | paused b =>
      cases b with
      | true => cases h; exact hi.calm (.pause _) id
      | false =>
        cases h
        refine fun hin => Scope.inForce_of_start (s := w.scope 0) ?_ (Scope.play_limit (w.scope 0)) ?_
        · exact ((Commands.call _ .play).trans (.controls _ (·.selectPlay true))).toFrame
        · exact fun hc => of_decide_eq_true hg (ready hin hc)
    | play b =>
      cases b with
      | true => cases h; exact hi.calm (.refl _) id
      | false => cases h; exact hi.calm (.pause _) id
    | stop b => cases h; exact hi.calm ((Calm.seek _ _).trans (.pause _)) id
    | controls b => cases h; exact hi.calm (.refl _) id
    | maxBitRate d =>
      cases h
      intro hin hp
      have hplays : w.env.plays = true :=
        (Env.moved_call w.env _ _ (.setPeakBitRate (maxBitRate d))).plays
          (fun a ha => by simpa [PlayerOp.apply, AVPlayer.isPlaying] using ha) hp
      have hd : maxBitRate d = qualityLimit q := of_decide_eq_true hg hin hplays
      simp only [Event.chosen]
      rw [← hd]
      exact Env.caps_call w.env _ (maxBitRate d)
  | tap v c =>
    obtain rfl : v = 0 := hs.mounted v he.1
    obtain ⟨s, hr, rfl⟩ := tap_ok (by rintro rfl; exact hv rfl) h
    refine fun hin => PsVideoView.control_inForce (hi hin) he.2.2 ?_ ?_ hr
    · rintro rfl hcan
      exact of_decide_eq_true hg (ready hin hcan)
    · rintro i rfl hcan
      exact of_decide_eq_true hg (ready hin hcan)
  | fullTap c | viewDidAppear => exact absurd rfl hv
  | viewDismissed =>
    obtain ⟨k, p, layer, hk, hp, _, rfl⟩ := viewDismissed_ok he h
    refine fun _ => PsVideoView.viewDismissed_inForce fun hplay => ?_
    exact of_decide_eq_true hg k hk (by rw [hp]; exact hplay)
  | delayedBlock v =>
    obtain rfl : v = 0 := hs.delayed v (List.mem_of_mem_head? he)
    cases h
    refine fun hin => PsVideoView.playBlock_inForce (hi hin) fun hcan => ?_
    exact of_decide_eq_true hg (ready hin hcan)
  | playAnotherVideo url => cases h; exact hi.calm (.refl _) id
  | mainBlock =>
    obtain ⟨_, _, _, rfl⟩ := mainBlock_ok he h
    intro hin
    have hr : w.ready = false := by simpa [BitRateSafe] using hg
    refine .of_still (Env.still_of_failed (e := w.env) rfl (fun q => ?_) ?_)
    · simp only [PsVideoView.playNextVideo, Env.error_call]
    · simpa [World.ready, show w.screen = .inline from hin] using hr
  | background => cases h; exact hi.calm (background_calm w) ((background_screen w).symm.trans ·)
  | timer t =>
    cases h
    exact hi.calm (SilentStep.timer w t).calm ((SilentStep.timer w t).screen.symm.trans ·)
  | tick t => exact hi.calm (SilentStep.tick h).calm ((SilentStep.tick h).screen.symm.trans ·)
  | itemProgress p status duration time =>
    cases h
    refine hi.calm (.moved (w.moved_updatePlayer p _) (fun a => ?_) fun _ => id) id
    cases ha : a.currentItem <;> simp [AVPlayer.progress, AVPlayer.limit, ha]
  | itemEnd p =>
    cases h
    refine hi.calm (.moved (w.moved_updatePlayer p _) (fun _ => rfl) fun a ha => ?_) id
    simp [AVPlayer.ended, AVPlayer.isPlaying] at ha
  | playbackError p =>
    cases h
    refine hi.calm (.moved (w.moved_updatePlayer p _) (fun _ => rfl) fun a ha => ?_) id
    simp [AVPlayer.failed, AVPlayer.isPlaying] at ha

theorem item_limit (hi : BitRateInForce q w) (hs : w.screen = .inline) (hp : w.env.plays = true)
    {item : AVPlayerItem} (h : w.env.currentItem w.env.player = some item) :
    item.preferredPeakBitRate = qualityLimit q := by
  refine hi hs hp item.preferredPeakBitRate ?_
  cases hq : w.env.player with
  | none => simp [Env.currentItem, hq] at h
  | some p =>
    have hitem : (w.env.players p).currentItem = some item := by simpa [Env.currentItem, hq] using h
    simp [Env.limit_eq hq, AVPlayer.limit, hitem]

theorem oneView : BitRateInForce q .oneView := fun _ => .of_still rfl

end BitRateInForce

/-- One view, with the quality selected last, under the condition. -/
def bitRateApp (accepts : String → Bool) : Machine (World × String) Event Trap :=
  ((app accepts).track Event.chosen).restrict BitRateRun

instance (accepts : String → Bool) (s : World × String) (e : Event) :
    Decidable ((bitRateApp accepts).enabled s e) := inferInstanceAs (Decidable (_ ∧ _))

theorem bitRate_steps {accepts : String → Bool} {es : List Event} {s s' : World × String}
    (h : Steps (bitRateApp accepts) s es s') (hs : Solo s.1) (hi : BitRateInForce s.2 s.1) :
    Solo s'.1 ∧ BitRateInForce s'.2 s'.1 := by
  refine h.invariant (I := fun s => Solo s.1 ∧ BitRateInForce s.2 s.1) ?_ ⟨hs, hi⟩
  intro s e s' hi he hstep
  obtain ⟨hok, hq⟩ := track_ok hstep
  rw [hq]
  exact ⟨hi.1.step he.2.1 he.1 hok, hi.2.step hi.1 he.2 he.1 hok⟩

theorem foldl_chosen_of_none {es : List Event} (h : ∀ e ∈ es, ∀ q, e.chosen q = q) (q : String) :
    es.foldl Event.chosen q = q := by
  induction es with
  | nil => rfl
  | cons e es ih =>
    rw [List.foldl_cons, h e List.mem_cons_self]
    exact ih fun e' he' => h e' (List.mem_cons_of_mem e he')

/-- **The limit follows the selection.** In every run of one view that meets the condition and in
every state with the inline view on the screen and the player playing, the limit of its item is the
one `setVideoQuality` sets for the quality selected last. In particular no pause, play or session
that follows without another selection leaves a different one in force. -/
theorem limit_follows {accepts : String → Bool} {es : List Event} {w : World} {q : String}
    (h : Steps (bitRateApp accepts) (.oneView, "360p") es (w, q)) (hs : w.screen = .inline)
    (hp : w.env.plays = true) :
    (∀ item, w.env.currentItem w.env.player = some item →
      item.preferredPeakBitRate = qualityLimit (es.foldl Event.chosen "360p")) ∧
    ∀ es' w' q', Steps (bitRateApp accepts) (w, q) es' (w', q') →
      (∀ e ∈ es', ∀ q, e.chosen q = q) → w'.screen = .inline → w'.env.plays = true →
      ∀ item item', w.env.currentItem w.env.player = some item →
        w'.env.currentItem w'.env.player = some item' →
        item'.preferredPeakBitRate = item.preferredPeakBitRate := by
  obtain ⟨hsolo, hi⟩ := bitRate_steps h solo_oneView .oneView
  have hq : q = es.foldl Event.chosen "360p" := h.of_restrict.tracked
  constructor
  · intro item hitem
    rw [← hq]
    exact hi.item_limit hs hp hitem
  · intro es' w' q' h' hnone hs' hp' item item' hitem hitem'
    obtain ⟨_, hi'⟩ := bitRate_steps h' hsolo hi
    have hq' : q' = q := h'.of_restrict.tracked.trans (foldl_chosen_of_none hnone q)
    rw [hi.item_limit hs hp hitem, hi'.item_limit hs' hp' hitem', hq']

/-- "720p" is selected inline and "Auto" in a session, and then the video is paused and goes on. -/
theorem limit_follows_session : ∃ w q w' q', Steps (bitRateApp fun _ => true) (.oneView, "360p")
    [.property 0 (.url "a"), .property 0 (.play true), .delayedBlock 0, .tap 0 .videoQuality,
      .tap 0 (.row false 3), .tap 0 .play, .tap 0 .play, .tap 0 .fullScreen, .viewDidAppear,
      .fullTap .videoQuality, .fullTap (.row false 0), .fullTap .fullScreen, .viewDismissed] (w, q) ∧
    Steps (bitRateApp fun _ => true) (w, q) [.tap 0 .play, .property 0 (.paused false)] (w', q') ∧
    (∀ item, w.env.currentItem w.env.player = some item →
      item.preferredPeakBitRate = qualityLimit "Auto") ∧
    ∀ item item', w.env.currentItem w.env.player = some item →
      w'.env.currentItem w'.env.player = some item' →
      item'.preferredPeakBitRate = item.preferredPeakBitRate := by
  obtain ⟨⟨w, q⟩, hw, hobs⟩ := Steps.of_exec_map (bitRateApp fun _ => true) (.oneView, "360p")
    [.property 0 (.url "a"), .property 0 (.play true), .delayedBlock 0, .tap 0 .videoQuality,
      .tap 0 (.row false 3), .tap 0 .play, .tap 0 .play, .tap 0 .fullScreen, .viewDidAppear,
      .fullTap .videoQuality, .fullTap (.row false 0), .fullTap .fullScreen, .viewDismissed]
    (fun s => (s.1.screen, s.1.env.plays,
      ((bitRateApp fun _ => true).exec s [.tap 0 .play, .property 0 (.paused false)]).map
        fun s => (s.1.screen, s.1.env.plays)))
    (a := (.inline, true, some (.inline, true))) (by decide +kernel)
  simp only [Prod.mk.injEq] at hobs
  obtain ⟨hs, hp, hmore⟩ := hobs
  obtain ⟨⟨w', q'⟩, hexec, hobs'⟩ := Option.map_eq_some_iff.mp hmore
  obtain ⟨hs', hp'⟩ := Prod.mk.inj hobs'
  have hw' := Steps.of_exec hexec
  obtain ⟨hlimit, hlater⟩ := limit_follows hw hs hp
  refine ⟨w, q, w', q', hw, hw', hlimit, hlater _ w' q' hw' ?_ hs' hp'⟩
  intro e he q
  simp only [List.mem_cons, List.not_mem_nil, or_false] at he
  obtain rfl | rfl := he <;> rfl

/-- "Auto" is selected while playing, and one pause later the limit is another. -/
theorem limit_not_follows : ∃ w item, Steps ((app fun _ => true).track Event.chosen)
    (.oneView, "360p")
    [.property 0 (.url "a"), .tap 0 .play, .tap 0 .videoQuality, .tap 0 (.row false 0), .tap 0 .play,
      .tap 0 .play] (w, "Auto") ∧
    w.screen = .inline ∧ w.env.plays = true ∧ w.env.currentItem w.env.player = some item ∧
    item.preferredPeakBitRate ≠ qualityLimit "Auto" := by
  obtain ⟨⟨w, q⟩, hw, hobs⟩ := Steps.of_exec_map ((app fun _ => true).track Event.chosen)
    (.oneView, "360p")
    [.property 0 (.url "a"), .tap 0 .play, .tap 0 .videoQuality, .tap 0 (.row false 0), .tap 0 .play,
      .tap 0 .play]
    (fun s => (s.2, s.1.screen, s.1.env.plays,
      (s.1.env.currentItem s.1.env.player).map (·.preferredPeakBitRate)))
    (a := ("Auto", .inline, true, some 100000)) (by decide +kernel)
  simp only [Prod.mk.injEq] at hobs
  obtain ⟨rfl, hs, hp, hl⟩ := hobs
  obtain ⟨item, hitem, hlimit⟩ := Option.map_eq_some_iff.mp hl
  refine ⟨w, item, hw, hs, hp, hitem, ?_⟩
  rw [hlimit]
  decide

end PsVideo
