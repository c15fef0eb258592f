import PsVideo.LostTokens

/-!
# PsVideo.Buffering

What React Native hears of the buffer. The callback of a view's time observer first calls
`bufferState`, which passes a status to the block `onBuffering`. It does so for every observer of the
view that is registered: in full screen for none, and for those that were lost once more each.
-/

namespace PsVideo

open Machine

structure Buffer where
  isPlaybackLikelyToKeepUp : Bool
  isPlaybackBufferEmpty : Bool
  isPlaybackBufferFull : Bool
  deriving DecidableEq

def onStartBuffering (onBuffering : Bool) (status : ℕ) : List ℕ :=
  if onBuffering then [status] else []

/-- `bufferState()`: what the block gets. The other branches only print. -/
def bufferState (onBuffering : Bool) (b : Buffer) : Option AVPlayerItem → List ℕ
  | some item =>
    match item.status with
    | .readyToPlay =>
      if b.isPlaybackLikelyToKeepUp then onStartBuffering onBuffering 1
      else if b.isPlaybackBufferEmpty then onStartBuffering onBuffering 2
      else if b.isPlaybackBufferFull then onStartBuffering onBuffering 3
      else onStartBuffering onBuffering 1
    | .failed | .unknown => []
  | none => []

/-- What the block of view `v` gets while `e` is handled: `self?.bufferState()` in the callback. -/
def World.reports (onBuffering : Bool) (b : Buffer) (v : ViewId) (w : World) : Event → List ℕ
  | .tick t =>
    if t.owner = .view v ∧ w.viewAlive v = true then
      bufferState onBuffering b (w.env.currentItem w.env.player)
    else []
  | _ => []

def heard (accepts : String → Bool) (onBuffering : Bool) (b : Buffer) (v : ViewId) (w : World)
    (es : List Event) : List ℕ :=
  (app accepts).foldAlong (fun w e l => l ++ w.reports onBuffering b v e) w es []

/-! ## Ticks -/

theorem tick_kept {w w' : World} {t : Handle} (h : w.tick t = .ok w') :
    w'.env.player = w.env.player ∧ w'.env.players = w.env.players ∧ w'.nextView = w.nextView := by
  have hq := Quiet.silent (.tick h)
  refine ⟨hq.player, ?_, hq.nextView⟩
  cases tick_ok h with
  | refl => rfl
  | view hr => exact (PsVideoView.timeObserverCallback_silent hr).players
  | vc _ hr => exact (PsVideoFullViewVC.timeObserverCallback_silent hr).players

/-- Ticks in any order: each one of an observer of `v` is heard, with the same status. -/
theorem ticks_heard {accepts : String → Bool} {onBuffering : Bool} {b : Buffer} {v : ViewId}
    (ts : List Handle) : ∀ {w w' : World} (l : List ℕ), Living w → w.viewAlive v = true →
    Steps (app accepts) w (ts.map .tick) w' →
    (app accepts).foldAlong (fun w e l => l ++ w.reports onBuffering b v e) w (ts.map .tick) l =
      l ++ (ts.filter (·.owner = .view v)).flatMap fun _ =>
        bufferState onBuffering b (w.env.currentItem w.env.player) := by
  induction ts with
  | nil => intro w w' l _ _ _; simp [foldAlong]
  | cons t ts ih =>
    intro w w' l hi ha h
    cases h with
    | @cons _ w₁ _ _ _ he hs hr =>
      have he : w.enabled (.tick t) := he
      have hstep : (app accepts).step w (.tick t) = .ok w₁ := hs
      have hs : w.step accepts (.tick t) = .ok w₁ := hs
      obtain ⟨hp, hps, hn⟩ := tick_kept hs
      have hi₁ : Living w₁ := hi.step he hs
      have ha₁ : w₁.viewAlive v = true := by
        rw [hi₁.viewAlive_iff, hn]; exact hi.viewAlive_iff.mp ha
      have hitem : w₁.env.currentItem w₁.env.player = w.env.currentItem w.env.player := by
        simp only [Env.currentItem, hp, hps]
      simp only [List.map_cons, foldAlong, hstep]
      rw [ih _ hi₁ ha₁ hr, hitem, List.filter_cons]
      by_cases ht : t.owner = .view v
      · simp [World.reports, ht, ha]
      · simp [World.reports, ht]

/-! ## One beat -/

namespace Tokens

/-- The observer whose token is in the field, if it is registered. -/
def own (c : Tokens) : List TimeObserver := c.live.filter (some ·.token = c.field)

theorem own_add_lost (c : Tokens) : c.own.length + c.lost.length = c.live.length := by
  rw [c.live.length_eq_length_filter_add (some ·.token = c.field), own, lost]
  simp only [ne_eq, decide_not]

theorem Numbered.own_le_one {o : Owner} {c : Tokens} (h : c.Numbered o) : c.own.length ≤ 1 := by
  by_contra hlt
  have hnodup : (c.own.map TimeObserver.token).Nodup := h.once.sublist (List.filter_sublist.map _)
  match hown : c.own with
  | [] | [_] => simp [hown] at hlt
  | x :: y :: l =>
    have hfield : ∀ z ∈ c.own, some z.token = c.field := fun z hz =>
      of_decide_eq_true (List.mem_filter.mp hz).2
    have hx := hfield x (by simp [hown])
    have hy := hfield y (by simp [hown])
    rw [hown] at hnodup
    simp [Option.some.inj (hx.trans hy.symm)] at hnodup

end Tokens

/-- **How often React Native hears of the buffer.** Let every observer that is registered tick once,
in any order. The block of a view that is alive then gets its status once if the token that the view
holds is registered, and once more for each observer that the view has lost. -/
theorem beat_heard {accepts : String → Bool} {es : List Event} {w w' : World} {ts : List Handle}
    {v : ViewId} (onBuffering : Bool) (b : Buffer) (h : Steps (app accepts) .launch es w)
    (hts : ts.Perm (w.env.observers.map (·.token))) (hb : Steps (app accepts) w (ts.map .tick) w')
    (ha : w.viewAlive v = true) : (w.tokens (.view v)).own.length ≤ 1 ∧
      heard accepts onBuffering b v w (ts.map .tick) =
        (List.replicate ((w.tokens (.view v)).own.length + (w.tokens (.view v)).lost.length)
          (bufferState onBuffering b (w.env.currentItem w.env.player))).flatten := by
  refine ⟨((TokensNumbered.reached h).numbered _).own_le_one, ?_⟩
  have hlen : (ts.filter (·.owner = .view v)).length = (w.tokens (.view v)).live.length := by
    rw [(hts.filter _).length_eq, List.filter_map, List.length_map]
    rfl
  rw [heard, ticks_heard ts [] (.reached h) ha hb, List.nil_append, Tokens.own_add_lost, ← hlen,
    List.flatMap_def, List.map_const']

/-- A second block runs during a session, and its observer is lost at the end. The buffer is empty,
and React Native hears so twice. -/
theorem beat_heard_twice : ∃ w w', Steps (app fun _ => true) .launch
    [.mount, .property 0 (.url "a"), .property 0 (.play true), .property 0 (.play true),
      .delayedBlock 0, .tap 0 .play, .tap 0 .fullScreen, .viewDidAppear, .delayedBlock 0,
      .fullTap .fullScreen, .viewDismissed,
      .itemProgress ⟨0, 0⟩ .readyToPlay (.makeMillis 60000) (.makeMillis 1000)] w ∧
    Steps (app fun _ => true) w [.tick ⟨.view 0, 1⟩, .tick ⟨.view 0, 2⟩] w' ∧
    heard (fun _ => true) true ⟨false, true, false⟩ 0 w
      [.tick ⟨.view 0, 1⟩, .tick ⟨.view 0, 2⟩] = [2, 2] := by
  obtain ⟨w, hw, hobs⟩ := Steps.of_exec_map (app fun _ => true) .launch
    [.mount, .property 0 (.url "a"), .property 0 (.play true), .property 0 (.play true),
      .delayedBlock 0, .tap 0 .play, .tap 0 .fullScreen, .viewDidAppear, .delayedBlock 0,
      .fullTap .fullScreen, .viewDismissed,
      .itemProgress ⟨0, 0⟩ .readyToPlay (.makeMillis 60000) (.makeMillis 1000)]
    (fun w => ((w.env.observers.map (·.token), w.viewAlive 0),
      ((w.tokens (.view 0)).own.length, (w.tokens (.view 0)).lost.length),
      ((app fun _ => true).exec w [.tick ⟨.view 0, 1⟩, .tick ⟨.view 0, 2⟩]).isSome,
      bufferState true ⟨false, true, false⟩ (w.env.currentItem w.env.player)))
    (a := (([⟨.view 0, 1⟩, ⟨.view 0, 2⟩], true), (1, 1), true, [2])) (by decide +kernel)
  simp only [Prod.mk.injEq] at hobs
  obtain ⟨⟨hts, ha⟩, ⟨hown, hlost⟩, hexec, hstate⟩ := hobs
  obtain ⟨w', hw'⟩ := Option.isSome_iff_exists.mp hexec
  have hr : Steps (app fun _ => true) w ([⟨.view 0, 1⟩, ⟨.view 0, 2⟩].map .tick) w' :=
    .of_exec hw'
  refine ⟨w, w', hw, hr, ?_⟩
  have hh := (beat_heard true ⟨false, true, false⟩ hw (hts ▸ .refl _) hr ha).2
  rw [hown, hlost, hstate] at hh
  exact hh

end PsVideo
