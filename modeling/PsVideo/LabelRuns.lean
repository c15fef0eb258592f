import PsVideo.Conversions
import PsVideo.LabelReading
import PsVideo.LostTokens

/-!
# PsVideo.LabelRuns

What the time label of a view or of a controller says in a run. Only the callback of its own time
observer writes it, so it has the times of the item that its latest tick found ready, and
`readLabel` gets the whole seconds of these back.
-/

namespace PsVideo

open Machine

/-! ## Only the callback writes the label -/

/-- The text of the label, and the end of the slider. -/
def PsVideoControlsView.face (c : PsVideoControlsView) : String × Seconds :=
  (c.timeLabel, c.sliderMaximum)

namespace PsVideoControlsView

variable (c : PsVideoControlsView)

@[simp] theorem face_selectPlay (b : Bool) : (c.selectPlay b).face = c.face := rfl
@[simp] theorem face_hide (b : Bool) : (c.hide b).face = c.face := rfl
@[simp] theorem face_hideTable (b : Bool) : (c.hideTable b).face = c.face := rfl
@[simp] theorem face_resetControls : c.resetControls.face = c.face := rfl
@[simp] theorem face_setQualityTitle (t : String) : (c.setQualityTitle t).face = c.face := rfl

@[simp] theorem face_settingsAction : c.settingsAction.face = c.face := by
  unfold settingsAction
  split <;> rfl

@[simp] theorem face_videoQualityAction : c.videoQualityAction.face = c.face := by
  unfold videoQualityAction
  split <;> rfl

end PsVideoControlsView

/-- The label and the slider's end in what a handler sees. -/
def Scope.face (s : Scope) : String × Seconds := s.self.controlsView.face

namespace Scope

variable {p : Option PlayerId} {s s' : Scope}

@[simp] theorem face_call (op : PlayerOp) : (s.call p op).face = s.face := rfl

@[simp] theorem face_controls (f : PsVideoControlsView → PsVideoControlsView) :
    (s.controls f).face = (f s.self.controlsView).face := rfl

@[simp] theorem face_setBitRate (d : String) : (s.setBitRate p d).face = s.face := rfl
@[simp] theorem face_startTimer : s.startTimer.face = s.face := rfl
@[simp] theorem face_resetTimer : s.resetTimer.face = s.face := rfl
@[simp] theorem face_pauseAction : (s.pauseAction p).face = s.face := rfl
@[simp] theorem face_stopAction : (s.stopAction p).face = s.face := rfl
@[simp] theorem face_setVideoQuality (q : String) : (s.setVideoQuality p q).face = s.face := rfl

@[simp] theorem face_setVideoSpeed (r : String) : (s.setVideoSpeed p r).face = s.face := by
  unfold setVideoSpeed
  cases speedSetting r <;> rfl

@[simp] theorem face_addTimeObserver : (s.addTimeObserver p).face = s.face := by
  cases p <;> rfl

theorem face_removeTimeObserver (h : s.removeTimeObserver p = .ok s') : s'.face = s.face := by
  rw [removeTimeObserver_ok h]
  rfl

theorem face_seeks (h : Seeks p s s') : s'.face = s.face := by
  induction h with
  | refl s => rfl
  | button _ ih | slider x _ ih | seek time _ ih => exact ih

theorem face_didSelectRowAt {i : ℕ} (h : s.didSelectRowAt p i = .ok s') : s'.face = s.face := by
  unfold didSelectRowAt at h
  split at h
  · split at h
    · cases h
    · cases h; exact face_setVideoSpeed _
  · split at h
    · cases h
    · cases h; rfl

end Scope

namespace PsVideoView

variable {s s' : Scope}

theorem face_playAction (s : Scope) : (playAction s).face = s.face := by
  unfold playAction addObservers addTimeObserver
  split
  · rfl
  · simp only [Scope.face_setVideoSpeed, Scope.face_setBitRate]
    split
    · exact Scope.face_addTimeObserver
    · rfl

theorem face_playBlock (s : Scope) : (playBlock s).face = s.face :=
  face_playAction (initVideoPlayer s)

theorem face_viewDismissed (p : PlayerId) (layer : Handle) (quality speed : String) (s : Scope) :
    (viewDismissed p layer quality speed s).face = s.face := by
  unfold viewDismissed
  dsimp only
  split
  · simp only [Scope.face_setVideoQuality, Scope.face_setVideoSpeed, Scope.face_startTimer]
    exact Scope.face_addTimeObserver
  · rfl

theorem face_timerAction (s : Scope) : (timerAction s).face = s.face := by
  unfold timerAction
  split <;> rfl

theorem face_control {c : Control} (h : control c s = .ok s') : s'.face = s.face := by
  cases c with
  | play => cases h; exact face_playAction s
  | forward => exact Scope.face_seeks (.forwardAction h)
  | backward => exact Scope.face_seeks (.backwardAction h)
  | slider x => exact Scope.face_seeks (.sliderAction h)
  | row settings i => exact Scope.face_didSelectRowAt h
  | settings => cases h; exact PsVideoControlsView.face_settingsAction _
  | videoQuality => cases h; exact PsVideoControlsView.face_videoQualityAction _
  | stop | fullScreen | controlsView | playerView => cases h; rfl

end PsVideoView

@[simp] theorem FullScope.face_on (f : Option PlayerId → Scope → Scope) (s : FullScope) :
    (s.on f).scope.face = (f s.self.player s.scope).face := rfl

namespace PsVideoFullViewVC

variable {s s' : FullScope}

/-- What a shared handler leaves alone, it leaves alone in a controller. -/
theorem face_tryOn {f : Option PlayerId → Scope → Except Trap Scope}
    (hf : ∀ r, f s.self.player s.scope = .ok r → r.face = s.scope.face) (h : s.tryOn f = .ok s') :
    s'.scope.face = s.scope.face := by
  obtain ⟨r, hr, rfl⟩ := FullScope.of_tryOn h
  exact hf r hr

/-- Set the speed, then the quality. -/
theorem face_settings (r : String) (q : FullScope → String) (s : FullScope) :
    (setVideoQuality (q (setVideoSpeed r s)) (setVideoSpeed r s)).scope.face = s.scope.face := by
  simp only [setVideoQuality, setVideoSpeed, FullScope.face_on, Scope.face_setVideoQuality,
    Scope.face_setVideoSpeed]

theorem face_viewDidAppear (s : FullScope) : (viewDidAppear s).scope.face = s.scope.face := by
  unfold viewDidAppear
  split
  · refine (face_settings _ (·.self.playerQuality) _).trans ?_
    simp only [startTimer, addTimeObserver, FullScope.face_on, Scope.face_startTimer,
      Scope.face_addTimeObserver]
    rfl
  · rfl

theorem face_playAction (s : FullScope) : (playAction s).scope.face = s.scope.face := by
  unfold playAction
  split
  · rfl
  · refine (face_settings _ (·.self.playerQuality) _).trans ?_
    split
    · exact (FullScope.face_on _ _).trans Scope.face_addTimeObserver
    · rfl

theorem face_timerAction (s : FullScope) : (timerAction s).scope.face = s.scope.face := by
  unfold timerAction
  split <;> rfl

theorem face_control {c : Control} (h : control c s = .ok s') : s'.scope.face = s.scope.face := by
  cases c with
  | play => cases h; exact face_playAction s
  | fullScreen =>
    exact face_tryOn (s := { s with env := s.env.removeObserver .method .willResignActive })
      (fun r hr => Scope.face_removeTimeObserver hr) h
  | forward => exact face_tryOn (fun r hr => Scope.face_seeks (.forwardAction hr)) h
  | backward => exact face_tryOn (fun r hr => Scope.face_seeks (.backwardAction hr)) h
  | slider x =>
    exact face_tryOn (f := fun p => (·.sliderAction p x))
      (fun r hr => Scope.face_seeks (.sliderAction hr)) h
  | row settings i =>
    exact face_tryOn (f := fun p => (·.didSelectRowAt p i))
      (fun r hr => Scope.face_didSelectRowAt hr) h
  | settings => cases h; exact PsVideoControlsView.face_settingsAction _
  | videoQuality => cases h; exact PsVideoControlsView.face_videoQualityAction _
  | stop | controlsView | playerView => cases h; rfl

end PsVideoFullViewVC

/-! ## The world -/

/-- The label and the slider's end of an object. -/
def World.face (w : World) : Owner → String × Seconds
  | .view v => (w.scope v).face
  | .vc k => (w.fullScope k).scope.face
  | .manager => PsVideoControlsView.face {}

/-- The item whose times a tick of the object shows. -/
def World.showing (w : World) : Owner → Option AVPlayerItem
  | .view _ => (w.env.currentItem w.env.player).filter (·.status = .readyToPlay)
  | .vc k =>
    if w.vcAlive k then
      (w.env.currentItem (w.vcs k).player).filter (·.status = .readyToPlay)
    else none
  | .manager => none

/-- The item whose times the latest tick of `o` has shown, if `item` was that of the one before. -/
def World.refresh (o : Owner) (w : World) (e : Event) (item : Option AVPlayerItem) :
    Option AVPlayerItem :=
  match e with
  | .tick t => if t.owner = o then (w.showing o).or item else item
  | _ => item

/-- The label and the slider's end before the first tick, or after a tick that found `item`. -/
def ShowsTimes (face : String × Seconds) : Option AVPlayerItem → Prop
  | none => face = PsVideoControlsView.face {}
  | some item => ∃ playhead duration, formatTimeFor item.currentTime.seconds = .ok playhead ∧
      formatTimeFor item.duration.seconds = .ok duration ∧
      face = (playhead ++ "-" ++ duration, item.duration.seconds.toFloat)

theorem Scope.showTimes_shows {s s' : Scope} {item : AVPlayerItem}
    (h : s.showTimes item = .ok s') : ShowsTimes s'.face (some item) := by
  unfold showTimes at h
  dsimp only at h
  split at h
  · cases h
  · rename_i playhead hp
    split at h
    · cases h
    · rename_i duration hd
      cases h
      exact ⟨playhead, duration, hp, hd, rfl⟩

namespace World

variable {w w' : World}

theorem face_put_self {v : ViewId} {s : Scope} : (w.put v s).face (.view v) = s.face := by
  simp [World.face, Scope.face, World.scope, World.put]

theorem face_put_other {v : ViewId} {s : Scope} {o : Owner} (ho : o ≠ .view v) :
    (w.put v s).face o = w.face o := by
  cases o with
  | view u =>
    have hu : u ≠ v := fun hu => ho (by rw [hu])
    simp [World.face, Scope.face, World.scope, World.put, Function.update_of_ne hu]
  | vc | manager => rfl

theorem face_put {v : ViewId} {s : Scope} (h : s.face = (w.scope v).face) (o : Owner) :
    (w.put v s).face o = w.face o := by
  by_cases ho : o = .view v
  · subst ho; exact face_put_self.trans h
  · exact face_put_other ho

theorem face_fullPut_self {k : VcId} {s : FullScope} :
    (w.fullPut k s).face (.vc k) = s.scope.face := by
  simp [World.face, Scope.face, FullScope.scope, World.fullScope, World.fullPut]

theorem face_fullPut_other {k : VcId} {s : FullScope} {o : Owner} (ho : o ≠ .vc k) :
    (w.fullPut k s).face o = w.face o := by
  cases o with
  | vc j =>
    have hj : j ≠ k := fun hj => ho (by rw [hj])
    simp [World.face, Scope.face, FullScope.scope, World.fullScope, World.fullPut,
      Function.update_of_ne hj]
  | view | manager => rfl

theorem face_fullPut {k : VcId} {s : FullScope} (h : s.scope.face = (w.fullScope k).scope.face)
    (o : Owner) : (w.fullPut k s).face o = w.face o := by
  by_cases ho : o = .vc k
  · subst ho; exact face_fullPut_self.trans h
  · exact face_fullPut_other ho

end World

/-- Only a tick changes a label, apart from those of new objects. -/
theorem step_face {accepts : String → Bool} {e : Event} {w w' : World} (ht : ∀ t, e ≠ .tick t)
    (he : w.enabled e) (h : w.step accepts e = .ok w') (o : Owner) :
    w'.face o = w.face o ∨ ¬ w.Holder o ∧ w'.face o = PsVideoControlsView.face {} := by
  cases e with
  | mount =>
    cases h
    by_cases ho : o = .view w.nextView
    · subst ho
      refine .inr ⟨Nat.lt_irrefl _, ?_⟩
      simp [World.face, World.scope, Scope.face, PsVideoView.init]
    · refine .inl ?_
      cases o with
      | view u =>
        have hu : u ≠ w.nextView := fun hu => ho (by rw [hu])
        simp [World.face, World.scope, Scope.face, Function.update_of_ne hu]
      | vc | manager => rfl
  | unmount v => cases h; exact .inl rfl
  | property v p =>
    refine .inl ?_
    cases p with
    | url u => obtain ⟨_, rfl⟩ := url_ok h; cases o <;> rfl
    | paused b =>
      cases b with
      | true => cases h; apply World.face_put; rfl
      | false => cases h; apply World.face_put; rfl
    | play b =>
      cases b with
      | true => cases h; cases o <;> rfl
      | false => cases h; apply World.face_put; rfl
    | stop | controls | maxBitRate => cases h; apply World.face_put; rfl
  | tap v c =>
    by_cases hc : c = .fullScreen
    · subst hc
      obtain ⟨s, layer, hs, _, _, rfl⟩ := fullScreen_ok h
      have hf : s.face = (w.scope v).face := Scope.face_removeTimeObserver hs
      cases o with
      | view u => exact .inl (World.face_put (s := { s with
          env := (s.env.addObserver (.vc (w.nextVc v)) .didEnterBackground).addSublayer
            (.vc (w.nextVc v)) layer
          self := { s.self with timeObserver := none } }) hf (.view u))
      | vc k =>
        by_cases hk : k = w.nextVc v
        · subst hk
          refine .inr ⟨w.not_made_nextVc v, ?_⟩
          simp [World.face, World.fullScope, FullScope.scope, Scope.face, presentedVC]
        · refine .inl ?_
          simp [World.face, World.fullScope, FullScope.scope, Scope.face, World.put,
            Function.update_of_ne hk]
      | manager => exact .inl rfl
    · obtain ⟨s, hs, rfl⟩ := tap_ok hc h
      exact .inl (World.face_put (PsVideoView.face_control hs) o)
  | fullTap c =>
    obtain ⟨k, s, _, _, _, hs, rfl⟩ := fullTap_ok he h
    exact .inl (World.face_fullPut (PsVideoFullViewVC.face_control hs) o)
  | viewDidAppear =>
    obtain ⟨k, _, rfl⟩ := viewDidAppear_ok he h
    exact .inl (World.face_fullPut (PsVideoFullViewVC.face_viewDidAppear _) o)
  | viewDismissed =>
    obtain ⟨k, p, layer, _, _, _, rfl⟩ := viewDismissed_ok he h
    exact .inl (World.face_put (PsVideoView.face_viewDismissed p layer _ _ _) o)
  | delayedBlock v =>
    cases h
    exact .inl (World.face_put (PsVideoView.face_playBlock _) o)
  | mainBlock =>
    obtain ⟨url, rest, _, rfl⟩ := mainBlock_ok he h
    exact .inl rfl
  | background =>
    cases h
    refine .inl (background_rule (P := fun w' => w'.face o = w.face o) rfl
      fun w' k _ _ _ hi => ?_)
    exact (World.face_fullPut (s := PsVideoFullViewVC.pauseAction (w'.fullScope k)) rfl o).trans hi
  | timer t =>
    cases h
    refine .inl ?_
    unfold World.timer
    split
    · exact World.face_put (PsVideoView.face_timerAction _) o
    · exact World.face_fullPut (PsVideoFullViewVC.face_timerAction _) o
    · rfl
  | tick t => exact absurd rfl (ht t)
  | playAnotherVideo | itemProgress | itemEnd | playbackError => cases h; exact .inl rfl

/-- The callback of a view shows the times of the item that it finds ready. -/
theorem PsVideoView.timeObserverCallback_shows {alive : Bool} {s s' : Scope}
    {item : Option AVPlayerItem} (h : timeObserverCallback alive s = .ok s')
    (hs : ShowsTimes s.face item) : ShowsTimes s'.face
      (((s.env.currentItem s.env.player).filter (·.status = .readyToPlay)).or item) := by
  obtain ⟨hnone, rfl⟩ | ⟨x, hready, -, hshow⟩ := timeObserverCallback_cases h
  · rw [hnone, Option.none_or]; exact hs
  · rw [hready, Option.some_or]; exact Scope.showTimes_shows hshow

theorem PsVideoFullViewVC.timeObserverCallback_shows {s s' : FullScope}
    {item : Option AVPlayerItem} (h : timeObserverCallback s = .ok s')
    (hs : ShowsTimes s.scope.face item) : ShowsTimes s'.scope.face
      (((s.env.currentItem s.self.player).filter (·.status = .readyToPlay)).or item) := by
  obtain ⟨hnone, rfl⟩ | ⟨x, r, hready, hshow, rfl⟩ := timeObserverCallback_cases h
  · rw [hnone, Option.none_or]; exact hs
  · rw [hready, Option.some_or]
    have hr : ShowsTimes r.face (some x) := Scope.showTimes_shows hshow
    exact hr

theorem tick_face {w w' : World} {t : Handle} (h : w.tick t = .ok w') (o : Owner)
    {item : Option AVPlayerItem} (hs : ShowsTimes (w.face o) item) :
    ShowsTimes (w'.face o) (w.refresh o (.tick t) item) := by
  obtain ⟨p, n⟩ := t
  have hother : p ≠ o → w.refresh o (.tick ⟨p, n⟩) item = item := fun hp => if_neg hp
  have hself : p = o → w.refresh o (.tick ⟨p, n⟩) item = (w.showing o).or item := fun hp =>
    if_pos hp
  unfold World.tick at h
  cases p with
  | view v =>
    cases hr : PsVideoView.timeObserverCallback (w.viewAlive v) (w.scope v) with
    | error t => simp only [hr] at h; cases h
    | ok s =>
      simp only [hr] at h
      cases h
      by_cases ho : .view v = o
      · subst ho
        rw [hself rfl, World.face_put_self]
        exact PsVideoView.timeObserverCallback_shows hr hs
      · rw [hother ho, World.face_put_other (Ne.symm ho)]
        exact hs
  | vc k =>
    dsimp only at h
    split at h
    · rename_i ha
      cases hr : PsVideoFullViewVC.timeObserverCallback (w.fullScope k) with
      | error t => rw [hr] at h; cases h
      | ok s =>
        rw [hr] at h
        cases h
        by_cases ho : .vc k = o
        · subst ho
          rw [hself rfl, World.face_fullPut_self, World.showing, if_pos ha]
          exact PsVideoFullViewVC.timeObserverCallback_shows hr hs
        · rw [hother ho, World.face_fullPut_other (Ne.symm ho)]
          exact hs
    · rename_i ha
      cases h
      by_cases ho : .vc k = o
      · subst ho
        rw [hself rfl, World.showing, if_neg ha]
        exact hs
      · rw [hother ho]; exact hs
  | manager =>
    cases h
    by_cases ho : .manager = o
    · subst ho; exact hs
    · rw [hother ho]; exact hs

/-! ## Reading the label -/

/-- The playhead and the duration that a label has in it. -/
def readTimes (text : String) : Option (ℕ × ℕ) :=
  match text.toList.splitOn '-' with
  | [a, b] =>
    match readLabel (String.ofList a), readLabel (String.ofList b) with
    | some playhead, some duration => some (playhead, duration)
    | _, _ => none
  | _ => none

/-- A field that can be read has only digits in it. -/
theorem not_mem_field {c : Char} {field : List Char} {n : ℕ} (hc : decimalDigit c = none)
    (h : readField field = some n) : c ∉ field := by
  obtain ⟨_, ds, hds, _⟩ := readNumeral_eq_some.mp h
  intro hmem
  have hdigit : decimalDigit c ∈ ds.map some := by
    rw [← hds]
    exact List.mem_map_of_mem hmem
  rw [hc] at hdigit
  simp at hdigit

/-- The label of a time has no dash in it, and reads as its whole seconds. -/
theorem formatTimeFor_text {t : ℚ} {text : String} (h0 : 0 ≤ t) (ht : t < 2 ^ 63)
    (h : formatTimeFor (.num t) = .ok text) :
    '-' ∉ text.toList ∧ readLabel text = some ⌊t⌋₊ := by
  obtain ⟨text₁, htext₁, hlist⟩ := formatTimeFor_intercalate h0 ht
  obtain ⟨text₂, htext₂, hfields⟩ := fields_formatTimeFor h0 ht
  obtain rfl : text₁ = text := Except.ok.inj (htext₁.symm.trans h)
  obtain rfl : text₂ = text₁ := Except.ok.inj (htext₂.symm.trans h)
  refine ⟨?_, readLabel_eq hfields⟩
  have hdash : decimalDigit '-' = none := by decide
  have hh := not_mem_field hdash (readField_toDigits (⌊t⌋₊ / 3600))
  have hm := not_mem_field hdash (readField_minutes ⌊t⌋₊)
  have hs := not_mem_field hdash (readField_seconds ⌊t⌋₊)
  rw [hlist, labelFields]
  split
  · simp only [List.intercalate_cons_cons, List.intercalate_singleton, List.mem_append,
      List.mem_singleton, hh, hm, hs]
    decide
  · simp only [List.intercalate_cons_cons, List.intercalate_singleton, List.mem_append,
      List.mem_singleton, hm, hs]
    decide

/-- Two labels with a dash between them are read apart. -/
theorem readTimes_dash {a b : String} {m n : ℕ} (ha : '-' ∉ a.toList) (hb : '-' ∉ b.toList)
    (hm : readLabel a = some m) (hn : readLabel b = some n) :
    readTimes (a ++ "-" ++ b) = some (m, n) := by
  have hsplit : (a ++ "-" ++ b).toList.splitOn '-' = [a.toList, b.toList] := by
    have hlist : (a ++ "-" ++ b).toList = ['-'].intercalate [a.toList, b.toList] := by
      simp [List.intercalate_cons_cons]
    rw [hlist]
    refine List.splitOn_intercalate '-' (fun l hl => ?_) (by simp)
    simp only [List.mem_cons, List.not_mem_nil, or_false] at hl
    obtain rfl | rfl := hl
    · exact ha
    · exact hb
  simp only [readTimes, hsplit, String.ofList_toList, hm, hn]

/-- What is seen before the first tick, or after a tick that found `item`: for times that are not
negative the slider ends at the `Float` nearest to the duration, and the whole seconds of both can be
read off the label. -/
def Reads (face : String × Seconds) : Option AVPlayerItem → Prop
  | none => face = PsVideoControlsView.face {}
  | some item => ∃ t d : ℚ, item.currentTime.seconds = .num t ∧ item.duration.seconds = .num d ∧
      (0 ≤ d → face.2 = .num (Format.single.nearest d)) ∧
      (0 ≤ t → 0 ≤ d → readTimes face.1 = some (⌊t⌋₊, ⌊d⌋₊))

theorem fits_of_formatTimeFor {x : Seconds} {text : String} (h : formatTimeFor x = .ok text) :
    ∃ q : ℚ, x = .num q ∧ -(2 ^ 63 + 1) < q ∧ q < 2 ^ 63 := by
  obtain ⟨_, hx⟩ | ⟨he, _⟩ := formatTimeFor_converts (x := x)
  · cases x with
    | num q => exact ⟨q, rfl, hx⟩
    | posInf | negInf | nan => cases hx
  · rw [he] at h; cases h

theorem ShowsTimes.reads {face : String × Seconds} {item : Option AVPlayerItem}
    (h : ShowsTimes face item) : Reads face item := by
  cases item with
  | none => exact h
  | some item =>
    obtain ⟨playhead, duration, hp, hd, rfl⟩ := h
    obtain ⟨t, ht, _, hlt⟩ := fits_of_formatTimeFor hp
    obtain ⟨d, hdur, hlow, hld⟩ := fits_of_formatTimeFor hd
    have hend : item.duration.seconds.toFloat = .num (Format.single.nearest d) := by
      rw [hdur]
      exact Seconds.round_of_abs_le (e := 64) (abs_le.mpr ⟨by norm_num; linarith, by norm_num; linarith⟩)
        (by decide) (by decide)
    refine ⟨t, d, ht, hdur, fun _ => hend, fun h0 h0' => ?_⟩
    rw [ht] at hp
    rw [hdur] at hd
    obtain ⟨hdash, hread⟩ := formatTimeFor_text h0 hlt hp
    obtain ⟨hdash', hread'⟩ := formatTimeFor_text h0' hld hd
    exact readTimes_dash hdash hdash' hread hread'

/-! ## Over runs -/

/-- The item whose times the latest tick of `o` has shown. -/
def lastShown (accepts : String → Bool) (o : Owner) (es : List Event) : Option AVPlayerItem :=
  (app accepts).foldAlong (World.refresh o) .launch es none

/-- An object that has not been made has no observer to tick. -/
theorem refresh_new {e : Event} {w : World} {o : Owner} {item : Option AVPlayerItem}
    (hi : TokensNumbered w) (he : w.enabled e) (ho : ¬ w.Holder o) :
    w.refresh o e item = item := by
  cases e with
  | tick t =>
    refine if_neg fun hown => ?_
    obtain ⟨x, hx, ht⟩ := List.any_eq_true.mp he
    have hmem : x ∈ w.env.observersOf o := by
      refine List.mem_filter.mpr ⟨hx, decide_eq_true ?_⟩
      rw [eq_of_beq ht]; exact hown
    rw [hi.observersOf_eq_nil ho] at hmem
    cases hmem
  | _ => rfl

/-- **The label reads as the times last shown.** After every run the label of a view or of a
controller has the whole seconds of the item in it that the latest tick of its own observer found
ready, and the slider ends at the duration of that item as a `Float`, if they are not negative;
without such a tick both are as they were made. -/
theorem label_reads {accepts : String → Bool} {es : List Event} {w : World}
    (h : Steps (app accepts) .launch es w) (o : Owner) :
    Reads (w.face o) (lastShown accepts o es) := by
  have hi := h.foldAlong (f := World.refresh o) (I := fun w item => TokensNumbered w ∧
    (¬ w.Holder o → item = none) ∧ ShowsTimes (w.face o) item) (fun w e w' item hi he hs => ?_) none
    ⟨.launch, fun _ => rfl, by cases o <;> rfl⟩
  · exact hi.2.2.reads
  obtain ⟨hn, hnew, hshows⟩ := hi
  refine ⟨hn.step he hs, fun ho => ?_, ?_⟩
  · have hold : ¬ w.Holder o := fun hw => ho (hw.step he hs)
    rw [refresh_new hn he hold]; exact hnew hold
  · by_cases ht : ∃ t, e = .tick t
    · obtain ⟨t, rfl⟩ := ht
      exact tick_face hs o hshows
    · have hsame : w.refresh o e item = item := by
        cases e with
        | tick t => exact absurd ⟨t, rfl⟩ ht
        | _ => rfl
      rw [hsame]
      obtain hface | ⟨hold, hface⟩ := step_face (fun t he => ht ⟨t, he⟩) he hs o
      · rw [hface]; exact hshows
      · rw [hface, hnew hold]; rfl

/-- A tick at 1:05.25 of a video of 2:05.5; playback goes on, with no tick since. -/
theorem label_reads_minute : ∃ w, Steps (app fun _ => true) .launch
    [.mount, .property 0 (.url "a"), .property 0 (.play true), .delayedBlock 0,
      .itemProgress ⟨0, 0⟩ .readyToPlay (.makeMillis 125500) (.makeMillis 65250),
      .tick ⟨.view 0, 0⟩,
      .itemProgress ⟨0, 0⟩ .readyToPlay (.makeMillis 125500) (.makeMillis 65700)] w ∧
    readTimes (w.face (.view 0)).1 = some (65, 125) := by
  obtain ⟨w, hw, _⟩ := Steps.of_exec_map (app fun _ => true) .launch
    [.mount, .property 0 (.url "a"), .property 0 (.play true), .delayedBlock 0,
      .itemProgress ⟨0, 0⟩ .readyToPlay (.makeMillis 125500) (.makeMillis 65250),
      .tick ⟨.view 0, 0⟩,
      .itemProgress ⟨0, 0⟩ .readyToPlay (.makeMillis 125500) (.makeMillis 65700)]
    (fun _ => ()) (a := ()) (by decide +kernel)
  refine ⟨w, hw, ?_⟩
  have hr := label_reads hw (.view 0)
  have hl : (lastShown (fun _ => true) (.view 0)
    [.mount, .property 0 (.url "a"), .property 0 (.play true), .delayedBlock 0,
      .itemProgress ⟨0, 0⟩ .readyToPlay (.makeMillis 125500) (.makeMillis 65250),
      .tick ⟨.view 0, 0⟩,
      .itemProgress ⟨0, 0⟩ .readyToPlay (.makeMillis 125500) (.makeMillis 65700)]).map
        (fun item => (item.currentTime, item.duration)) =
      some (.makeMillis 65250, .makeMillis 125500) := by decide +kernel
  obtain ⟨item, hitem, htimes⟩ := Option.map_eq_some_iff.mp hl
  obtain ⟨hc, hd⟩ := Prod.mk.inj htimes
  rw [hitem] at hr
  obtain ⟨t, d, ht, hdur, _, hread⟩ := hr
  have hc' : (CMTime.makeMillis 65250).seconds = .num (261 / 4) := by decide +kernel
  have hd' : (CMTime.makeMillis 125500).seconds = .num (251 / 2) := by decide +kernel
  rw [hc, hc'] at ht
  rw [hd, hd'] at hdur
  cases ht
  cases hdur
  have hfloor : ⌊(261 / 4 : ℚ)⌋₊ = 65 := by norm_num [Nat.floor_eq_iff]
  have hfloor' : ⌊(251 / 2 : ℚ)⌋₊ = 125 := by norm_num [Nat.floor_eq_iff]
  have h := hread (by norm_num) (by norm_num)
  rw [← hfloor, ← hfloor']
  exact h

end PsVideo
