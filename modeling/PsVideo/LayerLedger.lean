import PsVideo.CommandLog

/-!
# PsVideo.LayerLedger

Where every layer is. A delayed block makes a layer and puts it into its view, a session takes the
one in the view's field over into its controller and gives it back, and nothing removes a layer or
binds it to another player. So the layers of a view are all that its blocks have made, but for the
one that a session has borrowed.
-/

namespace PsVideo

open Machine

/-- The layer that the session on the screen has taken over. -/
def World.borrowed (w : World) : Option Handle :=
  w.screen.vc.bind fun k => (w.vcs k).playerLayer

/-- The layer has been made. -/
def Env.LayerMade (e : Env) (l : Handle) : Prop := l.serial < e.layerCount l.owner

instance (e : Env) (l : Handle) : Decidable (e.LayerMade l) := inferInstanceAs (Decidable (_ < _))

/-- The view that has made the layer. -/
def Env.home (e : Env) (l : Handle) : Option Owner := if e.LayerMade l then some l.owner else none

/-- Where the ledger says that the layer is. -/
def World.place (w : World) (l : Handle) : Option Owner :=
  if w.borrowed = some l then w.screen.vc.map .vc else w.env.home l

/-- Only views make layers, one with each delayed block; the tree agrees with the ledger; and a field
names a layer of the view it belongs to. -/
structure Ledger (es : List Event) (w : World) : Prop where
  count : ∀ v, w.env.layerCount (.view v) = es.count (.delayedBlock v)
  others : ∀ o, (∀ v, o ≠ .view v) → w.env.layerCount o = 0
  tree : ∀ l, w.env.superlayer l = w.place l
  view : ∀ v l, (w.views v).playerLayer = some l → l.owner = .view v ∧ w.env.LayerMade l
  vc : ∀ k l, (w.vcs k).playerLayer = some l →
    l.owner = .view (w.vcs k).delegate ∧ w.env.LayerMade l

variable {accepts : String → Bool} {w w' : World} {e : Event} {es : List Event}

theorem quiet_layerCount (hq : e.quiet = true) (he : w.enabled e)
    (h : w.step accepts e = .ok w') : w'.env.layerCount = w.env.layerCount := by
  cases e with
  | mount | unmount | viewDismissed | delayedBlock => cases hq
  | property v p =>
    obtain rfl | ⟨s, hc, rfl⟩ := property_ok (by rintro u rfl; cases hq) h
    · rfl
    · have hl : s.env.layerCount = (w.scope v).env.layerCount := by rw [hc.env]
      exact hl
  | tap v c =>
    obtain ⟨s, hs, rfl⟩ := tap_ok (by rintro rfl; cases hq) h
    exact (PsVideoView.control_confined hs).layerCount
  | fullTap c =>
    obtain ⟨k, s, _, _, _, hs, rfl⟩ := fullTap_ok he h
    exact (PsVideoFullViewVC.control_confined hs).confined.layerCount
  | viewDidAppear =>
    obtain ⟨k, _, rfl⟩ := viewDidAppear_ok he h
    exact (PsVideoFullViewVC.viewDidAppear_confined (w.fullScope k)).confined.layerCount
  | mainBlock =>
    obtain ⟨_, _, _, rfl⟩ := mainBlock_ok he h
    rfl
  | background =>
    cases h
    refine background_rule (P := fun w' => w'.env.layerCount = w.env.layerCount) rfl ?_
    intro w' k _ _ _ hi
    exact (PsVideoFullViewVC.pauseAction_confined (w'.fullScope k)).confined.layerCount.trans hi
  | timer t =>
    cases h
    unfold World.timer
    split
    · exact PsVideoView.timerAction_layerCount _
    · exact PsVideoFullViewVC.timerAction_layerCount _
    · rfl
  | tick t =>
    cases tick_ok h with
    | refl => rfl
    | view hr => exact PsVideoView.timeObserverCallback_layerCount hr
    | vc _ hr => exact PsVideoFullViewVC.timeObserverCallback_layerCount hr
  | _ => cases h; rfl

theorem Env.layerMade_congr {env env' : Env} (h : env'.layerCount = env.layerCount) (l : Handle) :
    env'.LayerMade l ↔ env.LayerMade l := by
  rw [LayerMade, LayerMade, h]

theorem Env.home_congr {env env' : Env} (h : env'.layerCount = env.layerCount) (l : Handle) :
    env'.home l = env.home l := by
  simp only [home, layerMade_congr h]

theorem World.place_congr (hs : w'.screen.vc = w.screen.vc)
    (hk : ∀ k, (w'.vcs k).playerLayer = (w.vcs k).playerLayer)
    (hc : w'.env.layerCount = w.env.layerCount) (l : Handle) : w'.place l = w.place l := by
  have hb : w'.borrowed = w.borrowed := by simp only [borrowed, hs, hk]
  rw [place, place, hb, hs, Env.home_congr hc]

/-- Without a session a layer is in the view that made it. -/
theorem World.place_inline (h : w.screen.vc = none) (l : Handle) : w.place l = w.env.home l := by
  simp [place, borrowed, h]

/-- In a session of `k` one of them is in `k`. -/
theorem World.place_session {k : VcId} {layer : Handle} (h : w.screen.vc = some k)
    (hl : (w.vcs k).playerLayer = some layer) (l : Handle) :
    w.place l = if l = layer then some (.vc k) else w.env.home l := by
  simp [place, borrowed, h, hl, eq_comm]

/-- A block makes the next layer of its view. -/
theorem Env.layerMade_makeLayer (env : Env) (o : Owner) (p : Option PlayerId) (l : Handle) :
    (env.makeLayer o p).LayerMade l ↔ env.LayerMade l ∨ l = env.nextLayer o := by
  obtain ⟨o', n⟩ := l
  by_cases ho : o' = o
  · subst ho
    simp only [LayerMade, makeLayer, nextLayer, Function.update_self, Handle.mk.injEq, true_and]
    omega
  · simp [LayerMade, makeLayer, nextLayer, ho]

namespace Ledger

theorem launch : Ledger [] .launch where
  count _ := rfl
  others _ _ := rfl
  tree l := by rw [World.place_inline rfl]; rfl
  view v l hl := by cases hl
  vc k l hl := by cases hl

/-- The layer of a session has been made. -/
theorem borrowed (hi : Ledger es w) {l : Handle} (h : w.borrowed = some l) : w.env.LayerMade l := by
  obtain ⟨k, _, hl⟩ := Option.bind_eq_some_iff.mp h
  exact (hi.vc k l hl).2

/-- An event that makes no layer has only to agree with the ledger on the tree and the fields. -/
theorem moved (hi : Ledger es w) (he : ∀ v, e ≠ .delayedBlock v)
    (hc : w'.env.layerCount = w.env.layerCount) (htree : ∀ l, w'.env.superlayer l = w'.place l)
    (hv : ∀ v l, (w'.views v).playerLayer = some l → l.owner = .view v ∧ w.env.LayerMade l)
    (hk : ∀ k l, (w'.vcs k).playerLayer = some l →
      l.owner = .view (w'.vcs k).delegate ∧ w.env.LayerMade l) : Ledger (es ++ [e]) w' where
  count v := by simp [hc, hi.count, he v]
  others o ho := by rw [hc]; exact hi.others o ho
  tree := htree
  view v l hl := by rw [Env.layerMade_congr hc]; exact hv v l hl
  vc k l hl := by rw [Env.layerMade_congr hc]; exact hk k l hl

theorem same (hi : Ledger es w) (he : ∀ v, e ≠ .delayedBlock v)
    (hc : w'.env.layerCount = w.env.layerCount) (hsup : w'.env.superlayer = w.env.superlayer)
    (hs : w'.screen.vc = w.screen.vc)
    (hv : ∀ v l, (w'.views v).playerLayer = some l → (w.views v).playerLayer = some l)
    (hk : ∀ k, (w'.vcs k).playerLayer = (w.vcs k).playerLayer)
    (hd : ∀ k, (w'.vcs k).delegate = (w.vcs k).delegate) : Ledger (es ++ [e]) w' :=
  hi.moved he hc (fun l => by rw [hsup, hi.tree, World.place_congr hs hk hc])
    (fun v l hl => hi.view v l (hv v l hl)) fun k l hl => by rw [hd]; exact hi.vc k l (hk k ▸ hl)

theorem fullScreen {v : ViewId} (hi : Ledger es w) (hin : w.screen = .inline)
    (h : w.step accepts (.tap v .fullScreen) = .ok w') : Ledger (es ++ [.tap v .fullScreen]) w' := by
  obtain ⟨s, layer, hs, hf, hl, rfl⟩ := fullScreen_ok h
  have hc : s.env.layerCount = w.env.layerCount := (Confined.removeTimeObserver hs).2.1
  have hsup : s.env.superlayer = w.env.superlayer := hf.superlayer
  have hself : s.self.playerLayer = (w.views v).playerLayer := hf.playerLayer
  refine hi.moved (by simp) hc (fun l => ?_) (fun u l hu => hi.view u l ?_) fun k l hk => ?_
  · -- the layer goes to the new controller, and the others stay in their views
    rw [World.place_session (k := w.nextVc v) rfl (by simpa [presentedVC, World.scope] using hl)]
    have htree := hi.tree l
    rw [World.place_inline (by rw [hin]; rfl), ← hsup, ← Env.home_congr hc] at htree
    by_cases hlay : l = layer
    · subst hlay
      simp [World.put, Env.addSublayer]
    · rw [if_neg hlay]
      exact (Function.update_of_ne hlay _ _).trans htree
  · by_cases huv : u = v
    · subst huv
      rw [← hself]
      simpa [World.put] using hu
    · simpa [World.put, Function.update_of_ne huv] using hu
  · by_cases hkn : k = w.nextVc v
    · subst hkn
      simp only [Function.update_self] at hk ⊢
      exact hi.view v l hk
    · simp only [Function.update_of_ne hkn] at hk ⊢
      exact hi.vc k l hk

theorem viewDismissed (hi : Ledger es w) (he : w.enabled .viewDismissed)
    (h : w.step accepts .viewDismissed = .ok w') : Ledger (es ++ [.viewDismissed]) w' := by
  obtain ⟨k, p, layer, hk, _, hl, rfl⟩ := viewDismissed_ok he h
  obtain ⟨hown, hlm⟩ := hi.vc k layer hl
  have hf := PsVideoView.viewDismissed_frame p layer
    (w.vcs k).controlsView.videoQualityButton.title
    (w.vcs k).controlsView.settingsButton.title (w.scope (w.vcs k).delegate)
  have hcon := PsVideoView.viewDismissed_confined p layer
    (w.vcs k).controlsView.videoQualityButton.title
    (w.vcs k).controlsView.settingsButton.title (w.scope (w.vcs k).delegate)
  generalize PsVideoView.viewDismissed p layer _ _ (w.scope (w.vcs k).delegate) = s at hf hcon ⊢
  have hc : s.env.layerCount = w.env.layerCount := hcon.layerCount
  have hsup : s.env.superlayer =
      Function.update w.env.superlayer layer (some (.view (w.vcs k).delegate)) := hf.superlayer
  have hself : s.self.playerLayer = some layer := hf.playerLayer
  refine hi.moved (by simp) hc (fun l => ?_) (fun u l hu => ?_) fun j l hj => hi.vc j l hj
  · -- the layer is back in its view, and the others have not moved
    rw [World.place_inline rfl]
    refine (congrFun hsup l).trans (Eq.trans ?_ (Env.home_congr hc l).symm)
    by_cases hlay : l = layer
    · subst hlay
      rw [Function.update_self, Env.home, if_pos hlm, hown]
    · rw [Function.update_of_ne hlay, hi.tree, World.place_session hk hl, if_neg hlay]
  · by_cases huv : u = (w.vcs k).delegate
    · subst huv
      have hu : s.self.playerLayer = some l := by simpa [World.put] using hu
      rw [hself] at hu
      cases hu
      exact ⟨hown, hlm⟩
    · exact hi.view u l (by simpa [World.put, Function.update_of_ne huv] using hu)

/-- A block adds its layer to the view. -/
theorem block {v : ViewId} (hi : Ledger es w) : Ledger (es ++ [.delayedBlock v])
    ({ w with delayed := w.delayed.tail }.put v (PsVideoView.playBlock (w.scope v))) := by
  let l₀ : Handle := w.env.nextLayer (.view v)
  have hf := PsVideoView.playBlock_frame (w.scope v)
  have hcon := PsVideoView.playAction_confined (PsVideoView.initVideoPlayer (w.scope v))
  have hc : (PsVideoView.playBlock (w.scope v)).env.layerCount =
      (w.env.makeLayer (.view v) w.env.player).layerCount := hcon.layerCount
  have hsup : (PsVideoView.playBlock (w.scope v)).env.superlayer =
      Function.update w.env.superlayer l₀ (some (.view v)) := hf.superlayer
  have hself : (PsVideoView.playBlock (w.scope v)).self.playerLayer = some l₀ := hf.playerLayer
  generalize PsVideoView.playBlock (w.scope v) = s at hc hsup hself ⊢
  have hnew : ¬ w.env.LayerMade l₀ := Nat.lt_irrefl _
  have hmade : ∀ l, s.env.LayerMade l ↔ w.env.LayerMade l ∨ l = l₀ := fun l =>
    (Env.layerMade_congr hc l).trans (Env.layerMade_makeLayer _ _ _ l)
  have hb : (World.put { w with delayed := w.delayed.tail } v s).borrowed = w.borrowed := rfl
  refine ⟨fun u => ?_, fun o ho => ?_, fun l => ?_, fun u l hu => ?_, fun k l hk => ?_⟩
  · refine (congrFun hc (.view u)).trans ?_
    by_cases hu : u = v
    · subst hu
      simp [Env.makeLayer, hi.count]
    · simp [Env.makeLayer, hi.count, hu, Ne.symm hu, Function.update_of_ne]
  · refine (congrFun hc o).trans ?_
    simp [Env.makeLayer, hi.others o ho, Function.update_of_ne (ho v)]
  · refine (congrFun hsup l).trans ?_
    by_cases hl : l = l₀
    · -- the new layer is not the one in the session
      subst hl
      have hne : w.borrowed ≠ some l₀ := fun h => hnew (hi.borrowed h)
      rw [Function.update_self, World.place, hb, if_neg hne]
      exact (if_pos ((hmade l₀).mpr (.inr rfl))).symm
    · have hhome : s.env.home l = w.env.home l := by simp only [Env.home, hmade, hl, or_false]
      rw [Function.update_of_ne hl, hi.tree, World.place, World.place, hb]
      exact congrArg (fun o => if w.borrowed = some l then _ else o) hhome.symm
  · refine And.imp_right (fun h => (hmade l).mpr h) ?_
    by_cases huv : u = v
    · subst huv
      have hu : s.self.playerLayer = some l := by simpa [World.put] using hu
      obtain rfl : l₀ = l := Option.some.inj (hself.symm.trans hu)
      exact ⟨rfl, .inr rfl⟩
    · exact (hi.view u l (by simpa [World.put, Function.update_of_ne huv] using hu)).imp_right .inl
  · exact (hi.vc k l hk).imp_right fun h => (hmade l).mpr (.inl h)

theorem step (hi : Ledger es w) (he : w.enabled e) (h : w.step accepts e = .ok w') :
    Ledger (es ++ [e]) w' := by
  cases hq : e.quiet with
  | true =>
    have q := step_quiet hq he h
    exact hi.same (by rintro v rfl; cases hq) (quiet_layerCount hq he h) q.superlayer q.screen
      (fun v l hl => (q.viewLayer v).symm.trans hl) q.vcLayer q.vcDelegate
  | false =>
    cases e with
    | mount =>
      cases h
      refine hi.same (by simp) rfl rfl rfl (fun v l hl => ?_) (fun _ => rfl) fun _ => rfl
      by_cases hv : v = w.nextView
      · subst hv; simp [PsVideoView.init] at hl
      · simpa [Function.update_of_ne hv] using hl
    | unmount v =>
      cases h
      exact hi.same (by simp) rfl rfl rfl (fun _ _ => id) (fun _ => rfl) fun _ => rfl
    | property v p =>
      cases p with
      | url u =>
        obtain ⟨_, rfl⟩ := url_ok h
        exact hi.same (by simp) rfl rfl rfl (fun _ _ => id) (fun _ => rfl) fun _ => rfl
      | _ => cases hq
    | tap v c =>
      cases c with
      | fullScreen => exact hi.fullScreen he.2.1 h
      | _ => cases hq
    | viewDismissed => exact hi.viewDismissed he h
    | delayedBlock v => cases h; exact hi.block
    | _ => cases hq

/-- A layer keeps the player it was made for. -/
theorem bound_step {l : Handle} (hl : w.env.LayerMade l) (he : w.enabled e)
    (h : w.step accepts e = .ok w') :
    w'.env.LayerMade l ∧ w'.env.layerPlayer l = w.env.layerPlayer l := by
  have keep : w'.env.layerCount = w.env.layerCount → w'.env.layerPlayer = w.env.layerPlayer →
      w'.env.LayerMade l ∧ w'.env.layerPlayer l = w.env.layerPlayer l := fun hc hp =>
    ⟨(Env.layerMade_congr hc l).mpr hl, by rw [hp]⟩
  cases hq : e.quiet with
  | true => exact keep (quiet_layerCount hq he h) (step_quiet hq he h).layerPlayer
  | false =>
    cases e with
    | mount | unmount v => cases h; exact keep rfl rfl
    | property v p =>
      cases p with
      | url u => obtain ⟨_, rfl⟩ := url_ok h; exact keep rfl rfl
      | _ => cases hq
    | tap v c =>
      cases c with
      | fullScreen =>
        obtain ⟨s, layer, hs, hf, _, rfl⟩ := fullScreen_ok h
        exact keep (Confined.removeTimeObserver hs).2.1 hf.layerPlayer
      | _ => cases hq
    | viewDismissed =>
      obtain ⟨k, p, layer, _, _, _, rfl⟩ := viewDismissed_ok he h
      exact keep (PsVideoView.viewDismissed_confined p layer _ _ _).layerCount
        (PsVideoView.viewDismissed_frame p layer _ _ _).layerPlayer
    | delayedBlock v =>
      cases h
      have hne : l ≠ w.env.nextLayer (.view v) := by rintro rfl; exact Nat.lt_irrefl _ hl
      have hc := (PsVideoView.playAction_confined (PsVideoView.initVideoPlayer (w.scope v))).layerCount
      have hp := (PsVideoView.playBlock_frame (w.scope v)).layerPlayer
      refine ⟨(Env.layerMade_congr hc l).mpr ?_, (congrFun hp l).trans ?_⟩
      · exact (Env.layerMade_makeLayer _ _ w.env.player l).mpr (.inl hl)
      · exact Function.update_of_ne hne _ _
    | _ => cases hq

/-- What a block's layer is bound to. -/
theorem bound_block {v : ViewId} (h : w.step accepts (.delayedBlock v) = .ok w') :
    w'.env.LayerMade (w.env.nextLayer (.view v)) ∧
      w'.env.layerPlayer (w.env.nextLayer (.view v)) = w.env.player := by
  cases h
  have hc := (PsVideoView.playAction_confined (PsVideoView.initVideoPlayer (w.scope v))).layerCount
  have hp := (PsVideoView.playBlock_frame (w.scope v)).layerPlayer
  refine ⟨(Env.layerMade_congr hc _).mpr ?_, (congrFun hp _).trans ?_⟩
  · exact (Env.layerMade_makeLayer _ _ w.env.player _).mpr (.inr rfl)
  · exact Function.update_self _ _ _

end Ledger

theorem ledger_steps (h : Steps (app accepts) .launch es w) : Ledger es w :=
  h.traced (fun _ _ _ _ hi he hs => hi.step he hs) [] .launch

/-- A view that has run a block has been made, and it has a layer in its field from then on. -/
structure Lined (es : List Event) (w : World) : Prop extends Born w where
  ran : ∀ v, .delayedBlock v ∈ es → v < w.nextView
  layer : ∀ v, (w.views v).playerLayer = none ↔ .delayedBlock v ∉ es

namespace Lined

theorem launch : Lined [] .launch where
  mounted v hv := by cases hv
  delayed v hv := by cases hv
  delegate k hk := absurd hk (Nat.not_lt_zero _)
  opened k hk := by cases hk
  ran v hv := by cases hv
  layer v := iff_of_true rfl List.not_mem_nil

/-- An event that is no block keeps the layers in the fields, or gives one to a view that has one. -/
theorem keep (hi : Lined es w) (hne : ∀ v, e ≠ .delayedBlock v) (he : w.enabled e)
    (h : w.step accepts e = .ok w')
    (hl : ∀ v, (w'.views v).playerLayer = none ↔ (w.views v).playerLayer = none) :
    Lined (es ++ [e]) w' := by
  have hmem : ∀ v, .delayedBlock v ∈ es ++ [e] ↔ .delayedBlock v ∈ es := fun v => by
    simp [Ne.symm (hne v)]
  refine ⟨hi.toBorn.step he h, fun v hv => ?_, fun v => ?_⟩
  · exact Nat.lt_of_lt_of_le (hi.ran v ((hmem v).mp hv)) (step_grows he h).1
  · rw [hl, hi.layer, hmem]

theorem step (hi : Lined es w) (hl : Ledger es w) (he : w.enabled e)
    (h : w.step accepts e = .ok w') : Lined (es ++ [e]) w' := by
  cases hq : e.quiet with
  | true =>
    have q := step_quiet hq he h
    exact hi.keep (by rintro v rfl; cases hq) he h fun v => by rw [q.viewLayer]
  | false =>
    cases e with
    | mount =>
      refine hi.keep (by simp) he h fun v => ?_
      cases h
      by_cases hv : v = w.nextView
      · subst hv
        refine iff_of_true (by simp [PsVideoView.init]) ((hi.layer _).mpr fun hran => ?_)
        exact Nat.lt_irrefl _ (hi.ran _ hran)
      · simp [Function.update_of_ne hv]
    | unmount v => refine hi.keep (by simp) he h fun v => ?_; cases h; exact .rfl
    | property v p =>
      cases p with
      | url u =>
        refine hi.keep (by simp) he h fun v => ?_
        obtain ⟨_, rfl⟩ := url_ok h
        exact .rfl
      | _ => cases hq
    | tap v c =>
      cases c with
      | fullScreen =>
        refine hi.keep (by simp) he h fun u => ?_
        obtain ⟨s, layer, _, hf, _, rfl⟩ := fullScreen_ok h
        have hself : s.self.playerLayer = (w.views v).playerLayer := hf.playerLayer
        by_cases hu : u = v
        · subst hu; simp [World.put, hself]
        · simp [World.put, Function.update_of_ne hu]
      | _ => cases hq
    | viewDismissed =>
      refine hi.keep (by simp) he h fun u => ?_
      obtain ⟨k, p, layer, _, _, hk, rfl⟩ := viewDismissed_ok he h
      obtain ⟨hown, hmade⟩ := hl.vc k layer hk
      have hf := PsVideoView.viewDismissed_frame p layer
        (w.vcs k).controlsView.videoQualityButton.title
        (w.vcs k).controlsView.settingsButton.title (w.scope (w.vcs k).delegate)
      generalize PsVideoView.viewDismissed p layer _ _ (w.scope (w.vcs k).delegate) = s at hf ⊢
      have hself : s.self.playerLayer = some layer := hf.playerLayer
      by_cases hu : u = (w.vcs k).delegate
      · -- the layer comes back to the view whose block has made it
        subst hu
        rw [Env.LayerMade, hown, hl.count] at hmade
        have hran := List.count_pos_iff.mp (Nat.zero_lt_of_lt hmade)
        refine iff_of_false (by simp [World.put, hself]) fun hnone => ?_
        exact (hi.layer _).mp hnone hran
      · simp [World.put, Function.update_of_ne hu]
    | delayedBlock v =>
      have hb := hi.toBorn.step he h
      cases h
      have hf := PsVideoView.playBlock_frame (w.scope v)
      have hself : (PsVideoView.playBlock (w.scope v)).self.playerLayer =
          some (w.env.nextLayer (.view v)) := hf.playerLayer
      refine ⟨hb, fun u hu => ?_, fun u => ?_⟩
      · rcases List.mem_append.mp hu with hu | hu
        · exact hi.ran u hu
        · cases List.mem_singleton.mp hu
          exact hi.delayed v (List.mem_of_mem_head? he)
      · by_cases hu : u = v
        · subst hu
          exact iff_of_false (by simp [World.put, hself]) (by simp)
        · simp [World.put, hi.layer, hu]
    | _ => cases hq

end Lined

theorem lined_steps (h : Steps (app accepts) .launch es w) : Lined es w :=
  (h.traced (I := fun es w => Lined es w ∧ Ledger es w)
    (fun _ _ _ _ hi he hs => ⟨hi.1.step hi.2 he hs, hi.2.step he hs⟩) []
    ⟨.launch, .launch⟩).1

/-- **No layer is lost.** After every run the layers in a view are all that its delayed blocks have
made, one each, but for the one that the session on the screen has borrowed; a controller has a layer
only while it is on the screen, the one it was given; and every layer is bound to the player that was
current when its block ran. -/
theorem layers_accounted (h : Steps (app accepts) .launch es w) :
    (∀ v l, w.env.superlayer l = some (.view v) ↔
      l.owner = .view v ∧ l.serial < es.count (.delayedBlock v) ∧ w.borrowed ≠ some l) ∧
    (∀ k l, w.env.superlayer l = some (.vc k) ↔
      w.screen.vc = some k ∧ (w.vcs k).playerLayer = some l) ∧
    ∀ pre v post, es = pre ++ .delayedBlock v :: post → ∃ w₀, Steps (app accepts) .launch pre w₀ ∧
      w.env.layerPlayer ⟨.view v, pre.count (.delayedBlock v)⟩ = w₀.env.player := by
  have hi := ledger_steps h
  -- a layer's owner is a view if it has been made
  have howner : ∀ l, w.env.LayerMade l → ∃ v, l.owner = .view v := fun l hl => by
    by_contra hno
    have h0 := hi.others l.owner fun v hv => hno ⟨v, hv⟩
    rw [Env.LayerMade, h0] at hl
    exact Nat.not_lt_zero _ hl
  refine ⟨fun v l => ?_, fun k l => ?_, fun pre v post hes => ?_⟩
  · rw [hi.tree, World.place]
    by_cases hb : w.borrowed = some l
    · simp [hb]
    · rw [if_neg hb, Env.home]
      by_cases hl : w.env.LayerMade l
      · rw [if_pos hl, Option.some.injEq]
        refine ⟨fun ho => ⟨ho, ?_, hb⟩, And.left⟩
        rw [Env.LayerMade, ho, hi.count] at hl
        exact hl
      · rw [if_neg hl]
        refine iff_of_false (by simp) ?_
        rintro ⟨ho, hn, _⟩
        rw [← hi.count, ← ho] at hn
        exact hl hn
  · rw [hi.tree, World.place]
    by_cases hb : w.borrowed = some l
    · obtain ⟨j, hj, hl⟩ := Option.bind_eq_some_iff.mp hb
      rw [if_pos hb, hj]
      refine ⟨fun hk => ?_, fun hk => by rw [hk.1]; rfl⟩
      cases hk
      exact ⟨rfl, hl⟩
    · rw [if_neg hb]
      refine iff_of_false (fun hhome => ?_) fun hk => hb (Option.bind_eq_some_iff.mpr ⟨k, hk⟩)
      unfold Env.home at hhome
      split at hhome
      · rename_i hl
        obtain ⟨v, hv⟩ := howner l hl
        rw [hv] at hhome; cases hhome
      · cases hhome
  · subst hes
    obtain ⟨w₀, h₀, h₁⟩ := h.split
    refine ⟨w₀, h₀, ?_⟩
    cases h₁ with
    | cons _ hs hr =>
      have hs : w₀.step accepts (.delayedBlock v) = .ok _ := hs
      have hnext : w₀.env.nextLayer (.view v) = ⟨.view v, pre.count (.delayedBlock v)⟩ := by
        rw [Env.nextLayer, (ledger_steps h₀).count]
      obtain ⟨hl, hp⟩ := Ledger.bound_block hs
      have hend := hr.invariant (I := fun s => s.env.LayerMade (w₀.env.nextLayer (.view v)) ∧
        s.env.layerPlayer (w₀.env.nextLayer (.view v)) = w₀.env.player)
        (fun s e s' hi he hs => ?_) ⟨hl, hp⟩
      · rw [← hnext]; exact hend.2
      · obtain ⟨hl', hp'⟩ := Ledger.bound_step hi.1 he hs
        exact ⟨hl', hp'.trans hi.2⟩

/-- Two blocks, the url update between them, and a session: the layer in the view shows no player, the
other is in the controller. -/
theorem layers_accounted_session : ∃ w, Steps (app fun _ => true) .launch
    [.mount, .property 0 (.play true), .property 0 (.play true), .delayedBlock 0,
      .property 0 (.url "a"), .delayedBlock 0, .tap 0 .fullScreen] w ∧
    w.env.superlayer ⟨.view 0, 0⟩ = some (.view 0) ∧
    w.env.superlayer ⟨.view 0, 1⟩ = some (.vc ⟨0, 0⟩) := by
  obtain ⟨w, hw, hobs⟩ := Steps.of_exec_map (app fun _ => true) .launch
    [.mount, .property 0 (.play true), .property 0 (.play true), .delayedBlock 0,
      .property 0 (.url "a"), .delayedBlock 0, .tap 0 .fullScreen]
    (fun w => (w.screen.vc, (w.vcs ⟨0, 0⟩).playerLayer))
    (a := (some ⟨0, 0⟩, some ⟨.view 0, 1⟩)) (by decide +kernel)
  obtain ⟨hk, hl⟩ := Prod.mk.inj hobs
  obtain ⟨hv, hvc, _⟩ := layers_accounted hw
  refine ⟨w, hw, (hv 0 ⟨.view 0, 0⟩).mpr ⟨rfl, by decide, ?_⟩, (hvc ⟨0, 0⟩ _).mpr ⟨hk, hl⟩⟩
  rw [World.borrowed, hk]
  simp [hl]

end PsVideo
