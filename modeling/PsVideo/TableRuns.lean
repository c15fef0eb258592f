import PsVideo.Retention
import PsVideo.Tables

/-!
# PsVideo.TableRuns

The tables in every state that a run reaches. `displayed` is the app together with the cells each
table has on display: they are made when a menu is opened, and stay as they are until the next time.

* `speed_values`, `rate_values`: the speeds and the rates that are ever reached, exactly.
* `table_shows`: a visible table is up to date, so the row that is tapped is the one that is chosen.
-/

namespace PsVideo

open Machine

/-- The controls of `o`. -/
def World.controls (w : World) : Owner → PsVideoControlsView
  | .view v => (w.views v).controlsView
  | .vc k => (w.vcs k).controlsView
  | .manager => {}

/-- The object whose menu the event opens. -/
def Event.reloads (w : World) : Event → Option Owner
  | .tap v c => if c.reloads (w.views v).controlsView then some (.view v) else none
  | .fullTap c =>
    match w.screen.vc with
    | some k => if c.reloads (w.vcs k).controlsView then some (.vc k) else none
    | none => none
  | _ => none

/-- The app and the cells on display. No cell is made before a menu is opened. -/
structure Displayed where
  world : World
  cells : Owner → List Cell

def Displayed.launch : Displayed where
  world := .launch
  cells _ := []

/-- The cells are made after the handler has run. -/
def Displayed.step (accepts : String → Bool) (d : Displayed) (e : Event) : Except Trap Displayed :=
  match d.world.step accepts e with
  | .error t => .error t
  | .ok w => .ok
    { world := w
      cells := match e.reloads d.world with
        | some o => Function.update d.cells o (w.controls o).cells
        | none => d.cells }

def displayed (accepts : String → Bool) : Machine Displayed Event Trap where
  enabled d e := d.world.enabled e
  step := Displayed.step accepts

instance (accepts : String → Bool) (d : Displayed) (e : Event) :
    Decidable ((displayed accepts).enabled d e) := inferInstanceAs (Decidable (d.world.enabled e))

/-! ## The invariant -/

structure Stocked (w : World) : Prop where
  opened : Opened w
  views : ∀ v, (w.views v).Tabled
  vcs : ∀ k, w.Made k → (w.vcs k).Tabled ∧ (w.vcs k).QualityTitled
  rated : w.env.Rated

theorem tabled_init : PsVideoView.init.Tabled := by
  constructor <;> simp [PsVideoView.init, speeds, videoSpeedArray, videoQualityArray]

theorem Stocked.launch : Stocked .launch where
  opened k hk := by cases hk
  views _ := tabled_init
  vcs k hk := absurd hk (Nat.not_lt_zero _)
  rated _ := by simp [World.launch, Env.launch, rates]

/-- What one event does to the choices and the tables. -/
structure Passes (e : Event) (w w' : World) : Prop where
  views : ∀ v, (w'.views v).Tabled
  vcs : ∀ k, w'.Made k → (w'.vcs k).Tabled ∧ (w'.vcs k).QualityTitled
  rated : w'.env.Rated
  table : ∀ o, e.reloads w = some o ∨ TableKept (w.controls o) (w'.controls o)

theorem TableKept.refl (c : PsVideoControlsView) : TableKept c c := .inr ⟨rfl, rfl⟩

theorem TableKept.trans {c c' c'' : PsVideoControlsView} (h₁ : TableKept c c')
    (h₂ : TableKept c' c'') : TableKept c c'' := by
  obtain h | ⟨hc, hh⟩ := h₂
  · exact .inl h
  · exact h₁.imp (hh.trans ·) fun ⟨hc', hh'⟩ => ⟨hc.trans hc', hh.trans hh'⟩

namespace Passes

variable {accepts : String → Bool} {e : Event} {w w' : World}

theorem same (hi : Stocked w) (hv : w'.views = w.views) (hk : w'.vcs = w.vcs)
    (hc : w'.vcCount = w.vcCount) (hr : w'.env.Rated) : Passes e w w' where
  views v := by rw [hv]; exact hi.views v
  vcs k hm := by
    rw [World.Made, hc] at hm
    rw [hk]; exact hi.vcs k hm
  rated := hr
  table o := by
    refine .inr ?_
    cases o with
    | view v => simp only [World.controls, hv]; exact .refl _
    | vc k => simp only [World.controls, hk]; exact .refl _
    | manager => exact .refl _

theorem put (hi : Stocked w) {v : ViewId} {s : Scope} (ht : s.self.Tabled) (hr : s.env.Rated)
    (hc : e.reloads w = some (.view v) ∨ TableKept (w.views v).controlsView s.self.controlsView) :
    Passes e w (w.put v s) := by
  refine ⟨fun u => ?_, hi.vcs, hr, fun o => ?_⟩
  · by_cases hu : u = v
    · subst hu; simpa [World.put] using ht
    · simpa [World.put, Function.update_of_ne hu] using hi.views u
  · by_cases ho : o = .view v
    · subst ho
      simpa [World.controls, World.put] using hc
    · refine .inr ?_
      cases o with
      | view u =>
        have hu : u ≠ v := fun hu => ho (by rw [hu])
        simpa [World.controls, World.put, Function.update_of_ne hu] using TableKept.refl _
      | vc k | manager => exact .refl _

/-- A handler of a view. -/
theorem handle (hi : Stocked w) {v : ViewId} {s : Scope} (hp : Picks (w.scope v) s ∨
    e.reloads w = some (.view v) ∧ Known (w.scope v) s) : Passes e w (w.put v s) := by
  have hk : Known (w.scope v) s := hp.elim (·.toKnown) (·.2)
  exact put hi (hk.tabled (hi.views v)) (hk.rated (hi.views v) hi.rated)
    (hp.symm.imp (·.1) (·.table))

theorem fullPut (hi : Stocked w) {k : VcId} {s : FullScope}
    (hp : Picks (w.fullScope k).scope s.scope ∨
      e.reloads w = some (.vc k) ∧ Known (w.fullScope k).scope s.scope)
    (hr : s.env.Rated) : Passes e w (w.fullPut k s) := by
  have hk : Known (w.fullScope k).scope s.scope := hp.elim (·.toKnown) (·.2)
  refine ⟨hi.views, fun j hm => ?_, hr, fun o => ?_⟩
  · obtain ⟨ht, hq⟩ := hi.vcs j hm
    by_cases hj : j = k
    · subst hj
      have hs : s.self.Tabled ∧ s.self.QualityTitled := ⟨hk.tabled ht, hk.title ht hq⟩
      simpa [World.fullPut] using hs
    · simpa [World.fullPut, Function.update_of_ne hj] using And.intro ht hq
  · by_cases ho : o = .vc k
    · subst ho
      refine hp.symm.imp (·.1) fun hp => ?_
      have ht : TableKept (w.vcs k).controlsView s.self.controlsView := hp.table
      simpa [World.controls, World.fullPut] using ht
    · refine .inr ?_
      cases o with
      | vc j =>
        have hj : j ≠ k := fun hj => ho (by rw [hj])
        simpa [World.controls, World.fullPut, Function.update_of_ne hj] using TableKept.refl _
      | view u | manager => exact .refl _

/-- A handler of the controller on the screen. -/
theorem fullHandle (hi : Stocked w) {k : VcId} {s : FullScope} (hk : w.Made k)
    (hp : Picks (w.fullScope k).scope s.scope ∨
      e.reloads w = some (.vc k) ∧ Known (w.fullScope k).scope s.scope) :
    Passes e w (w.fullPut k s) :=
  fullPut hi hp ((hp.elim (·.toKnown) (·.2)).rated (hi.vcs k hk).1 hi.rated)

theorem background (hi : Stocked w) :
    Passes .background w (w.env.registrations.foldl World.notifyBackground w) := by
  obtain ⟨hs, ht⟩ := background_rule (P := fun w' => Stocked w' ∧
    ∀ o, TableKept (w.controls o) (w'.controls o)) ⟨hi, fun _ => .refl _⟩ (by
      rintro w' k _ _ _ ⟨hs, ht⟩
      have hpause : Picks (w'.fullScope k).scope
          (PsVideoFullViewVC.appMovedToBackground (w'.fullScope k)).scope :=
        PsVideoFullViewVC.on_picks rfl (.pauseAction _)
      have hr : (PsVideoFullViewVC.appMovedToBackground (w'.fullScope k)).env.Rated :=
        hs.rated.call .pause (fun _ _ => by simp [PlayerOp.apply, rates]) _ _
      have h1 := fullPut (e := .background) hs (.inl hpause) hr
      refine ⟨⟨hs.opened, h1.views, h1.vcs, h1.rated⟩, fun o => (ht o).trans ?_⟩
      exact (h1.table o).resolve_left fun hn => by cases hn)
  exact ⟨hs.views, hs.vcs, hs.rated, fun o => .inr (ht o)⟩

/-- The full-screen button gives the new controller the choices of the view. -/
theorem fullScreen (hi : Stocked w) {v : ViewId} (h : w.step accepts (.tap v .fullScreen) = .ok w') :
    Passes (.tap v .fullScreen) w w' := by
  obtain ⟨s, layer, hs, _, _, rfl⟩ := fullScreen_ok h
  have hp : Picks (w.scope v) { s with
      env := (s.env.addObserver (.vc (w.nextVc v)) .didEnterBackground).addSublayer
        (.vc (w.nextVc v)) layer
      self := { s.self with timeObserver := none } } :=
    (Picks.removeTimeObserver hs).trans (.same rfl rfl rfl id)
  have hput := handle (e := .tap v .fullScreen) hi (.inl hp)
  have ht := hi.views v
  refine ⟨hput.views, fun k hk => ?_, hput.rated, fun o => ?_⟩
  · by_cases hn : k = w.nextVc v
    · subst hn
      simp only [Function.update_self]
      refine ⟨⟨ht.playerSpeed, ht.playerQuality, ?_, ?_, ?_⟩, ?_⟩ <;>
        simp [presentedVC, speeds, videoSpeedArray, videoQualityArray, Controller.QualityTitled]
    · have hk := ((World.made_of_count (w := w) (v := v) rfl k).mp hk).resolve_right hn
      simp only [Function.update_of_ne hn]
      exact hi.vcs k hk
  · by_cases ho : o = .vc (w.nextVc v)
    · subst ho
      refine .inr (.inl ?_)
      simp [World.controls, presentedVC]
    · refine (hput.table o).imp_right fun h => ?_
      cases o with
      | vc k =>
        have hk : k ≠ w.nextVc v := fun hk => ho (by rw [hk])
        simpa [World.controls, World.put, Function.update_of_ne hk] using h
      | view u | manager => exact h

theorem property (hi : Stocked w) {v : ViewId} {p : Property}
    (h : w.step accepts (.property v p) = .ok w') : Passes (.property v p) w w' := by
  cases p with
  | url u =>
    obtain ⟨_, rfl⟩ := url_ok h
    refine same hi rfl rfl rfl fun q => ?_
    by_cases hq : q = w.env.nextPlayer v
    · subst hq; simp [Env.makePlayer, AVPlayer.ofURL, rates]
    · simpa [Env.makePlayer, Function.update_of_ne hq] using hi.rated q
  | paused b =>
    cases b with
    | true => cases h; exact handle hi (.inl (.pauseAction _))
    | false =>
      cases h
      refine handle hi (.inl (Picks.trans (.call _ .play fun _ _ => ?_)
        (.selectPlay _ true)))
      simp [PlayerOp.apply, rates]
  | play b =>
    cases b with
    | true => cases h; exact same hi rfl rfl rfl hi.rated
    | false => cases h; exact handle hi (.inl (.pauseAction _))
  | stop b => cases h; exact handle hi (.inl (.stopAction _))
  | controls b => cases h; exact handle hi (.inl (.controls _ (·.hide !b) fun _ => rfl))
  | maxBitRate d =>
    cases h
    -- the title may be any text, but that of a view is not handed over
    have ht : (w.views v).Tabled := hi.views v
    exact put hi { ht with } (hi.rated.call (.setPeakBitRate _) (fun _ => id) _ _)
      (.inr (.inr ⟨rfl, rfl⟩))

/-- **One event.** -/
theorem step (hi : Stocked w) (he : w.enabled e) (h : w.step accepts e = .ok w') :
    Passes e w w' := by
  cases e with
  | mount =>
    cases h
    refine ⟨fun v => ?_, hi.vcs, hi.rated, fun o => .inr ?_⟩
    · by_cases hv : v = w.nextView
      · subst hv
        have ht : (PsVideoView.init.setup (.view w.nextView)).Tabled := { tabled_init with }
        simpa using ht
      · simpa [Function.update_of_ne hv] using hi.views v
    · cases o with
      | view v =>
        by_cases hv : v = w.nextView
        · subst hv
          exact .inl (by simp [World.controls, PsVideoView.init])
        · simpa [World.controls, Function.update_of_ne hv] using TableKept.refl _
      | vc k | manager => exact .refl _
  | unmount v => cases h; exact same hi rfl rfl rfl hi.rated
  | property v p => exact property hi h
  | tap v c =>
    by_cases hc : c = .fullScreen
    · subst hc; exact fullScreen hi h
    · obtain ⟨s, hs, rfl⟩ := tap_ok hc h
      refine handle hi ((PsVideoView.control_picks hs).imp_right fun ⟨hr, hk⟩ => ⟨?_, hk⟩)
      exact if_pos hr
  | fullTap c =>
    obtain ⟨k, s, hk, _, _, hs, rfl⟩ := fullTap_ok he h
    have hput : Passes (.fullTap c) w (w.fullPut k s) := by
      refine fullHandle hi (hi.opened k hk)
        ((PsVideoFullViewVC.control_picks hs).imp_right fun ⟨hr, hp⟩ => ⟨?_, hp⟩)
      simp only [Event.reloads, hk]
      exact if_pos hr
    exact ⟨hput.views, hput.vcs, hput.rated, fun o => by cases o <;> exact hput.table _⟩
  | viewDidAppear =>
    obtain ⟨k, hk, rfl⟩ := viewDidAppear_ok he h
    have hput : Passes .viewDidAppear w _ := fullHandle hi (hi.opened k (congrArg Screen.vc hk))
      (.inl (PsVideoFullViewVC.viewDidAppear_picks (w.fullScope k)))
    exact ⟨hput.views, hput.vcs, hput.rated, fun o => by cases o <;> exact hput.table _⟩
  | viewDismissed =>
    obtain ⟨k, p, layer, hk, _, _, rfl⟩ := viewDismissed_ok he h
    obtain ⟨ht, hq⟩ := hi.vcs k (hi.opened k hk)
    have hput := handle (e := .viewDismissed) hi (v := (w.vcs k).delegate)
      (.inl (PsVideoView.viewDismissed_picks p layer (w.scope (w.vcs k).delegate) hq ht.title))
    exact ⟨hput.views, hput.vcs, hput.rated, fun o => by cases o <;> exact hput.table _⟩
  | delayedBlock v =>
    cases h
    have hput := handle (e := .delayedBlock v) hi (.inl (PsVideoView.playBlock_picks (w.scope v)))
    exact ⟨hput.views, hput.vcs, hput.rated, fun o => by cases o <;> exact hput.table _⟩
  | playAnotherVideo url => cases h; exact same hi rfl rfl rfl hi.rated
  | mainBlock =>
    obtain ⟨url, _, _, rfl⟩ := mainBlock_ok he h
    exact same hi rfl rfl rfl (hi.rated.playNextVideo url)
  | background => cases h; exact background hi
  | timer t =>
    cases h
    obtain ⟨o, n⟩ := t
    cases o with
    | view v => exact handle hi (.inl (PsVideoView.timerAction_picks _))
    | vc k =>
      have hs := (PsVideoFullViewVC.timerAction_silent (w.fullScope k)).players
      exact fullPut hi (.inl (PsVideoFullViewVC.timerAction_picks _))
        (hi.rated.of_players hs)
    | manager => exact same hi rfl rfl rfl hi.rated
  | tick t =>
    cases tick_ok h with
    | refl => exact same hi rfl rfl rfl hi.rated
    | view hr => exact handle hi (.inl (PsVideoView.timeObserverCallback_picks hr))
    | vc _ hr =>
      have hs := (PsVideoFullViewVC.timeObserverCallback_silent hr).players
      exact fullPut hi (.inl (PsVideoFullViewVC.timeObserverCallback_picks hr))
        (hi.rated.of_players hs)
  | itemProgress p status duration time =>
    cases h
    exact same hi rfl rfl rfl (hi.rated.moved (w.moved_updatePlayer p _) fun _ => id)
  | itemEnd p =>
    cases h
    exact same hi rfl rfl rfl (hi.rated.moved (w.moved_updatePlayer p _)
      fun _ _ => by simp [AVPlayer.ended, rates])
  | playbackError p =>
    cases h
    exact same hi rfl rfl rfl (hi.rated.moved (w.moved_updatePlayer p _) fun _ => id)

end Passes

theorem Stocked.step {accepts : String → Bool} {e : Event} {w w' : World} (hi : Stocked w)
    (he : w.enabled e) (h : w.step accepts e = .ok w') : Stocked w' := by
  have hp := Passes.step hi he h
  exact ⟨hi.opened.step he h, hp.views, hp.vcs, hp.rated⟩

theorem stocked {accepts : String → Bool} {es : List Event} {w : World}
    (h : Steps (app accepts) .launch es w) : Stocked w :=
  h.invariant (fun _ _ _ hi he hs => hi.step he hs) .launch

/-! ## The values that are reached -/

/-- The values that show up in a run on concrete events are reached. -/
theorem exists_reached {ι α : Type} {f : World → ι → α} {a : α} (i : ι) (es : List Event)
    (h : ((app fun _ => true).exec .launch es).map (f · i) = some a) :
    ∃ accepts es w i, Steps (app accepts) .launch es w ∧ f w i = a := by
  obtain ⟨w, hw, ha⟩ := Steps.of_exec_map (app fun _ => true) .launch es _ h
  exact ⟨_, es, w, i, hw, ha⟩

/-- **The speeds that are ever chosen** are the rows of the table and, after a session at half speed,
the title of the first row. -/
theorem speed_values {s : String} : (∃ accepts es w v, Steps (app accepts) .launch es w ∧
    (w.views v).playerSpeed = s) ↔ s ∈ speeds := by
  constructor
  · rintro ⟨accepts, es, w, v, h, rfl⟩
    exact ((stocked h).views v).playerSpeed
  · intro hs
    simp only [speeds, videoSpeedArray, List.mem_cons, List.not_mem_nil, or_false] at hs
    rcases hs with rfl | rfl | rfl | rfl | rfl | rfl | rfl | rfl
    · exact exists_reached 0 [.mount, .property 0 (.url "a"), .property 0 (.play true),
        .delayedBlock 0, .tap 0 .settings, .tap 0 (.row true 0), .tap 0 .fullScreen, .viewDidAppear,
        .fullTap .fullScreen, .viewDismissed] (by decide +kernel)
    · exact exists_reached 0 [.mount, .tap 0 .settings, .tap 0 (.row true 0)] (by decide +kernel)
    · exact exists_reached 0 [.mount, .tap 0 .settings, .tap 0 (.row true 1)] (by decide +kernel)
    · exact exists_reached 0 [] (by decide +kernel)
    · exact exists_reached 0 [.mount, .tap 0 .settings, .tap 0 (.row true 3)] (by decide +kernel)
    · exact exists_reached 0 [.mount, .tap 0 .settings, .tap 0 (.row true 4)] (by decide +kernel)
    · exact exists_reached 0 [.mount, .tap 0 .settings, .tap 0 (.row true 5)] (by decide +kernel)
    · exact exists_reached 0 [.mount, .tap 0 .settings, .tap 0 (.row true 6)] (by decide +kernel)

/-- **The rates that a player is ever at** are those of the table and 0. -/
theorem rate_values {r : ℚ} : (∃ accepts es w p, Steps (app accepts) .launch es w ∧
    (w.env.players p).rate = r) ↔ r ∈ rates := by
  have row : ∀ i, (((app fun _ => true).exec .launch [.mount, .property 0 (.url "a"),
      .tap 0 .settings, .tap 0 (.row true i)]).map fun w => (w.env.players ⟨0, 0⟩).rate) = some r →
      ∃ accepts es w p, Steps (app accepts) .launch es w ∧ (w.env.players p).rate = r :=
    fun i h => exists_reached ⟨0, 0⟩ _ h
  constructor
  · rintro ⟨accepts, es, w, p, h, rfl⟩
    exact (stocked h).rated p
  · intro hr
    simp only [rates, List.mem_cons, List.not_mem_nil, or_false] at hr
    rcases hr with rfl | rfl | rfl | rfl | rfl | rfl | rfl | rfl
    · exact exists_reached ⟨0, 0⟩ [] (by decide +kernel)
    · exact row 0 (by decide +kernel)
    · exact row 1 (by decide +kernel)
    · exact row 2 (by decide +kernel)
    · exact row 3 (by decide +kernel)
    · exact row 4 (by decide +kernel)
    · exact row 5 (by decide +kernel)
    · exact row 6 (by decide +kernel)

/-! ## What is on display -/

/-- The table of `o` is up to date, and one of its rows is highlighted, unless the speed is one that
no row is for. -/
structure TableShows (d : Displayed) (o : Owner) : Prop where
  current : d.cells o = (d.world.controls o).cells
  one : ((d.cells o).filter (·.highlighted)).length = 1 ↔
    ¬ ((d.world.controls o).isSettingsSelected = true ∧
      (d.world.controls o).selectedSpeed = "0.5x")

/-- The row with this text has been chosen from a menu. -/
def Controller.Chosen (c : Controller) (settings : Bool) (text : String) : Prop :=
  if settings then c.playerSpeed = text ∧ c.controlsView.selectedSpeed = text
  else c.playerQuality = text ∧ c.controlsView.selectedQuality = text

/-- Tapping a row chooses the text that the table has for it. -/
theorem Scope.didSelectRowAt_chosen {s : Scope} {settings : Bool} {i : ℕ} (p : Option PlayerId)
    (h : s.self.controlsView.canTap (.row settings i)) : ∃ cell s',
      s.self.controlsView.cells[i]? = some cell ∧ s.didSelectRowAt p i = .ok s' ∧
        s'.self.Chosen settings cell.text := by
  obtain ⟨_, hset, hi⟩ := h
  have hrow : s.self.controlsView.rows[i]? = some s.self.controlsView.rows[i] :=
    List.getElem?_eq_getElem hi
  generalize s.self.controlsView.rows[i] = text at hrow
  have hcell : s.self.controlsView.cells[i]? = some (s.self.controlsView.cellFor text) := by
    rw [PsVideoControlsView.cells, List.getElem?_map, hrow]
    rfl
  unfold PsVideoControlsView.rows at hrow
  unfold Scope.didSelectRowAt
  cases settings with
  | true =>
    rw [if_pos hset] at hrow ⊢
    rw [hrow]
    refine ⟨_, _, hcell, rfl, ?_⟩
    rw [Controller.Chosen, if_pos rfl, Scope.controls_self, Scope.setVideoSpeed_self]
    cases speedSetting text <;> exact ⟨rfl, rfl⟩
  | false =>
    rw [if_neg (by rw [hset]; simp)] at hrow ⊢
    rw [hrow]
    refine ⟨_, _, hcell, rfl, ?_⟩
    rw [Controller.Chosen, if_neg (by simp), Scope.controls_self, Scope.setVideoQuality_self]
    exact ⟨rfl, rfl⟩

/-- What is chosen is one of the rows, unless it is the one speed that none is for. -/
theorem highlighted_one {c : PsVideoControlsView} (hs : c.selectedSpeed ∈ speeds)
    (hq : c.selectedQuality ∈ videoQualityArray) : (c.cells.filter (·.highlighted)).length = 1 ↔
      ¬ (c.isSettingsSelected = true ∧ c.selectedSpeed = "0.5x") := by
  unfold PsVideoControlsView.cells PsVideoControlsView.rows
  cases hset : c.isSettingsSelected with
  | true =>
    have hcell : c.cellFor = fun t => ⟨t, decide (c.selectedSpeed = t)⟩ := by
      funext t; simp [PsVideoControlsView.cellFor, hset]
    rw [hcell]
    generalize c.selectedSpeed = t at hs
    simp only [speeds, videoSpeedArray, List.mem_cons, List.not_mem_nil, or_false] at hs
    rcases hs with rfl | rfl | rfl | rfl | rfl | rfl | rfl | rfl <;> decide
  | false =>
    have hcell : c.cellFor = fun t => ⟨t, decide (c.selectedQuality = t)⟩ := by
      funext t; simp [PsVideoControlsView.cellFor, hset]
    rw [hcell]
    generalize c.selectedQuality = t at hq
    refine iff_of_true ?_ (by simp)
    simp only [videoQualityArray, List.mem_cons, List.not_mem_nil, or_false] at hq
    rcases hq with rfl | rfl | rfl | rfl | rfl <;> decide

/-- The cells are those of the controls as they are, wherever the table is visible. -/
def UpToDate (d : Displayed) : Prop :=
  ∀ o, (d.world.controls o).tableIsHidden = false → d.cells o = (d.world.controls o).cells

theorem UpToDate.step {accepts : String → Bool} {d d' : Displayed} {e : Event} (hu : UpToDate d)
    (hi : Stocked d.world) (he : d.world.enabled e) (h : (displayed accepts).step d e = .ok d') :
    d.world.step accepts e = .ok d'.world ∧ UpToDate d' := by
  simp only [displayed, Displayed.step] at h
  split at h
  · cases h
  · rename_i w hw
    cases h
    refine ⟨hw, fun o ho => ?_⟩
    obtain hr | ht := (Passes.step hi he hw).table o
    · simp only [hr, Function.update_self]
    · cases hr : e.reloads d.world with
      | none =>
        obtain hh | ⟨hc, hh⟩ := ht
        · exact absurd (hh.symm.trans ho) (by simp)
        · exact (hu o (hh.symm.trans ho)).trans hc.symm
      | some o' =>
        by_cases hne : o = o'
        · subst hne; exact Function.update_self _ _ _
        · simp only [Function.update_of_ne hne]
          obtain hh | ⟨hc, hh⟩ := ht
          · exact absurd (hh.symm.trans ho) (by simp)
          · exact (hu o (hh.symm.trans ho)).trans hc.symm

theorem displayed_kept {accepts : String → Bool} {es : List Event} {d : Displayed}
    (h : Steps (displayed accepts) .launch es d) : Stocked d.world ∧ UpToDate d := by
  refine h.invariant (I := fun d => Stocked d.world ∧ UpToDate d) ?_ ⟨.launch, ?_⟩
  · intro d e d' ⟨hi, hu⟩ he hs
    obtain ⟨hw, hu'⟩ := hu.step hi he hs
    exact ⟨hi.step he hw, hu'⟩
  · intro o ho
    cases o <;> simp [Displayed.launch, World.launch, World.controls, PsVideoView.init,
      PsVideoFullViewVC.init] at ho

theorem TableShows.of_tabled {d : Displayed} {o : Owner} {c : Controller} (hu : UpToDate d)
    (hc : d.world.controls o = c.controlsView) (ht : c.Tabled)
    (ho : c.controlsView.tableIsHidden = false) : TableShows d o := by
  have hcells : d.cells o = (d.world.controls o).cells := hu o (by rw [hc]; exact ho)
  refine ⟨hcells, ?_⟩
  rw [hcells, hc]
  exact highlighted_one ht.selectedSpeed ht.selectedQuality

/-- **What is tapped is what is chosen.** After every run a visible table has the cells of the
choices as they are, one of them highlighted unless the speed is "0.5x", and tapping one chooses its
text, inline and in full screen. -/
theorem table_shows {accepts : String → Bool} {es : List Event} {d : Displayed}
    (h : Steps (displayed accepts) .launch es d) :
    (∀ v, (d.world.views v).controlsView.tableIsHidden = false → TableShows d (.view v)) ∧
    (∀ k, d.world.Made k → (d.world.vcs k).controlsView.tableIsHidden = false →
      TableShows d (.vc k)) ∧
    (∀ v settings i, d.world.enabled (.tap v (.row settings i)) →
      ∃ cell w', (d.cells (.view v))[i]? = some cell ∧
        d.world.step accepts (.tap v (.row settings i)) = .ok w' ∧
        (w'.views v).Chosen settings cell.text) ∧
    (∀ k settings i, d.world.screen.vc = some k → d.world.enabled (.fullTap (.row settings i)) →
      ∃ cell w', (d.cells (.vc k))[i]? = some cell ∧
        d.world.step accepts (.fullTap (.row settings i)) = .ok w' ∧
        (w'.vcs k).Chosen settings cell.text) := by
  obtain ⟨hi, hu⟩ := displayed_kept h
  refine ⟨fun v => .of_tabled hu rfl (hi.views v), fun k hk => .of_tabled hu rfl (hi.vcs k hk).1,
    ?_, ?_⟩
  · rintro v settings i ⟨_, _, hc⟩
    obtain ⟨cell, s, hcell, hs, hchosen⟩ :=
      Scope.didSelectRowAt_chosen (s := d.world.scope v) d.world.env.player hc
    refine ⟨cell, d.world.put v s, ?_, ?_, ?_⟩
    · rw [hu (.view v) hc.1]; exact hcell
    · have hs' : PsVideoView.control (.row settings i) (d.world.scope v) = .ok s := hs
      simp only [World.step, World.tap, hs', World.tryPut]
    · simpa [World.put] using hchosen
  · intro k settings i hk he
    have hc : (d.world.vcs k).controlsView.canTap (.row settings i) := by
      cases hsc : d.world.screen with
      | inline | presenting j => simp only [World.enabled, hsc] at he
      | presented j | dismissing j =>
        simp only [World.enabled, hsc] at he
        rw [hsc] at hk
        cases hk
        exact he
    obtain ⟨cell, s, hcell, hs, hchosen⟩ :=
      Scope.didSelectRowAt_chosen (s := (d.world.fullScope k).scope) (d.world.vcs k).player hc
    have hf : PsVideoFullViewVC.control (.row settings i) (d.world.fullScope k) =
        .ok ((d.world.fullScope k).put s) := by
      have hs' : (d.world.fullScope k).scope.didSelectRowAt (d.world.fullScope k).self.player i =
        .ok s := hs
      simp only [PsVideoFullViewVC.control, FullScope.tryOn, hs']
    refine ⟨cell, d.world.fullPut k ((d.world.fullScope k).put s), ?_, ?_, ?_⟩
    · rw [hu (.vc k) hc.1]; exact hcell
    · simp only [World.step, hk, World.fullTap, World.tryFullPut, hf]
      rfl
    · have hk' : ((d.world.fullScope k).put s).self.Chosen settings cell.text := hchosen
      simpa [World.fullPut] using hk'

/-- The quality menu of a view is opened and its third row tapped. -/
theorem table_shows_third : ∃ d w', Steps (displayed fun _ => true) .launch
      [.mount, .tap 0 .videoQuality] d ∧
    d.world.step (fun _ => true) (.tap 0 (.row false 2)) = .ok w' ∧
    (w'.views 0).playerQuality = "480p" := by
  obtain ⟨d, hd, hobs⟩ := Steps.of_exec_map (displayed fun _ => true) .launch
    [.mount, .tap 0 .videoQuality]
    (fun d => (decide (d.world.enabled (.tap 0 (.row false 2))),
      ((d.cells (.view 0))[2]?).map Cell.text)) (a := (true, some "480p")) (by decide +kernel)
  obtain ⟨he, htext⟩ := Prod.mk.inj hobs
  obtain ⟨_, _, htap, _⟩ := table_shows hd
  obtain ⟨cell, w', hcell, hs, hchosen⟩ := htap 0 false 2 (of_decide_eq_true he)
  rw [hcell] at htext
  have ht : cell.text = "480p" := by simpa using htext
  exact ⟨d, w', hd, hs, ht ▸ hchosen.1⟩

end PsVideo
