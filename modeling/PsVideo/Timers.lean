import PsVideo.Retention
import PsVideo.Menus

/-!
# PsVideo.Timers

The repeating timer that hides the controls. `startTimer` schedules a timer and overwrites the
field; `resetTimer` invalidates the one in the field and leaves `isTimerRunning` set. `Clock` is
what the timers of one object are, apart from everything else, and `step_clocks` says which events
start and stop them.
-/

namespace PsVideo

open Machine

/-! ## A clock -/

/-- The timers of one object: those still scheduled, the number made so far, and the two fields. -/
structure Clock where
  live : List Handle
  count : Nat
  timer : Option Handle
  isTimerRunning : Bool

inductive ClockAct where
  | keep
  | start
  | stop
  | fresh

namespace Clock

/-- `start` is `startTimer` and `stop` is `resetTimer` of `o`; `fresh` is the making of `o`. -/
def act (o : Owner) (c : Clock) : ClockAct → Clock
  | .keep => c
  | .start => ⟨c.live ++ [⟨o, c.count⟩], c.count + 1, some ⟨o, c.count⟩, true⟩
  | .stop => { c with live := c.live.filter (some · ≠ c.timer) }
  | .fresh => { c with timer := none, isTimerRunning := false }

/-- The timer in the field was made by `o`. -/
def Own (o : Owner) (c : Clock) : Prop := ∀ t, c.timer = some t → t.owner = o

theorem Own.act {o : Owner} {c : Clock} (h : c.Own o) (a : ClockAct) : (c.act o a).Own o := by
  cases a with
  | keep | stop => exact h
  | start => intro t ht; cases ht; rfl
  | fresh => intro t ht; cases ht

/-- The timer in the field is the only one if `isTimerRunning`, and else there is none. -/
structure Sound (c : Clock) : Prop where
  one : c.isTimerRunning = true → ∃ t, c.timer = some t ∧ c.live = [t]
  none : c.isTimerRunning = false → c.live = []

theorem Sound.start {o : Owner} {c : Clock} (h : c.Sound) (hr : c.isTimerRunning = false) :
    (c.act o .start).Sound := by
  refine ⟨fun _ => ⟨⟨o, c.count⟩, rfl, ?_⟩, fun hf => by cases hf⟩
  simp only [act, h.none hr, List.nil_append]

theorem Sound.fresh {o : Owner} {c : Clock} (h : c.Sound) (hr : c.isTimerRunning = false) :
    (c.act o .fresh).Sound := ⟨(fun hf => by cases hf), fun _ => h.none hr⟩

/-- No timer is older than number `n`. -/
structure Since (n : Nat) (c : Clock) : Prop where
  live : ∀ t ∈ c.live, n ≤ t.serial
  count : n ≤ c.count

theorem Since.act {n : Nat} {o : Owner} {c : Clock} (h : c.Since n) (a : ClockAct) :
    (c.act o a).Since n := by
  cases a with
  | keep => exact h
  | start =>
    refine ⟨fun t ht => ?_, Nat.le_succ_of_le h.count⟩
    rcases List.mem_append.mp ht with ht | ht
    · exact h.live t ht
    · rw [List.mem_singleton.mp ht]; exact h.count
  | stop => exact ⟨fun t ht => h.live t (List.mem_of_mem_filter ht), h.count⟩
  | fresh => exact ⟨h.live, h.count⟩

/-- Only `start` sets `isTimerRunning`. -/
theorem rests {o : Owner} {c c' : Clock} {a : ClockAct} (h : c' = c.act o a) (ha : a ≠ .start)
    (hr : c.isTimerRunning = false) : c'.isTimerRunning = false := by
  subst h
  cases a with
  | keep | stop => exact hr
  | start => exact absurd rfl ha
  | fresh => rfl

/-- Nothing is scheduled without a start. -/
theorem empty {o : Owner} {c c' : Clock} {a : ClockAct} (h : c' = c.act o a) (ha : a ≠ .start)
    (hl : c.live = []) : c'.live = [] := by
  subst h
  cases a with
  | keep | fresh => exact hl
  | start => exact absurd rfl ha
  | stop => simp only [act, hl, List.filter_nil]

/-- Where none is scheduled, every later timer has a later number. -/
theorem Sound.since {c : Clock} (h : c.Sound) (hr : c.isTimerRunning = false) :
    c.Since c.count := ⟨(fun t ht => by rw [h.none hr] at ht; cases ht), Nat.le_refl _⟩

end Clock

/-! ## The clocks of the app -/

/-- The scheduled timers that `o` has made. -/
def Env.timersOf (e : Env) (o : Owner) : List Handle := e.timers.filter (·.owner = o)

theorem Env.timersOf_scheduledTimer (e : Env) (o : Owner) :
    (e.scheduledTimer o).timersOf o = e.timersOf o ++ [⟨o, e.timerCount o⟩] := by
  simp [timersOf, scheduledTimer, nextTimer]

theorem Env.timersOf_scheduledTimer_other (e : Env) {o o' : Owner} (h : o' ≠ o) :
    (e.scheduledTimer o).timersOf o' = e.timersOf o' := by
  simp [timersOf, scheduledTimer, nextTimer, Ne.symm h]

theorem Env.timersOf_invalidate (e : Env) (t : Option Handle) (o : Owner) :
    (e.invalidate t).timersOf o = (e.timersOf o).filter (some · ≠ t) := by
  simp only [timersOf, invalidate, List.filter_filter, Bool.and_comm]

/-- Invalidating another object's timer. -/
theorem Env.timersOf_invalidate_other (e : Env) {t : Option Handle} {o : Owner}
    (h : ∀ h, t = some h → h.owner ≠ o) : (e.invalidate t).timersOf o = e.timersOf o := by
  rw [timersOf_invalidate]
  refine List.filter_eq_self.mpr fun u hu => decide_eq_true fun hut => ?_
  exact h u hut.symm (of_decide_eq_true (List.mem_filter.mp hu).2)

def Controller.clock (c : Controller) (e : Env) (o : Owner) : Clock where
  live := e.timersOf o
  count := e.timerCount o
  timer := c.timer
  isTimerRunning := c.isTimerRunning

theorem Controller.clock_congr (c : Controller) {e e' : Env} {o : Owner}
    (ht : e'.timersOf o = e.timersOf o) (hn : e'.timerCount o = e.timerCount o) :
    c.clock e' o = c.clock e o := by
  simp only [Controller.clock, ht, hn]

def Scope.clock (s : Scope) : Clock := s.self.clock s.env s.me

def World.clock (w : World) : Owner → Clock
  | .view v => (w.scope v).clock
  | .vc k => (w.fullScope k).scope.clock
  | .manager => ⟨[], 0, none, false⟩

/-! ## The handlers -/

/-- A handler does `a` to its object's clock, and nothing to another's. -/
structure Clocked (a : ClockAct) (s s' : Scope) : Prop where
  me : s'.me = s.me
  own : s'.clock = s.clock.act s.me a
  timers : ∀ o, o ≠ s.me → s'.env.timersOf o = s.env.timersOf o
  count : ∀ o, o ≠ s.me → s'.env.timerCount o = s.env.timerCount o

namespace Clocked

variable {a : ClockAct} {s s' s'' : Scope}

theorem keep (hm : s'.me = s.me) (ht : s'.env.timers = s.env.timers)
    (hn : s'.env.timerCount = s.env.timerCount) (hf : s'.self.timer = s.self.timer)
    (hr : s'.self.isTimerRunning = s.self.isTimerRunning) : Clocked .keep s s' := by
  have hl : s'.env.timersOf = s.env.timersOf := funext fun o => by simp only [Env.timersOf, ht]
  refine ⟨hm, ?_, fun o _ => congrFun hl o, fun o _ => congrFun hn o⟩
  simp only [Scope.clock, Controller.clock, Clock.act, hm, hl, hn, hf, hr]

theorem refl (s : Scope) : Clocked .keep s s := .keep rfl rfl rfl rfl rfl

theorem commands {p : Option PlayerId} (h : Commands p s s') : Clocked .keep s s' :=
  .keep h.me h.timers (by rw [h.env]) h.timer h.isTimerRunning

theorem controls (s : Scope) (f : PsVideoControlsView → PsVideoControlsView) :
    Clocked .keep s (s.controls f) := .keep rfl rfl rfl rfl rfl

/-- What is done before and after leaves the clock alone. -/
theorem after (h₁ : Clocked .keep s s') (h₂ : Clocked a s' s'') : Clocked a s s'' where
  me := h₂.me.trans h₁.me
  own := by rw [h₂.own, h₁.own, h₁.me]; rfl
  timers o ho := (h₂.timers o (by rwa [h₁.me])).trans (h₁.timers o ho)
  count o ho := (h₂.count o (by rwa [h₁.me])).trans (h₁.count o ho)

theorem andThen (h₁ : Clocked a s s') (h₂ : Clocked .keep s' s'') : Clocked a s s'' where
  me := h₂.me.trans h₁.me
  own := by rw [h₂.own, h₁.own]; rfl
  timers o ho := (h₂.timers o (by rwa [h₁.me])).trans (h₁.timers o ho)
  count o ho := (h₂.count o (by rwa [h₁.me])).trans (h₁.count o ho)

theorem addTimeObserver (p : Option PlayerId) (s : Scope) :
    Clocked .keep s (s.addTimeObserver p) := by
  cases p <;> exact .keep rfl rfl rfl rfl rfl

theorem removeTimeObserver {p : Option PlayerId} (h : s.removeTimeObserver p = .ok s') :
    Clocked .keep s s' := by
  rw [Scope.removeTimeObserver_ok h]
  exact .keep rfl rfl rfl rfl rfl

theorem startTimer (s : Scope) : Clocked .start s s.startTimer where
  me := rfl
  own := by
    simp only [Scope.clock, Controller.clock, Scope.startTimer, Clock.act,
      Env.timersOf_scheduledTimer]
    simp [Env.scheduledTimer, Env.nextTimer]
  timers o ho := Env.timersOf_scheduledTimer_other _ ho
  count o ho := by simp [Scope.startTimer, Env.scheduledTimer, Function.update_of_ne ho]

theorem resetTimer (h : s.clock.Own s.me) : Clocked .stop s s.resetTimer where
  me := rfl
  own := by
    simp only [Scope.clock, Controller.clock, Scope.resetTimer, Clock.act, Env.timersOf_invalidate]
    rfl
  timers o ho := Env.timersOf_invalidate_other _ fun t ht hto => ho (hto.symm.trans (h t ht))
  count o ho := rfl

end Clocked

namespace PsVideoView

variable {s s' : Scope}

theorem playAction_clocked (s : Scope) : Clocked .keep s (playAction s) := by
  obtain ⟨_, h⟩ | ⟨_, h⟩ := playAction_commands s
  · rw [h]; exact .commands (.pauseAction s)
  · have h0 : Clocked .keep s (addObservers s) := by
      unfold addObservers
      split
      · exact .addTimeObserver _ s
      · exact .refl s
    exact h0.after (.commands h)

theorem playBlock_clocked (s : Scope) : Clocked .keep s (playBlock s) := by
  have h0 : Clocked .keep s (initVideoPlayer s) := .keep rfl rfl rfl rfl rfl
  exact h0.after (playAction_clocked _)

theorem control_clocked {c : Control} (hc : c ≠ .playerView) (h : control c s = .ok s') :
    Clocked .keep s s' := by
  cases c with
  | play => cases h; exact playAction_clocked s
  | stop => cases h; exact .commands (.stopAction s)
  | forward => exact .commands (.forwardAction h)
  | backward => exact .commands (.backwardAction h)
  | fullScreen => cases h; exact .refl s
  | slider x => exact .commands (.sliderAction h)
  | row settings i => exact .commands (.didSelectRowAt h)
  | settings | videoQuality => cases h; exact .controls s _
  | controlsView => cases h; exact (Clocked.controls s _).after (.controls _ _)
  | playerView => exact absurd rfl hc

/-- Nothing is stopped while a button is selected. -/
theorem timerAction_clocked (hs : s.clock.Own s.me) :
    Clocked (if s.self.controlsView.menu.idle then .stop else .keep) s (timerAction s) := by
  unfold timerAction
  split
  · rename_i h
    rw [if_pos (by exact h)]
    exact (Clocked.controls s _).after (.resetTimer hs)
  · rename_i h
    rw [if_neg (by exact h)]
    exact .refl s

theorem timeObserverCallback_clocked {alive : Bool} (h : timeObserverCallback alive s = .ok s') :
    Clocked .keep s s' ∨
      alive = true ∧ s.self.isTimerRunning = false ∧ Clocked .start s s' := by
  unfold timeObserverCallback at h
  split at h
  · cases h; exact .inl (.refl s)
  · split at h
    · split at h
      · rename_i halive
        split at h
        · exact .inl (.commands (p := none) (.showTimes h))
        · rename_i hr
          have hr : s.self.isTimerRunning = false := by simpa using hr
          have hc := (Clocked.startTimer s).andThen (.commands (p := none) (.showTimes h))
          exact .inr ⟨halive, hr, hc⟩
      · cases h
    · cases h; exact .inl (.refl s)

theorem viewDismissed_clocked (p : PlayerId) (layer : Handle) (quality speed : String) (s : Scope) :
    Clocked (if s.env.isPlaying (some p) then .start else .keep) s
      (viewDismissed p layer quality speed s) := by
  have h0 : Clocked .keep s (receive p layer quality speed s) := .keep rfl rfl rfl rfl rfl
  unfold viewDismissed
  dsimp only
  rw [show (receive p layer quality speed s).env.isPlaying (some p) = s.env.isPlaying (some p) from
    rfl]
  split
  · refine h0.after ?_
    have h1 := Clocked.commands (.call (p := some p) (receive p layer quality speed s) .play)
    have h2 := ((h1.after (.controls _ (·.selectPlay true))).after
      (.addTimeObserver (some p) _)).after (.startTimer _)
    exact (h2.andThen (.commands (.setVideoSpeed _ _))).andThen (.commands (.setVideoQuality _ _))
  · exact h0.after (.commands (.pauseAction _))

end PsVideoView

namespace PsVideoFullViewVC

variable {a : ClockAct} {s s' : FullScope}

theorem on_clocked {f : Option PlayerId → Scope → Scope}
    (h : Clocked a s.scope (f s.self.player s.scope)) : Clocked a s.scope (s.on f).scope := by
  rw [FullScope.on, FullScope.scope_put h.me]
  exact h

theorem tryOn_clocked {f : Option PlayerId → Scope → Except Trap Scope}
    (hf : ∀ r, f s.self.player s.scope = .ok r → Clocked a s.scope r) (h : s.tryOn f = .ok s') :
    Clocked a s.scope s'.scope := by
  unfold FullScope.tryOn at h
  split at h
  · cases h
  · rename_i r hr
    cases h
    rw [FullScope.scope_put (hf r hr).me]
    exact hf r hr

theorem pauseAction_clocked (s : FullScope) : Clocked .keep s.scope (pauseAction s).scope :=
  on_clocked (.commands (.pauseAction _))

theorem controls_clocked (f : PsVideoControlsView → PsVideoControlsView) (s : FullScope) :
    Clocked .keep s.scope (s.on fun _ => (·.controls f)).scope := on_clocked (.controls _ _)

theorem addTimeObserver_clocked (s : FullScope) : Clocked .keep s.scope (addTimeObserver s).scope :=
  on_clocked (.addTimeObserver _ _)

theorem startTimer_clocked (s : FullScope) : Clocked .start s.scope (startTimer s).scope :=
  on_clocked (.startTimer _)

theorem hide_clocked (b c : Bool) (s : FullScope) :
    Clocked .keep s.scope (hideViewToTap b (s.on fun _ => (·.controls (·.hide c)))).scope :=
  controls_clocked (·.hide c) s

/-- The end of `playAction` and of `viewDidAppear`. -/
theorem start_clocked (r : String) (q : FullScope → String) (s : FullScope) :
    Clocked .keep s.scope (setVideoQuality (q (setVideoSpeed r s)) (setVideoSpeed r s)).scope :=
  (on_clocked (.commands (.setVideoSpeed r _))).after
    (on_clocked (.commands (.setVideoQuality _ _)))

theorem play_clocked (s : FullScope) : Clocked .keep s.scope
    ((s.on fun p => (·.call p .play)).on fun _ => (·.controls (·.selectPlay true))).scope :=
  (on_clocked (.commands (.call _ .play))).after (controls_clocked _ _)

theorem playAction_clocked (s : FullScope) : Clocked .keep s.scope (playAction s).scope := by
  unfold playAction
  split
  · exact pauseAction_clocked s
  · have h0 : Clocked .keep s.scope
        (if s.self.timeObserver = none then addTimeObserver s else s).scope := by
      split
      · exact addTimeObserver_clocked s
      · exact .refl _
    exact (h0.after (play_clocked _)).after (start_clocked _ (·.self.playerQuality) _)

theorem viewDidAppear_clocked (s : FullScope) :
    Clocked (if s.env.isPlaying s.self.player then .start else .keep) s.scope
      (viewDidAppear s).scope := by
  unfold viewDidAppear
  split
  · have h1 := ((play_clocked s).after (addTimeObserver_clocked _)).after (startTimer_clocked _)
    exact h1.andThen (start_clocked _ (·.self.playerQuality) _)
  · exact .refl _

theorem control_clocked {c : Control} (hc : c ≠ .playerView) (h : control c s = .ok s') :
    Clocked .keep s.scope s'.scope := by
  cases c with
  | play => cases h; exact playAction_clocked s
  | stop => cases h; exact on_clocked (.commands (.stopAction _))
  | forward => exact tryOn_clocked (fun _ hr => .commands (.forwardAction hr)) h
  | backward => exact tryOn_clocked (fun _ hr => .commands (.backwardAction hr)) h
  | fullScreen =>
    refine Clocked.after ?_ (tryOn_clocked (fun _ hr => .removeTimeObserver hr) h)
    exact .keep rfl rfl rfl rfl rfl
  | slider x =>
    exact tryOn_clocked (f := fun p => (·.sliderAction p x))
      (fun _ hr => .commands (.sliderAction hr)) h
  | row settings i =>
    exact tryOn_clocked (f := fun p => (·.didSelectRowAt p i))
      (fun _ hr => .commands (.didSelectRowAt hr)) h
  | settings | videoQuality => cases h; exact controls_clocked _ s
  | controlsView => cases h; exact (hide_clocked false true s).after (controls_clocked _ _)
  | playerView => exact absurd rfl hc

theorem timerAction_clocked (hs : s.scope.clock.Own s.me) :
    Clocked (if s.self.controlsView.menu.idle then .stop else .keep) s.scope
      (timerAction s).scope := by
  unfold timerAction
  split
  · rename_i h
    rw [if_pos (by exact h)]
    exact ((hide_clocked false true s).after (controls_clocked (·.resetControls) _)).after
      (on_clocked (.resetTimer hs))
  · rename_i h
    rw [if_neg (by exact h)]
    exact .refl _

theorem timeObserverCallback_clocked (h : timeObserverCallback s = .ok s') :
    Clocked .keep s.scope s'.scope := by
  unfold timeObserverCallback at h
  split at h
  · cases h; exact .refl _
  · split at h
    · exact tryOn_clocked (fun _ hr => .commands (p := none) (.showTimes hr)) h
    · cases h; exact .refl _

end PsVideoFullViewVC

/-! ## The world -/

/-- A handler of view `v` acts on the clock of `v` alone. -/
theorem World.clock_put {w : World} {v : ViewId} {s : Scope} {a : ClockAct}
    (h : Clocked a (w.scope v) s) (o : Owner) : (w.put v s).clock o =
      if o = .view v then (w.clock o).act o a else w.clock o := by
  split
  · rename_i ho
    subst ho
    simp only [World.clock, World.scope_put h.me]
    exact h.own
  · rename_i ho
    have ht := h.timers o ho
    have hn := h.count o ho
    cases o with
    | view u =>
      have hu : u ≠ v := fun hu => ho (by rw [hu])
      simp only [World.clock, World.scope, World.put, Scope.clock, Function.update_of_ne hu]
      exact Controller.clock_congr _ ht hn
    | vc k => exact Controller.clock_congr (w.vcs k).toController ht hn
    | manager => rfl

theorem World.clock_fullPut {w : World} {k : VcId} {s : FullScope} {a : ClockAct}
    (h : Clocked a (w.fullScope k).scope s.scope) (o : Owner) : (w.fullPut k s).clock o =
      if o = .vc k then (w.clock o).act o a else w.clock o := by
  split
  · rename_i ho
    subst ho
    simp only [World.clock, World.fullScope_fullPut h.me]
    exact h.own
  · rename_i ho
    have ht := h.timers o ho
    have hn := h.count o ho
    cases o with
    | view u => exact Controller.clock_congr (w.views u) ht hn
    | vc j =>
      have hj : j ≠ k := fun hj => ho (by rw [hj])
      simp only [World.clock, World.fullScope, World.fullPut, FullScope.scope, Scope.clock,
        Function.update_of_ne hj]
      exact Controller.clock_congr _ ht hn
    | manager => rfl

/-- What `e` can do to the clock of `o`. -/
def ClockAct.by (w : World) (e : Event) : Owner → ClockAct → Prop
  | _, .keep => True
  | .view v, .start => e = .tap v .playerView ∨
      e = .viewDismissed ∧ (∃ k, w.screen.vc = some k ∧ (w.vcs k).delegate = v ∧
        w.env.isPlaying (w.vcs k).player = true) ∨
      (∃ t, e = .tick t) ∧ w.viewAlive v = true ∧ (w.views v).isTimerRunning = false
  | .vc k, .start => e = .fullTap .playerView ∧ w.screen.vc = some k ∧ w.screen ≠ .presenting k ∨
      e = .viewDidAppear ∧ w.screen = .presenting k
  | .view v, .stop => ∃ n, e = .timer ⟨.view v, n⟩ ∧ (w.views v).controlsView.menu.idle = true
  | .vc k, .stop => ∃ n, e = .timer ⟨.vc k, n⟩ ∧ (w.vcs k).controlsView.menu.idle = true
  | .view v, .fresh => e = .mount ∧ v = w.nextView
  | .vc k, .fresh => ∃ v, e = .tap v .fullScreen ∧ k = w.nextVc v
  | .manager, _ => False

/-- One act, if any, for each object. -/
def Clocks (e : Event) (w w' : World) : Prop :=
  ∀ o, ∃ a : ClockAct, a.by w e o ∧ w'.clock o = (w.clock o).act o a

namespace Clocks

variable {e : Event} {w w' : World}

theorem same (hv : w'.views = w.views) (hk : w'.vcs = w.vcs) (ht : w'.env.timers = w.env.timers)
    (hn : w'.env.timerCount = w.env.timerCount) : Clocks e w w' := by
  intro o
  have ht : w'.env.timersOf o = w.env.timersOf o := by rw [Env.timersOf, ht]; rfl
  have hn : w'.env.timerCount o = w.env.timerCount o := by rw [hn]
  refine ⟨.keep, trivial, ?_⟩
  cases o with
  | view v =>
    simp only [World.clock, World.scope, Scope.clock, hv]
    exact Controller.clock_congr _ ht hn
  | vc k =>
    simp only [World.clock, World.fullScope, FullScope.scope, Scope.clock, hk]
    exact Controller.clock_congr _ ht hn
  | manager => rfl

theorem refl (w : World) : Clocks e w w := same rfl rfl rfl rfl

theorem put {v : ViewId} {s : Scope} {a : ClockAct} (h : Clocked a (w.scope v) s)
    (ha : a.by w e (.view v)) : Clocks e w (w.put v s) := by
  intro o
  rw [World.clock_put h]
  split
  · rename_i ho; subst ho; exact ⟨a, ha, rfl⟩
  · exact ⟨.keep, trivial, rfl⟩

theorem fullPut {k : VcId} {s : FullScope} {a : ClockAct}
    (h : Clocked a (w.fullScope k).scope s.scope) (ha : a.by w e (.vc k)) :
    Clocks e w (w.fullPut k s) := by
  intro o
  rw [World.clock_fullPut h]
  split
  · rename_i ho; subst ho; exact ⟨a, ha, rfl⟩
  · exact ⟨.keep, trivial, rfl⟩

/-- The making of a view. -/
theorem mount {accepts : String → Bool} (h : w.step accepts .mount = .ok w') :
    Clocks .mount w w' := by
  cases h
  intro o
  by_cases ho : o = .view w.nextView
  · subst ho
    refine ⟨.fresh, ⟨rfl, rfl⟩, ?_⟩
    simp [World.clock, World.scope, Scope.clock, Controller.clock, Clock.act, PsVideoView.init]
  · refine ⟨.keep, trivial, ?_⟩
    cases o with
    | view u =>
      have hu : u ≠ w.nextView := fun hu => ho (by rw [hu])
      simp [World.clock, World.scope, Clock.act, Function.update_of_ne hu]
    | vc k | manager => rfl

/-- The making of a controller. -/
theorem fullScreen {accepts : String → Bool} {v : ViewId}
    (h : w.step accepts (.tap v .fullScreen) = .ok w') : Clocks (.tap v .fullScreen) w w' := by
  obtain ⟨s, layer, hs, _, _, rfl⟩ := fullScreen_ok h
  have hc : Clocked .keep (w.scope v) { s with
      env := (s.env.addObserver (.vc (w.nextVc v)) .didEnterBackground).addSublayer
        (.vc (w.nextVc v)) layer
      self := { s.self with timeObserver := none } } :=
    (Clocked.removeTimeObserver hs).after (.keep rfl rfl rfl rfl rfl)
  have hput : ∀ o, _ = w.clock o := fun o => (World.clock_put hc o).trans (by split <;> rfl)
  intro o
  by_cases ho : o = .vc (w.nextVc v)
  · subst ho
    refine ⟨.fresh, ⟨v, rfl, rfl⟩, ?_⟩
    have hl := congrArg Clock.live (hput (.vc (w.nextVc v)))
    have hn := congrArg Clock.count (hput (.vc (w.nextVc v)))
    simp only [World.clock, World.fullScope, FullScope.scope, Scope.clock, Controller.clock,
      Clock.act, Function.update_self] at hl hn ⊢
    exact congrArg₂ (fun l n => Clock.mk l n _ _) hl hn
  · refine ⟨.keep, trivial, ?_⟩
    rw [Clock.act, ← hput o]
    cases o with
    | vc k =>
      have hk : k ≠ w.nextVc v := fun hk => ho (by rw [hk])
      simp [World.clock, World.fullScope, Function.update_of_ne hk, World.put]
    | view u | manager => rfl

theorem background (w : World) :
    Clocks e w (w.env.registrations.foldl World.notifyBackground w) := by
  have h : ∀ o, (w.env.registrations.foldl World.notifyBackground w).clock o = w.clock o := by
    refine background_rule (P := fun w' => ∀ o, w'.clock o = w.clock o) (fun _ => rfl) ?_
    intro w' k _ _ _ hi o
    have hc := PsVideoFullViewVC.pauseAction_clocked (w'.fullScope k)
    refine (World.clock_fullPut hc o).trans ?_
    split <;> exact hi o
  exact fun o => ⟨.keep, trivial, h o⟩

theorem tick {t : Handle} (h : w.tick t = .ok w') : Clocks (.tick t) w w' := by
  cases tick_ok h with
  | refl => exact refl w
  | view hr =>
    obtain hc | ⟨ha, hn, hc⟩ := PsVideoView.timeObserverCallback_clocked hr
    · exact put hc trivial
    · exact put hc (.inr (.inr ⟨⟨_, rfl⟩, ha, hn⟩))
  | vc _ hr => exact fullPut (PsVideoFullViewVC.timeObserverCallback_clocked hr) trivial

theorem timer (ho : ∀ o, (w.clock o).Own o) (t : Handle) : Clocks (.timer t) w (w.timer t) := by
  obtain ⟨o, n⟩ := t
  cases o with
  | view v =>
    refine put (PsVideoView.timerAction_clocked (ho (.view v))) ?_
    split
    · rename_i hi; exact ⟨n, rfl, hi⟩
    · trivial
  | vc k =>
    refine fullPut (PsVideoFullViewVC.timerAction_clocked (ho (.vc k))) ?_
    split
    · rename_i hi; exact ⟨n, rfl, hi⟩
    · trivial
  | manager => exact refl w

end Clocks

/-- What one event does to the timers. -/
theorem step_clocks {accepts : String → Bool} {e : Event} {w w' : World}
    (ho : ∀ o, (w.clock o).Own o) (he : w.enabled e) (h : w.step accepts e = .ok w') :
    Clocks e w w' := by
  cases e with
  | mount => exact .mount h
  | unmount v => cases h; exact .same rfl rfl rfl rfl
  | property v p =>
    by_cases hp : ∃ u, p = .url u
    · obtain ⟨u, rfl⟩ := hp
      obtain ⟨_, rfl⟩ := url_ok h
      exact .same rfl rfl rfl rfl
    · obtain rfl | ⟨s, hc, rfl⟩ := property_ok (fun u hu => hp ⟨u, hu⟩) h
      · exact .same rfl rfl rfl rfl
      · exact .put (.commands hc) trivial
  | tap v c =>
    by_cases hf : c = .fullScreen
    · subst hf
      exact .fullScreen h
    · obtain ⟨s, hs, rfl⟩ := tap_ok hf h
      by_cases hc : c = .playerView
      · subst hc
        cases hs
        exact .put ((Clocked.controls _ _).after (.startTimer _)) (.inl rfl)
      · exact .put (PsVideoView.control_clocked hc hs) trivial
  | fullTap c =>
    obtain ⟨k, s, hk, hp, _, hs, rfl⟩ := fullTap_ok he h
    by_cases hc : c = .playerView
    · subst hc
      cases hs
      exact Clocks.fullPut ((PsVideoFullViewVC.hide_clocked true false _).after
        (PsVideoFullViewVC.startTimer_clocked _)) (.inl ⟨rfl, hk, hp⟩)
    · exact Clocks.fullPut (w := w) (PsVideoFullViewVC.control_clocked hc hs) trivial
  | viewDidAppear =>
    obtain ⟨k, hk, rfl⟩ := viewDidAppear_ok he h
    refine Clocks.fullPut (w := w) (PsVideoFullViewVC.viewDidAppear_clocked _) ?_
    split
    · exact .inr ⟨rfl, hk⟩
    · trivial
  | viewDismissed =>
    obtain ⟨k, p, layer, hk, hp, _, rfl⟩ := viewDismissed_ok he h
    refine Clocks.put (w := w) (PsVideoView.viewDismissed_clocked p layer _ _ _) ?_
    split
    · rename_i hplay
      exact .inr (.inl ⟨rfl, k, hk, rfl, by rw [hp]; exact hplay⟩)
    · trivial
  | delayedBlock v =>
    cases h
    exact Clocks.put (w := w) (PsVideoView.playBlock_clocked _) trivial
  | playAnotherVideo url => cases h; exact .same rfl rfl rfl rfl
  | mainBlock =>
    obtain ⟨_, _, _, rfl⟩ := mainBlock_ok he h
    exact .same rfl rfl rfl rfl
  | background => cases h; exact .background w
  | timer t => cases h; exact .timer ho t
  | tick t => exact .tick h
  | itemProgress p status duration time => cases h; exact .same rfl rfl rfl rfl
  | itemEnd p | playbackError p => cases h; exact .same rfl rfl rfl rfl

end PsVideo
