import PsVideo.Isolation
import PsVideo.Retention

/-!
# PsVideo.OwnPlayer

The copy of the sources under `ios/ios`. There `player` is a stored property of each `PsVideoView`
instead of a static variable, the closure of `addTimeObserver` asks `self?.player` for its item, and
the manager has no `playAnotherVideo`. All else is as in `App`, also that no view is ever freed.

* `own_lockstep`: as long as only one view is used, the copy does what the app does.
* `own_isolated`: in the copy any two views are isolated, whatever is done to either.
-/

namespace PsVideo

open Machine

/-- The views of the copy hold their players in `player`. `world.env.player` is where a handler of
a view finds its own: it is put there before the handler runs, and read back after it. -/
structure OwnWorld where
  world : World
  player : ViewId → Option PlayerId

/-- The view a handler of which an event runs. -/
def Event.handler (w : World) : Event → Option ViewId
  | .property v _ | .tap v _ | .delayedBlock v | .tick ⟨.view v, _⟩ => some v
  | .viewDismissed => w.screen.vc.map fun k => (w.vcs k).delegate
  | _ => none

/-- The events of the copy. -/
def Event.ofCopy : Event → Bool
  | .playAnotherVideo _ | .mainBlock => false
  | _ => true

/-- A tick of a view that is gone: `self?.player` is nil. -/
def Event.goneTick (w : World) : Event → Bool
  | .tick ⟨.view v, _⟩ => !w.viewAlive v
  | _ => false

namespace OwnWorld

def launch : OwnWorld where
  world := .launch
  player _ := none

/-- What a handler of view `v` sees. -/
def load (c : OwnWorld) (v : ViewId) : World :=
  { c.world with env := { c.world.env with player := c.player v } }

/-- What it leaves. -/
def store (c : OwnWorld) (v : ViewId) (w : World) : OwnWorld where
  world := w
  player := Function.update c.player v w.env.player

def enabled (c : OwnWorld) (e : Event) : Prop := e.ofCopy = true ∧ c.world.enabled e

instance (c : OwnWorld) (e : Event) : Decidable (c.enabled e) :=
  inferInstanceAs (Decidable (_ ∧ _))

def step (accepts : String → Bool) (c : OwnWorld) (e : Event) : Except Trap OwnWorld :=
  match e.handler c.world with
  | none =>
    match c.world.step accepts e with
    | .error t => .error t
    | .ok w => .ok { c with world := w }
  | some v =>
    if e.goneTick c.world then .ok c
    else
      match (c.load v).step accepts e with
      | .error t => .error t
      | .ok w => .ok (c.store v w)

end OwnWorld

/-- The copy as a machine. -/
def ownApp (accepts : String → Bool) : Machine OwnWorld Event Trap where
  enabled := OwnWorld.enabled
  step := OwnWorld.step accepts

instance (accepts : String → Bool) (c : OwnWorld) (e : Event) :
    Decidable ((ownApp accepts).enabled c e) := inferInstanceAs (Decidable (c.enabled e))

section Inversion

variable {accepts : String → Bool} {c d : OwnWorld} {w w' : World} {v : ViewId} {e : Event}

theorem enabled_load : (c.load v).enabled e = c.world.enabled e := by
  cases e <;> rfl

/-- An event that runs no handler of a view leaves the current player alone. -/
theorem step_player_of_handler (hn : e.handler w = none) (he : w.enabled e)
    (h : w.step accepts e = .ok w') : w'.env.player = w.env.player := by
  obtain hp | ⟨v, u, rfl, _⟩ | ⟨k, rfl, hk, _⟩ := step_player he h
  · exact hp
  · cases hn
  · simp [Event.handler, hk] at hn

/-- A step of the copy is one of the app, over the view's own player. -/
theorem own_step_ok (he : c.enabled e) (h : c.step accepts e = .ok d) :
    (e.handler c.world = none ∧ c.world.step accepts e = .ok d.world ∧ d.player = c.player) ∨
    (e.goneTick c.world = true ∧ d = c) ∨
    ∃ v w, e.handler c.world = some v ∧ e.goneTick c.world = false ∧ (c.load v).enabled e ∧
      (c.load v).step accepts e = .ok w ∧ d = c.store v w := by
  unfold OwnWorld.step at h
  split at h
  · rename_i hn
    split at h
    · cases h
    · rename_i w hw; cases h; exact .inl ⟨hn, hw, rfl⟩
  · rename_i v hv
    split at h
    · rename_i hg; cases h; exact .inr (.inl ⟨hg, rfl⟩)
    · split at h
      · cases h
      · rename_i hg _ w hw
        cases h
        have hen : (c.load v).enabled e := by rw [enabled_load]; exact he.2
        exact .inr (.inr ⟨v, w, hv, (Bool.not_eq_true _).mp hg, hen, hw, rfl⟩)

theorem goneTick_view (h : e.goneTick w = true) :
    ∃ v n, e = .tick ⟨.view v, n⟩ ∧ w.viewAlive v = false := by
  unfold Event.goneTick at h
  split at h
  · rename_i v n; exact ⟨v, n, rfl, (Bool.not_eq_true' _).mp h⟩
  · cases h

/-! ## Who is there -/

theorem Present.load (h : Present c.world) : Present (c.load v) := { h with }

/-- An observer never ticks without its view. -/
theorem Present.goneTick (h : Present w) (he : w.enabled e) : e.goneTick w = false := by
  refine Bool.eq_false_iff.mpr fun hg => ?_
  obtain ⟨v, n, rfl, hv⟩ := goneTick_view hg
  rw [h.tick_view he] at hv
  cases hv

end Inversion

/-! ## One view in use -/

/-- The copy has the event, and a handler that runs is one of `v`. -/
def Alone (v : ViewId) (w : World) (e : Event) : Prop :=
  e.ofCopy = true ∧ ∀ u, e.handler w = some u → u = v

instance (v : ViewId) (w : World) (e : Event) : Decidable (Alone v w e) :=
  decidable_of_iff (e.ofCopy = true ∧ ∀ u ∈ e.handler w, u = v) Iff.rfl

/-- The copy is in the state of the app, the player of `v` being the current one. -/
def SameFor (v : ViewId) (w : World) (c : OwnWorld) : Prop :=
  c = ⟨w, Function.update (fun _ => none) v w.env.player⟩

theorem SameFor.load {v : ViewId} {w : World} {c : OwnWorld} (h : SameFor v w c) :
    c.load v = w := by
  rw [h]
  simp [OwnWorld.load]

theorem SameFor.launch (v : ViewId) : SameFor v .launch .launch := by
  unfold SameFor
  rw [show World.launch.env.player = none from rfl, Function.update_eq_self_iff.mpr rfl]
  rfl

/-- What a step of the app leaves, the copy stores. -/
theorem SameFor.store {v : ViewId} {w w' : World} {c : OwnWorld} (h : SameFor v w c) :
    SameFor v w' (c.store v w') := by
  rw [h]
  simp [SameFor, OwnWorld.store]

/-- **With one view in use the copy is the app**: the two agree after every prefix of every run, in
the whole state and in the traps. -/
theorem own_lockstep {accepts : String → Bool} (v : ViewId) (es : List Event) :
    Lockstep ((app accepts).restrict (Alone v)) (ownApp accepts) (SameFor v) .launch .launch
      es := by
  refine Lockstep.of_simulation (R := fun w c => SameFor v w c ∧ Present w) (fun _ _ h => h.1) ?_
    ⟨.launch v, .launch⟩
  rintro w c e ⟨hwc, hp⟩ ⟨he, hcopy, hv⟩
  have hw : c.world = w := congrArg OwnWorld.world hwc
  have hen : c.enabled e := ⟨hcopy, by rw [hw]; exact he⟩
  refine ⟨hen, ?_⟩
  simp only [app, ownApp, restrict, OwnWorld.step, hw]
  cases hn : e.handler w with
  | none =>
    cases hs : w.step accepts e with
    | error t => exact .inl ⟨t, rfl, rfl⟩
    | ok w' =>
      refine .inr ⟨w', _, rfl, rfl, ?_, hp.step he hs⟩
      simp only [SameFor, step_player_of_handler hn he hs]
      rw [hwc]
  | some u =>
    obtain rfl := hv u hn
    simp only [hp.goneTick he, Bool.false_eq_true, if_false, hwc.load]
    cases hs : w.step accepts e with
    | error t => exact .inl ⟨t, rfl, rfl⟩
    | ok w' => exact .inr ⟨w', _, rfl, rfl, hwc.store, hp.step he hs⟩

/-- A second view is mounted and never used; the first one has a full-screen session, is unmounted,
and its observer ticks. -/
theorem own_lockstep_session : ∃ w c, Steps (ownApp fun _ => true) .launch
    [.mount, .mount, .property 0 (.url "a"), .property 0 (.play true), .delayedBlock 0,
      .tap 0 .fullScreen, .viewDidAppear, .fullTap .play, .background, .fullTap .fullScreen,
      .viewDismissed, .tap 0 .play, .unmount 0,
      .itemProgress ⟨0, 0⟩ .readyToPlay (.makeMillis 60000) (.makeMillis 1000), .tick ⟨.view 0, 1⟩] c ∧
    c.world = w ∧ c.player 0 = w.env.player ∧ w.mounted 0 = false := by
  obtain ⟨w, hw, hm⟩ := Steps.of_exec_map ((app fun _ => true).restrict (Alone 0)) .launch
    [.mount, .mount, .property 0 (.url "a"), .property 0 (.play true), .delayedBlock 0,
      .tap 0 .fullScreen, .viewDidAppear, .fullTap .play, .background, .fullTap .fullScreen,
      .viewDismissed, .tap 0 .play, .unmount 0,
      .itemProgress ⟨0, 0⟩ .readyToPlay (.makeMillis 60000) (.makeMillis 1000), .tick ⟨.view 0, 1⟩]
    (fun w => w.mounted 0) (a := false) (by decide +kernel)
  obtain ⟨c, hc, rfl⟩ := (own_lockstep 0 _).steps hw
  exact ⟨w, _, hc, rfl, by simp, hm⟩

/-! ## Isolation -/

/-- Every view holds a player it has made itself, and so does every controller. -/
structure OwnSound (c : OwnWorld) : Prop where
  fenced : ∀ a, Fenced a c.world
  player : ∀ v, Within v (c.player v)

theorem OwnSound.launch : OwnSound .launch := ⟨fun _ => .launch, fun v => .none v⟩

theorem Fenced.load {a v : ViewId} {c : OwnWorld} (h : Fenced a c.world) : Fenced a (c.load v) :=
  { h with }

theorem Event.uses_of_commands {e : Event} (h : e.commands = true) : e.uses = true := by
  unfold Event.uses
  split
  · rfl
  · exact h

/-- An event of the copy that uses the current player runs a handler of the view it is of. -/
theorem Event.handler_of_uses {e : Event} (hc : e.ofCopy = true) (hu : e.uses = true) :
    ∃ v, ∀ w, e.handler w = some v ∧ ∀ a, e.by a w = decide (v = a) := by
  cases e with
  | property v p | tap v c | delayedBlock v => exact ⟨v, fun w => ⟨rfl, fun a => rfl⟩⟩
  | tick t =>
    obtain ⟨o, n⟩ := t
    cases o with
    | view v => exact ⟨v, fun w => ⟨rfl, fun a => rfl⟩⟩
    | vc k | manager => cases hu
  | mainBlock => cases hc
  | _ => cases hu

/-- Over its own player, no view uses that of another. -/
theorem OwnSound.apart {a v : ViewId} {c : OwnWorld} {e : Event} (h : OwnSound c)
    (hc : e.ofCopy = true) (hv : e.handler c.world = some v) : Apart a (c.load v) e := by
  have hby : e.uses = true → e.by a (c.load v) = decide (v = a) := by
    intro hu
    obtain ⟨u, hw⟩ := Event.handler_of_uses hc hu
    obtain rfl : u = v := Option.some.inj ((hw c.world).1.symm.trans hv)
    exact (hw _).2 a
  constructor
  · intro hb hcmd
    obtain rfl : v = a := of_decide_eq_true ((hby (Event.uses_of_commands hcmd)).symm.trans hb)
    exact h.player v
  · intro hb hu x hx
    have hva : v ≠ a := of_decide_eq_false ((hby hu).symm.trans hb)
    have hxv : x.view = v := of_decide_eq_true (h.player v x hx)
    exact decide_eq_false (by rw [hxv]; exact hva)

theorem apart_of_handler {a : ViewId} {w : World} {e : Event} (hc : e.ofCopy = true)
    (hn : e.handler w = none) : Apart a w e := by
  have hu : e.uses ≠ true := by
    intro hu
    obtain ⟨v, hw⟩ := Event.handler_of_uses hc hu
    exact Option.some_ne_none v ((hw w).1.symm.trans hn)
  exact ⟨fun _ hcmd => absurd (Event.uses_of_commands hcmd) hu, fun _ h => absurd h hu⟩

/-- After a handler of `v` the player of `v` is one it has made. -/
theorem OwnSound.within_store {accepts : String → Bool} {c : OwnWorld} {v : ViewId} {w : World}
    {e : Event} (h : OwnSound c) (hv : e.handler c.world = some v) (he : (c.load v).enabled e)
    (hs : (c.load v).step accepts e = .ok w) : Within v w.env.player := by
  obtain hp | ⟨u, _, rfl, hp⟩ | ⟨k, rfl, hk, hp⟩ := step_player he hs
  · rw [hp]; exact h.player v
  · obtain rfl : u = v := Option.some.inj hv
    intro x hx
    obtain rfl := Option.some.inj (hp.symm.trans hx)
    exact decide_eq_true rfl
  · -- a session hands back the player of its own view
    have hd : (c.world.vcs k).delegate = v := by
      have hk : c.world.screen.vc = some k := hk
      simpa [Event.handler, hk] using hv
    have hkv : k.view = v := ((h.fenced v).delegate k hk).symm.trans hd
    rw [hp]
    exact (h.fenced v).inside k (decide_eq_true hkv)

theorem OwnSound.step {accepts : String → Bool} {c d : OwnWorld} {e : Event} (h : OwnSound c)
    (he : c.enabled e) (hs : c.step accepts e = .ok d) : OwnSound d := by
  obtain ⟨hn, hw, hp⟩ | ⟨_, rfl⟩ | ⟨v, w, hv, _, hen, hw, rfl⟩ := own_step_ok he hs
  · exact ⟨fun a => (h.fenced a).step he.2 (apart_of_handler he.1 hn) hw,
      fun v => by rw [hp]; exact h.player v⟩
  · exact h
  · refine ⟨fun a => (h.fenced a).load.step hen (h.apart he.1 hv) hw, fun u => ?_⟩
    by_cases hu : u = v
    · subst hu
      simpa [OwnWorld.store] using h.within_store hv hen hw
    · simpa [OwnWorld.store, Function.update_of_ne hu] using h.player u

/-- `d` is `c` without `a`, whatever is left where the handlers find their players. -/
def OwnWithout (a : ViewId) (c d : OwnWorld) : Prop :=
  ∃ q, d = ⟨c.world.without a q, erase (· = a) none c.player⟩

section Without

variable {accepts : String → Bool} {a v : ViewId} {q : Option PlayerId} {c c' d : OwnWorld}
  {w : World} {e : Event}

/-- Without another view, `v` finds the player it finds with it. -/
theorem OwnWithout.load (h : OwnWithout a c d) (hv : v ≠ a) :
    d.load v = (c.load v).without a (c.player v) := by
  obtain ⟨q, rfl⟩ := h
  have hp : erase (· = a) none c.player v = c.player v := erase_of_not (decide_eq_false hv)
  simp only [OwnWorld.load, hp]
  rfl

/-- Whose event it is that runs a handler of `v`. -/
theorem by_of_handler (hi : Fenced a w) (hv : e.handler w = some v) :
    e.by a w = decide (v = a) := by
  cases e with
  | property u p | tap u p | delayedBlock u => cases hv; rfl
  | tick t =>
    obtain ⟨o, n⟩ := t
    cases o with
    | view u => cases hv; rfl
    | vc k | manager => cases hv
  | viewDismissed =>
    obtain ⟨k, hk, hd⟩ := Option.map_eq_some_iff.mp hv
    simp [Event.by, hk, VcId.of, ← hd, hi.delegate k hk]
  | _ => cases hv

/-- An event that runs no handler of a view. -/
theorem idle_without (hi : Fenced a w) (hc : e.ofCopy = true) (hn : e.handler w = none)
    (he : w.enabled e) (hb : e.by a w = false) :
    (w.without a q).step accepts e = (w.step accepts e).map (·.without a q) := by
  have hu : e.uses = true → w.env.player = q ∧ Avoids a q := by
    intro hu
    obtain ⟨v, hw⟩ := Event.handler_of_uses hc hu
    exact absurd ((hw w).1.symm.trans hn) (Option.some_ne_none v)
  cases e with
  | mount => exact mount_without
  | unmount v => rfl
  | viewDismissed =>
    -- a session that can end has a delegate
    cases hsc : w.screen with
    | dismissing k => simp [Event.handler, hsc, Screen.vc] at hn
    | inline | presenting k | presented k => simp only [World.enabled, hsc] at he
  | property v p | tap v p | delayedBlock v => cases hn
  | _ => exact quiet_without hi rfl hb hu

/-- What a view does is not seen without it, whoever is current there. -/
theorem step_hidden (hi : Fenced a w) (he : w.enabled e) (hb : e.by a w = true) (hg : Apart a w e)
    {w' : World} (h : w.step accepts e = .ok w') : w'.without a q = w.without a q := by
  obtain ⟨q', hst⟩ : ∃ q', Stands a q' w := by
    by_cases ha : Avoids a w.env.player
    · exact ⟨_, ha, .inl rfl⟩
    · have hx : ∃ x, w.env.player = some x ∧ x.of a = true := by simpa [Avoids] using ha
      exact ⟨none, .none a, .inr hx⟩
  exact congrArg (fun u : World => { u with env := { u.env with player := q } })
    (step_own hi hst he hb hg h).2

/-- What `a` does is not seen without it. -/
theorem OwnWithout.hide (hi : OwnSound c) (h : OwnWithout a c d) (he : c.enabled e)
    (hb : e.by a c.world = true) (hs : c.step accepts e = .ok c') : OwnWithout a c' d := by
  obtain ⟨q, rfl⟩ := h
  obtain ⟨hn, hw, hp⟩ | ⟨_, rfl⟩ | ⟨v, w, hv, _, hen, hw, rfl⟩ := own_step_ok he hs
  · exact ⟨q, by rw [step_hidden (hi.fenced a) he.2 hb (apart_of_handler he.1 hn) hw, hp]⟩
  · exact ⟨q, rfl⟩
  · obtain rfl : v = a := of_decide_eq_true ((by_of_handler (hi.fenced a) hv).symm.trans hb)
    have hown : w.without v q = (c.load v).without v q :=
      step_hidden (hi.fenced v).load hen (by cases e <;> exact hb) (hi.apart he.1 hv) hw
    have hp : erase (· = v) none (Function.update c.player v w.env.player) =
        erase (· = v) none c.player := erase_update_own (decide_eq_true rfl)
    refine ⟨q, ?_⟩
    simp only [OwnWorld.store, hown, hp]
    rfl

theorem handler_without (hb : e.by a w = false) : e.handler (w.without a q) = e.handler w := by
  cases e with
  | viewDismissed =>
    simp only [Event.handler, w.screen_without (q := q) hb]
    cases hk : w.screen.vc with
    | none => rfl
    | some k =>
      have hka : k.of a = false := by simpa [Event.by, hk] using hb
      simp [World.without, hka]
  | tick t =>
    obtain ⟨o, n⟩ := t
    cases o <;> rfl
  | _ => rfl

theorem goneTick_without (hb : e.by a w = false) : e.goneTick (w.without a q) = e.goneTick w := by
  cases e with
  | tick t =>
    obtain ⟨o, n⟩ := t
    cases o with
    | view v =>
      have hv : v ≠ a := by simpa [Event.by, Handle.of, Owner.of] using hb
      simp only [Event.goneTick, w.viewAlive_without hv]
    | vc k | manager => rfl
  | _ => rfl

/-- What another view does, it does without `a`. -/
theorem OwnWithout.keep (hi : OwnSound c) (h : OwnWithout a c d) (he : c.enabled e)
    (hb : e.by a c.world = false) (hs : c.step accepts e = .ok c') :
    d.enabled e ∧ ∃ d', d.step accepts e = .ok d' ∧ OwnWithout a c' d' := by
  have hload : ∀ {v}, v ≠ a → d.load v = (c.load v).without a (c.player v) := h.load
  obtain ⟨q, rfl⟩ := h
  refine ⟨⟨he.1, enabled_without hb he.2⟩, ?_⟩
  simp only [OwnWorld.step, handler_without hb, goneTick_without hb]
  obtain ⟨hn, hw, hp⟩ | ⟨hg, rfl⟩ | ⟨v, w, hv, hg, hen, hw, rfl⟩ := own_step_ok he hs
  · have hstep : (c.world.without a q).step accepts e =
        (c.world.step accepts e).map (·.without a q) :=
      idle_without (hi.fenced a) he.1 hn he.2 hb
    rw [hw] at hstep
    simp only [hn, hstep]
    exact ⟨_, rfl, q, by rw [hp]⟩
  · obtain ⟨v, n, rfl, -⟩ := goneTick_view hg
    simp only [Event.handler, hg, if_true]
    exact ⟨_, rfl, q, rfl⟩
  · have hva : v ≠ a := of_decide_eq_false ((by_of_handler (hi.fenced a) hv).symm.trans hb)
    have hof : ∀ p, Within v p → Avoids a p := fun p hp x hx =>
      decide_eq_false (by rw [of_decide_eq_true (hp x hx)]; exact hva)
    -- `v` does the same without `a`, and is left with the same player
    have hstands : Stands a (c.player v) (c.load v) := ⟨hof _ (hi.player v), .inl rfl⟩
    obtain ⟨q', hst, hstep⟩ := step_without (hi.fenced a).load hstands hen
      (by cases e <;> exact hb) (hi.apart he.1 hv) hw
    have hq : w.env.player = q' := hst.eq (hof _ (hi.within_store hv hen hw))
    simp only [hv, hg, Bool.false_eq_true, if_false, hload hva, hstep]
    refine ⟨_, rfl, q', ?_⟩
    simp only [OwnWorld.store, ← hq, erase_update (P := (· = a)) (decide_eq_false hva)]
    rfl

end Without

/-- **In the copy two views are isolated**, whatever is done to them. Take away all events of view
`a`: what is left is a run, and it leaves the other views, their controllers, their players and the
commands given by them as they are. -/
theorem own_isolated {accepts : String → Bool} {a : ViewId} {es : List Event} {c : OwnWorld}
    (h : Steps (ownApp accepts) .launch es c) :
    ∃ d, Steps (ownApp accepts) .launch
        ((ownApp accepts).kept (fun c e => !e.by a c.world) .launch es) d ∧
      d.world.env.calls = c.world.env.calls.filter (fun call => !call.caller.of a) ∧
      (∀ v, v ≠ a → d.player v = c.player v ∧ d.world.views v = c.world.views v) ∧
      (∀ k, k.of a = false → d.world.vcs k = c.world.vcs k) ∧
      ∀ p, p.of a = false → d.world.env.players p = c.world.env.players p := by
  obtain ⟨d, hd, -, q, rfl⟩ := h.purge (N := ownApp accepts) (K := fun c e => !e.by a c.world)
    (R := fun c d => OwnSound c ∧ OwnWithout a c d)
    (fun s t e s' hr hk he hs =>
      ⟨hr.1.step he hs, hr.2.hide hr.1 he (by simpa using hk) hs⟩)
    (fun s t e s' hr hk he hs => by
      obtain ⟨hen, t', hs', hr'⟩ := hr.2.keep hr.1 he (by simpa using hk) hs
      exact ⟨hen, t', hs', hr.1.step he hs, hr'⟩)
    .launch ⟨.launch, none, by simp [OwnWorld.launch, World.without_launch, erase_const]⟩
  refine ⟨_, hd, rfl, fun v hv => ⟨?_, ?_⟩, fun k hk => ?_, fun p hp => ?_⟩
  · exact erase_of_not (P := (· = a)) (decide_eq_false hv)
  · exact erase_of_not (P := (· = a)) (decide_eq_false hv)
  · exact erase_of_not (P := fun k : VcId => k.of a) hk
  · exact c.world.env.players_without hp

/-- The updates of the first view that the static player would not survive. -/
theorem own_isolated_pair : ∃ c d, Steps (ownApp fun _ => true) .launch
    [.mount, .mount, .property 1 (.url "a"), .property 1 (.paused false), .property 0 (.url "b"),
      .property 0 (.paused true), .tap 1 .backward, .tap 0 .stop] c ∧
    Steps (ownApp fun _ => true) .launch [.mount, .mount, .property 1 (.url "a"),
      .property 1 (.paused false), .tap 1 .backward] d ∧
    d.world.env.players ⟨1, 0⟩ = c.world.env.players ⟨1, 0⟩ := by
  obtain ⟨c, hc, _⟩ := Steps.of_exec_map (ownApp fun _ => true) .launch
    [.mount, .mount, .property 1 (.url "a"), .property 1 (.paused false), .property 0 (.url "b"),
      .property 0 (.paused true), .tap 1 .backward, .tap 0 .stop]
    (fun _ => ()) (a := ()) (by decide +kernel)
  obtain ⟨d, hd, _, _, _, hp⟩ := own_isolated (a := 0) hc
  have hkept : (ownApp fun _ => true).kept (fun c e => !e.by 0 c.world) .launch
      [.mount, .mount, .property 1 (.url "a"), .property 1 (.paused false), .property 0 (.url "b"),
        .property 0 (.paused true), .tap 1 .backward, .tap 0 .stop] =
      [.mount, .mount, .property 1 (.url "a"), .property 1 (.paused false), .tap 1 .backward] := by
    decide +kernel
  rw [hkept] at hd
  exact ⟨c, d, hc, hd, hp ⟨1, 0⟩ rfl⟩

end PsVideo
