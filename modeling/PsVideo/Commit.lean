import Mathlib.Data.List.Nodup
import PsVideo.Step

/-!
# PsVideo.Commit

The properties of one update. React Native calls the setters of those that have changed one after
the other, in an order that the component does not choose; of the six it knows `url`, `paused` and
`play`, which are the ones that the manager exports.

* `World.commit`: the setters in a given order.
* `SameOutcome`: the same state but for the order of the commands, or the same trap.
* `Effect`: what a setter other than that of `url` does, as data that composes.
* `commit_order`: all orders come to the same exactly if a string is no URL or no two properties
  clash.
-/

namespace PsVideo

open Machine

inductive PropertyName where
  | url
  | paused
  | play
  | stop
  | controls
  | maxBitRate
  deriving DecidableEq

namespace Property

def name : Property → PropertyName
  | .url _ => .url
  | .paused _ => .paused
  | .play _ => .play
  | .stop _ => .stop
  | .controls _ => .controls
  | .maxBitRate _ => .maxBitRate

/-- The commands that the setter gives the current player. -/
def ops : Property → List PlayerOp
  | .paused b => [if b then .pause else .play]
  | .play false => [.pause]
  | .stop _ => [.seek (.makeMillis 0), .pause]
  | .maxBitRate d => [.setPeakBitRate (PsVideo.maxBitRate d)]
  | _ => []

/-- The rate that they leave it at. -/
def rate : Property → Option ℚ
  | .paused b => some (if b then 0 else 1)
  | .play false | .stop _ => some 0
  | _ => none

/-- `p` makes the player that is current and `q` commands it, or they give it different rates. -/
def clash (p q : Property) : Bool :=
  p.name = .url && !q.ops.isEmpty || (p.rate.isSome && q.rate.isSome && p.rate ≠ q.rate)

end Property

/-- The setters of view `v`, in this order. -/
def World.commit (accepts : String → Bool) (v : ViewId) : List Property → World → Except Trap World
  | [], w => .ok w
  | p :: ps, w => (w.setProperty accepts v p).bind (commit accepts v ps)

theorem World.commit_append {accepts : String → Bool} {v : ViewId} {ps qs : List Property} :
    ∀ {w : World},
      w.commit accepts v (ps ++ qs) = (w.commit accepts v ps).bind (commit accepts v qs) := by
  induction ps with
  | nil => exact rfl
  | cons p ps ih =>
    intro w
    simp only [List.cons_append, commit]
    cases w.setProperty accepts v p with
    | error t => rfl
    | ok w₁ => exact ih

/-! ## Outcomes -/

/-- The states differ only in the order of the commands. -/
def World.Reordered (w w' : World) : Prop :=
  ∃ calls, w.env.calls.Perm calls ∧ w' = { w with env := { w.env with calls := calls } }

/-- The app ends up in such states, or in the same trap. -/
def SameOutcome : Except Trap World → Except Trap World → Prop
  | .ok w, .ok w' => w.Reordered w'
  | .error t, .error t' => t = t'
  | _, _ => False

namespace SameOutcome

variable {r r' r'' : Except Trap World}

theorem refl (r : Except Trap World) : SameOutcome r r := by
  cases r with
  | error t => exact rfl
  | ok w => exact ⟨_, .refl _, rfl⟩

theorem symm (h : SameOutcome r r') : SameOutcome r' r := by
  cases r with
  | error t =>
    cases r' with
    | error t' => exact Eq.symm h
    | ok w' => exact h
  | ok w =>
    cases r' with
    | error t' => exact h
    | ok w' =>
      obtain ⟨calls, hp, rfl⟩ := h
      exact ⟨_, hp.symm, rfl⟩

theorem trans (h : SameOutcome r r') (h' : SameOutcome r' r'') : SameOutcome r r'' := by
  cases r with
  | error t =>
    cases r' with
    | error t' => obtain rfl : t = t' := h; exact h'
    | ok w' => exact h.elim
  | ok w =>
    cases r' with
    | error t' => exact h.elim
    | ok w' =>
      cases r'' with
      | error t => exact h'
      | ok w'' =>
        obtain ⟨calls, hp, rfl⟩ := h
        obtain ⟨calls', hp', rfl⟩ := h'
        exact ⟨calls', hp.trans hp', rfl⟩

end SameOutcome

/-! ## Effects -/

/-- The commands that the current player is given, what happens to the controls of the view, and the
number of blocks that are scheduled. -/
structure Effect where
  ops : List PlayerOp
  controls : PsVideoControlsView → PsVideoControlsView
  blocks : Nat

namespace Effect

def none : Effect := ⟨[], id, 0⟩

def after (g f : Effect) : Effect := ⟨f.ops ++ g.ops, g.controls ∘ f.controls, f.blocks + g.blocks⟩

def player (f : Effect) (a : AVPlayer) : AVPlayer := f.ops.foldl PlayerOp.apply a

@[simp] theorem player_after (g f : Effect) (a : AVPlayer) :
    (g.after f).player a = g.player (f.player a) := List.foldl_append

end Effect

def Property.effect (p : Property) : Effect where
  ops := p.ops
  controls := match p with
    | .paused b => (·.selectPlay !b)
    | .play false | .stop _ => (·.selectPlay false)
    | .controls b => (·.hide !b)
    | .maxBitRate d => (·.setQualityTitle d)
    | _ => id
  blocks := match p with
    | .play true => 1
    | _ => 0

def World.affect (w : World) (v : ViewId) (f : Effect) : World :=
  { w with
    env := { w.env with
      players := w.env.player.elim w.env.players fun q =>
        Function.update w.env.players q (f.player (w.env.players q))
      calls := w.env.player.elim w.env.calls fun q => w.env.calls ++ f.ops.map (⟨.view v, q, ·⟩) }
    views := Function.update w.views v { w.views v with
      controlsView := f.controls (w.views v).controlsView }
    delayed := w.delayed ++ List.replicate f.blocks v }

/-- Without commands it does not matter which player is current. -/
theorem World.affect_idle {f : Effect} (h : f.ops = []) (w : World) (v : ViewId) :
    w.affect v f = { w with
      views := Function.update w.views v { w.views v with
        controlsView := f.controls (w.views v).controlsView }
      delayed := w.delayed ++ List.replicate f.blocks v } := by
  have hp : (w.env.player.elim w.env.players fun _ => w.env.players) = w.env.players := by
    cases w.env.player <;> rfl
  have hc : (w.env.player.elim w.env.calls fun _ => w.env.calls) = w.env.calls := by
    cases w.env.player <;> rfl
  simp [World.affect, Effect.player, h, hp, hc]

theorem World.affect_none (w : World) (v : ViewId) : w.affect v .none = w := by
  rw [affect_idle rfl]
  simp [Effect.none]

theorem World.affect_affect (w : World) (v : ViewId) (f g : Effect) :
    (w.affect v f).affect v g = w.affect v (g.after f) := by
  cases hp : w.env.player <;>
    simp [World.affect, Effect.after, Effect.player, hp, List.replicate_append_replicate]

/-- Effects that differ in the order of their commands, where that order makes no difference. -/
theorem World.Reordered.affect {w w' : World} {v : ViewId} {f g : Effect} (h : w.Reordered w')
    (ho : f.ops.Perm g.ops) (hp : ∀ a, f.player a = g.player a) (hc : f.controls = g.controls)
    (hb : f.blocks = g.blocks) : (w.affect v f).Reordered (w'.affect v g) := by
  obtain ⟨calls, hcalls, rfl⟩ := h
  refine ⟨w.env.player.elim calls fun q => calls ++ g.ops.map (⟨.view v, q, ·⟩), ?_, ?_⟩
  · unfold World.affect
    cases w.env.player with
    | none => exact hcalls
    | some q => exact hcalls.append (ho.map _)
  · simp only [World.affect, hp, hc, hb]

theorem setProperty_url {accepts : String → Bool} {v : ViewId} {u : String} (h : accepts u = true)
    (w : World) :
    w.setProperty accepts v (.url u) = .ok { w with env := w.env.makePlayer v u } := if_pos h

theorem setProperty_rejected {accepts : String → Bool} {v : ViewId} {u : String}
    (h : accepts u = false) (w : World) :
    w.setProperty accepts v (.url u) = .error .unwrapNil := if_neg (by simp [h])

/-- A setter that makes no player. -/
theorem setProperty_effect {accepts : String → Bool} {v : ViewId} {p : Property}
    (hp : p.name ≠ .url) (w : World) :
    w.setProperty accepts v p = .ok (w.affect v p.effect) := by
  have ok : ∀ x y : World, x = y → (Except.ok x : Except Trap World) = .ok y :=
    fun _ _ h => congrArg _ h
  cases p with
  | url u => exact absurd rfl hp
  | paused b =>
    cases b <;> refine ok _ _ ?_ <;> cases hq : w.env.player <;>
      simp [World.put, World.scope, World.affect, Property.effect, Property.ops, Effect.player,
        PsVideoView.pauseAction, Scope.pauseAction, Env.call, hq]
  | play b =>
    cases b with
    | false =>
      refine ok _ _ ?_
      cases hq : w.env.player <;>
        simp [World.put, World.scope, World.affect, Property.effect, Property.ops, Effect.player,
          PsVideoView.pauseAction, Scope.pauseAction, Env.call, hq]
    | true =>
      rw [World.affect_idle rfl]
      exact ok _ _ (by simp [Property.effect])
  | stop b =>
    refine ok _ _ ?_
    cases hq : w.env.player <;>
      simp [World.put, World.scope, World.affect, Property.effect, Property.ops, Effect.player,
        Scope.stopAction, Env.call, hq]
  | controls b =>
    rw [World.affect_idle rfl]
    exact ok _ _ (by simp [World.put, World.scope, Scope.controls, Property.effect])
  | maxBitRate d =>
    refine ok _ _ ?_
    cases hq : w.env.player <;>
      simp [World.put, World.scope, World.affect, Property.effect, Property.ops, Effect.player,
        Scope.controls, Scope.setBitRate, Scope.call, Env.call, hq]

/-- What the setters of `ps` do, none of them that of `url`. -/
def effects : List Property → Effect
  | [] => .none
  | p :: ps => (effects ps).after p.effect

theorem effects_ops (ps : List Property) : (effects ps).ops = ps.flatMap Property.ops := by
  induction ps with
  | nil => rfl
  | cons p ps ih =>
    rw [List.flatMap_cons, ← ih]
    rfl

theorem commit_effects {accepts : String → Bool} {v : ViewId} {ps : List Property}
    (hp : ∀ p ∈ ps, p.name ≠ .url) :
    ∀ w : World, w.commit accepts v ps = .ok (w.affect v (effects ps)) := by
  induction ps with
  | nil => exact fun w => by rw [effects, World.affect_none]; rfl
  | cons p ps ih =>
    intro w
    simp only [World.commit, setProperty_effect (hp p List.mem_cons_self), Except.bind, effects,
      ih fun q hq => hp q (List.mem_cons_of_mem _ hq), World.affect_affect]

/-! ## Orders that agree -/

/-- The setters do not read the commands given so far. -/
theorem World.Reordered.setProperty {accepts : String → Bool} {v : ViewId} {w w' : World}
    (h : w.Reordered w') (p : Property) :
    SameOutcome (w.setProperty accepts v p) (w'.setProperty accepts v p) := by
  by_cases hp : p.name = .url
  · cases p with
    | url u =>
      obtain ⟨calls, hc, rfl⟩ := h
      simp only [World.setProperty]
      split
      · exact ⟨calls, hc, rfl⟩
      · exact rfl
    | _ => cases hp
  · rw [setProperty_effect hp, setProperty_effect hp]
    exact h.affect (.refl _) (fun _ => rfl) rfl rfl

/-- Nor do those that follow. -/
theorem SameOutcome.commit {accepts : String → Bool} {v : ViewId} (ps : List Property) :
    ∀ {r r' : Except Trap World}, SameOutcome r r' →
      SameOutcome (r.bind (World.commit accepts v ps)) (r'.bind (World.commit accepts v ps)) := by
  induction ps with
  | nil =>
    intro r r' h
    cases r <;> cases r' <;> exact h
  | cons p ps ih =>
    intro r r' h
    cases r with
    | error t =>
      cases r' with
      | error t' => exact h
      | ok w' => exact h.elim
    | ok w =>
      cases r' with
      | error t' => exact h.elim
      | ok w' => exact ih (World.Reordered.setProperty h p)

/-- What a command does to the rate, the time and the limit does not interfere with the rest. -/
theorem effect_comm {p q : Property} (hn : p.name ≠ q.name) (hp : p.name ≠ .url)
    (hq : q.name ≠ .url) (hc : p.clash q = false) :
    (∀ a, q.effect.player (p.effect.player a) = p.effect.player (q.effect.player a)) ∧
      ∀ c, q.effect.controls (p.effect.controls c) = p.effect.controls (q.effect.controls c) := by
  have seek_limit : ∀ (d : String) (b : Bool) (a : AVPlayer),
      (Property.maxBitRate d).effect.player ((Property.stop b).effect.player a) =
        (Property.stop b).effect.player ((Property.maxBitRate d).effect.player a) := by
    rintro d b ⟨item, rate, error⟩
    cases item <;> rfl
  cases p with
  | url u => exact absurd rfl hp
  | paused b =>
    cases q with
    | url u => exact absurd rfl hq
    | paused b' => exact absurd rfl hn
    | play b' => cases b <;> cases b' <;> first | exact ⟨fun _ => rfl, fun _ => rfl⟩ | cases hc
    | stop b' => cases b <;> first | exact ⟨fun _ => rfl, fun _ => rfl⟩ | cases hc
    | controls b' | maxBitRate d => cases b <;> exact ⟨fun _ => rfl, fun _ => rfl⟩
  | play b =>
    cases q with
    | url u => exact absurd rfl hq
    | play b' => exact absurd rfl hn
    | paused b' => cases b <;> cases b' <;> first | exact ⟨fun _ => rfl, fun _ => rfl⟩ | cases hc
    | stop b' | controls b' | maxBitRate d => cases b <;> exact ⟨fun _ => rfl, fun _ => rfl⟩
  | stop b =>
    cases q with
    | url u => exact absurd rfl hq
    | stop b' => exact absurd rfl hn
    | paused b' => cases b' <;> first | exact ⟨fun _ => rfl, fun _ => rfl⟩ | cases hc
    | play b' => cases b' <;> exact ⟨fun _ => rfl, fun _ => rfl⟩
    | controls b' => exact ⟨fun _ => rfl, fun _ => rfl⟩
    | maxBitRate d => exact ⟨seek_limit d b, fun _ => rfl⟩
  | controls b =>
    cases q with
    | url u => exact absurd rfl hq
    | controls b' => exact absurd rfl hn
    | paused b' | play b' => cases b' <;> exact ⟨fun _ => rfl, fun _ => rfl⟩
    | stop b' | maxBitRate d => exact ⟨fun _ => rfl, fun _ => rfl⟩
  | maxBitRate d =>
    cases q with
    | url u => exact absurd rfl hq
    | maxBitRate d' => exact absurd rfl hn
    | paused b' | play b' => cases b' <;> exact ⟨fun _ => rfl, fun _ => rfl⟩
    | stop b' => exact ⟨fun a => (seek_limit d b' a).symm, fun _ => rfl⟩
    | controls b' => exact ⟨fun _ => rfl, fun _ => rfl⟩

/-- The setter of `url`, and one that commands no player. -/
theorem url_swap {accepts : String → Bool} {v : ViewId} {u : String} {p : Property}
    (hp : p.name ≠ .url) (hc : p.ops = []) (w : World) :
    w.commit accepts v [.url u, p] = w.commit accepts v [p, .url u] := by
  have hset : ∀ w : World, w.setProperty accepts v p = .ok _ := fun w =>
    (setProperty_effect hp w).trans (congrArg _ (World.affect_idle hc w v))
  cases ha : accepts u with
  | false => simp only [World.commit, setProperty_rejected ha, hset, Except.bind]
  | true => simp only [World.commit, setProperty_url ha, hset, Except.bind]

theorem Property.clash_url {u : String} {p : Property} (h : (Property.url u).clash p = false) :
    p.ops = [] := by
  simpa [clash, name, rate] using h

theorem commit_swap {accepts : String → Bool} {v : ViewId} {p q : Property} (hn : p.name ≠ q.name)
    (hpq : p.clash q = false) (hqp : q.clash p = false) (w : World) :
    SameOutcome (w.commit accepts v [p, q]) (w.commit accepts v [q, p]) := by
  by_cases hp : p.name = .url
  · cases p with
    | url u => exact url_swap (Ne.symm hn) (Property.clash_url hpq) w ▸ .refl _
    | _ => cases hp
  by_cases hq : q.name = .url
  · cases q with
    | url u => exact url_swap hn (Property.clash_url hqp) w ▸ .refl _
    | _ => cases hq
  obtain ⟨hplayer, hcontrols⟩ := effect_comm hn hp hq hpq
  simp only [World.commit, setProperty_effect hp, setProperty_effect hq, World.affect_affect,
    Except.bind]
  exact World.Reordered.affect ⟨_, .refl _, rfl⟩ List.perm_append_comm (by simpa using hplayer)
    (funext hcontrols) (Nat.add_comm _ _)

/-- No order of properties that do not clash makes a difference. -/
theorem commit_perm {accepts : String → Bool} {v : ViewId} {ps qs : List Property}
    (h : ps.Perm qs) : (∀ p ∈ ps, ∀ q ∈ ps, p.name = q.name → p = q) →
      (∀ p ∈ ps, ∀ q ∈ ps, p.clash q = false) →
      ∀ w : World, SameOutcome (w.commit accepts v ps) (w.commit accepts v qs) := by
  induction h with
  | nil => exact fun _ _ w => .refl _
  | @cons x ps qs _ ih =>
    intro hn hc w
    simp only [World.commit]
    cases w.setProperty accepts v x with
    | error t => exact .refl _
    | ok w₁ =>
      exact ih (fun p hp q hq => hn p (.tail _ hp) q (.tail _ hq))
        (fun p hp q hq => hc p (.tail _ hp) q (.tail _ hq)) w₁
  | swap x y l =>
    intro hn hc w
    have hx : x ∈ y :: x :: l := by simp
    have hy : y ∈ y :: x :: l := by simp
    by_cases hxy : y = x
    · rw [hxy]; exact .refl _
    · have hswap : SameOutcome (w.commit accepts v [y, x]) (w.commit accepts v [x, y]) :=
        commit_swap (fun heq => hxy (hn y hy x hx heq)) (hc y hy x hx) (hc x hx y hy) w
      rw [show y :: x :: l = [y, x] ++ l from rfl, show x :: y :: l = [x, y] ++ l from rfl,
        World.commit_append, World.commit_append]
      exact hswap.commit l
  | trans h₁ _ ih₁ ih₂ =>
    intro hn hc w
    have hmem : ∀ {p}, p ∈ _ → p ∈ _ := fun {p} => (h₁.mem_iff (a := p)).mpr
    exact (ih₁ hn hc w).trans (ih₂ (fun p hp q hq => hn p (hmem hp) q (hmem hq))
      (fun p hp q hq => hc p (hmem hp) q (hmem hq)) w)

/-! ## A string that is no URL -/

/-- A setter traps only on such a string. -/
theorem setProperty_ok {accepts : String → Bool} {v : ViewId} {p : Property}
    (h : ∀ u, p = .url u → accepts u = true) (w : World) :
    ∃ w', w.setProperty accepts v p = .ok w' := by
  by_cases hp : p.name = .url
  · cases p with
    | url u => exact ⟨_, setProperty_url (h u rfl) w⟩
    | _ => cases hp
  · exact ⟨_, setProperty_effect hp w⟩

/-- Wherever it stands, the app traps. -/
theorem commit_rejected {accepts : String → Bool} {v : ViewId} {ps : List Property} {u : String}
    (hu : .url u ∈ ps) (h : accepts u = false) :
    ∀ w : World, w.commit accepts v ps = .error .unwrapNil := by
  induction ps with
  | nil => cases hu
  | cons p ps ih =>
    intro w
    rw [World.commit]
    by_cases hp : ∃ u, p = .url u ∧ accepts u = false
    · obtain ⟨u', rfl, h'⟩ := hp
      rw [setProperty_rejected h']
      rfl
    · have hne : .url u ≠ p := fun heq => hp ⟨u, heq.symm, h⟩
      obtain ⟨w₁, hw₁⟩ : ∃ w', w.setProperty accepts v p = .ok w' :=
        setProperty_ok (fun u' hu' => by simpa using fun ha => hp ⟨u', hu', ha⟩) w
      rw [hw₁]
      exact ih ((List.mem_cons.mp hu).resolve_left hne) w₁

/-! ## Orders that differ -/

/-- The current player, and that of the session on the screen, have been made. -/
structure Issued (w : World) : Prop where
  current : ∀ p, w.env.player = some p → p.serial < w.env.playerCount p.view
  session : ∀ k, w.screen.vc = some k → ∀ p, (w.vcs k).player = some p →
    p.serial < w.env.playerCount p.view

theorem Issued.launch : Issued .launch where
  current p hp := by cases hp
  session k hk := by cases hk

theorem Issued.step {accepts : String → Bool} {w w' : World} {e : Event} (hi : Issued w)
    (he : w.enabled e) (h : w.step accepts e = .ok w') : Issued w' := by
  cases hq : e.quiet with
  | true =>
    have q := step_quiet hq he h
    refine ⟨fun p hp => ?_, fun k hk p hp => ?_⟩
    · rw [q.playerCount]
      exact hi.current p (q.player.symm.trans hp)
    · rw [q.playerCount]
      exact hi.session k (q.screen.symm.trans hk) p ((q.vcPlayer k).symm.trans hp)
  | false =>
    cases e with
    | mount | unmount v => cases h; exact ⟨hi.current, hi.session⟩
    | property v p =>
      cases p with
      | url u =>
        obtain ⟨_, rfl⟩ := url_ok h
        have hgrow : ∀ x, w.env.playerCount x ≤ (w.env.makePlayer v u).playerCount x := by
          intro x
          by_cases hx : x = v
          · subst hx; simp [Env.makePlayer]
          · simp [Env.makePlayer, Function.update_of_ne hx]
        refine ⟨fun p hp => ?_, fun k hk p hp => (hi.session k hk p hp).trans_le (hgrow _)⟩
        cases hp
        simp [Env.makePlayer, Env.nextPlayer]
      | _ => cases hq
    | tap v c =>
      cases c with
      | fullScreen =>
        obtain ⟨s, layer, _, hf, _, rfl⟩ := fullScreen_ok h
        have hcur : ∀ p, s.env.player = some p → p.serial < s.env.playerCount p.view := by
          rw [hf.player, hf.playerCount]
          exact hi.current
        refine ⟨hcur, fun k hk p hp => ?_⟩
        obtain rfl : w.nextVc v = k := Option.some.inj hk
        simp only [Function.update_self] at hp
        exact hcur p (hf.player.trans hp)
      | _ => cases hq
    | viewDismissed =>
      obtain ⟨k, p, layer, hk, hp, _, rfl⟩ := viewDismissed_ok he h
      have hf := PsVideoView.viewDismissed_frame p layer
        (w.vcs k).controlsView.videoQualityButton.title
        (w.vcs k).controlsView.settingsButton.title (w.scope (w.vcs k).delegate)
      refine ⟨fun x hx => ?_, fun j hj => by cases hj⟩
      obtain rfl : p = x := Option.some.inj (hf.player.symm.trans hx)
      exact (hi.session k hk p hp).trans_eq (congrFun hf.playerCount _).symm
    | delayedBlock v =>
      cases h
      have hf := PsVideoView.playBlock_frame (w.scope v)
      refine ⟨fun p hp => ?_, fun k hk p hp => ?_⟩
      · exact (hi.current p (hf.player.symm.trans hp)).trans_eq (congrFun hf.playerCount _).symm
      · exact (hi.session k hk p hp).trans_eq (congrFun hf.playerCount _).symm
    | _ => cases hq

theorem Issued.reached {accepts : String → Bool} {es : List Event} {w : World}
    (h : Steps (app accepts) .launch es w) : Issued w :=
  h.invariant (fun _ _ _ hi he hs => hi.step he hs) .launch

/-- The setter of `url` first and last: the other properties command the new player, or the old. -/
theorem order_url {accepts : String → Bool} {v : ViewId} {u : String} {ps : List Property}
    {w : World} (hi : Issued w) (ha : accepts u = true) (hps : ∀ p ∈ ps, p.name ≠ .url)
    (h : SameOutcome (w.commit accepts v (.url u :: ps)) (w.commit accepts v (ps ++ [.url u]))) :
    (effects ps).ops = [] := by
  have hfirst : w.commit accepts v (.url u :: ps) =
      .ok (World.affect { w with env := w.env.makePlayer v u } v (effects ps)) := by
    rw [World.commit, setProperty_url ha]
    exact commit_effects hps _
  have hlast : w.commit accepts v (ps ++ [.url u]) = .ok { w.affect v (effects ps) with
      env := (w.affect v (effects ps)).env.makePlayer v u } := by
    rw [World.commit_append, commit_effects hps]
    exact congrArg (·.bind .ok) (setProperty_url ha _)
  rw [hfirst, hlast] at h
  obtain ⟨calls, hperm, heq⟩ := h
  obtain rfl := congrArg (fun w' : World => w'.env.calls) heq
  by_contra hne
  obtain ⟨op, hop⟩ := List.exists_mem_of_ne_nil _ hne
  cases hq : w.env.player with
  | none =>
    -- the old player is missing, and the commands with it
    have hlen := hperm.length_eq
    simp [World.affect, Env.makePlayer, hq] at hlen
    exact hne hlen
  | some q =>
    simp only [World.affect, Env.makePlayer, hq, Option.elim_some,
      List.perm_append_left_iff] at hperm
    have hmem := hperm.mem_iff.mp (List.mem_map_of_mem hop)
    obtain ⟨_, _, hcall⟩ := List.mem_map.mp hmem
    have hnew : q = w.env.nextPlayer v := congrArg Call.player hcall
    have hlt := hi.current q hq
    rw [hnew] at hlt
    exact Nat.lt_irrefl _ hlt

/-- The last rate set is the one that the play button shows. -/
theorem effects_selected (ps : List Property) : ∀ c : PsVideoControlsView,
    ((effects ps).controls c).playButton.isSelected =
      ((ps.filterMap Property.rate).getLast?).elim c.playButton.isSelected (· ≠ 0) := by
  have hone : ∀ (p : Property) (c : PsVideoControlsView),
      (p.effect.controls c).playButton.isSelected =
        p.rate.elim c.playButton.isSelected (· ≠ 0) := by
    intro p c
    cases p with
    | paused b | play b => cases b <;> rfl
    | _ => rfl
  induction ps with
  | nil => exact fun _ => rfl
  | cons p ps ih =>
    intro c
    have hcons : (effects (p :: ps)).controls c = (effects ps).controls (p.effect.controls c) := rfl
    rw [hcons, ih, hone]
    cases hp : p.rate with
    | none => simp [hp]
    | some r =>
      rw [List.filterMap_cons_some hp, List.getLast?_cons]
      cases (ps.filterMap Property.rate).getLast? <;> rfl

theorem Property.rate_eq {p : Property} {r : ℚ} (h : p.rate = some r) :
    r = 0 ∨ r = 1 ∧ p = .paused false := by
  cases p with
  | paused b => cases b <;> cases h <;> simp
  | play b => cases b <;> cases h; exact .inl rfl
  | stop b => cases h; exact .inl rfl
  | _ => cases h

/-- `paused = false` before and after one that stops the player. -/
theorem order_rate {accepts : String → Bool} {v : ViewId} {ps : List Property} {w : World}
    (hps : ∀ p ∈ ps, p.name ≠ .url) (hone : .paused false ∉ ps) (hc : ∃ p ∈ ps, p.rate = some 0) :
    ¬ SameOutcome (w.commit accepts v (.paused false :: ps))
      (w.commit accepts v (ps ++ [.paused false])) := by
  intro h
  have hpaused : (Property.paused false).name ≠ .url := by simp [Property.name]
  have hfirst : ∀ p ∈ .paused false :: ps, p.name ≠ .url :=
    List.forall_mem_cons.mpr ⟨hpaused, hps⟩
  have hlast : ∀ p ∈ ps ++ [.paused false], p.name ≠ .url := fun p hp =>
    hfirst p ((List.perm_append_singleton _ ps).mem_iff.mp hp)
  rw [commit_effects hfirst, commit_effects hlast] at h
  obtain ⟨calls, _, heq⟩ := h
  have hbutton := congrArg
    (fun w' : World => (w'.views v).controlsView.playButton.isSelected) heq
  obtain ⟨p, hp, hp0⟩ := hc
  have hmem : (0 : ℚ) ∈ ps.filterMap Property.rate := List.mem_filterMap.mpr ⟨p, hp, hp0⟩
  obtain ⟨r, hr⟩ := Option.ne_none_iff_exists'.mp fun hnil =>
    List.ne_nil_of_mem hmem (List.getLast?_eq_none_iff.mp hnil)
  obtain ⟨x, hx, hxr⟩ := List.mem_filterMap.mp (List.mem_of_getLast? hr)
  have hr0 : r = 0 := (Property.rate_eq hxr).resolve_right fun hx1 => hone (hx1.2 ▸ hx)
  simp [World.affect, effects_selected, Property.rate, List.getLast?_cons, hr, hr0] at hbutton

section Orders

variable {accepts : String → Bool} {v : ViewId} {w : World} {ps : List Property}

/-- The other properties of an update have other names. -/
theorem name_of_mem_erase (hn : (ps.map Property.name).Nodup) {x y : Property} (hx : x ∈ ps)
    (hy : y ∈ ps.erase x) : y.name ≠ x.name := fun heq => by
  have hy' := (List.Nodup.of_map _ hn).mem_erase_iff.mp hy
  exact hy'.1 (List.inj_on_of_nodup_map hn hy'.2 hx heq)

/-- One property is taken out and put first, and last. -/
theorem same_ends
    (h : ∀ qs, ps.Perm qs → SameOutcome (w.commit accepts v ps) (w.commit accepts v qs))
    {x : Property} (hx : x ∈ ps) :
    SameOutcome (w.commit accepts v (x :: ps.erase x))
      (w.commit accepts v (ps.erase x ++ [x])) := by
  have hfirst : ps.Perm (x :: ps.erase x) := List.perm_cons_erase hx
  have hlast := hfirst.trans (List.perm_append_singleton x _).symm
  exact (h _ hfirst).symm.trans (h _ hlast)

theorem ops_of_same (hi : Issued w) (hn : (ps.map Property.name).Nodup)
    (ha : ∀ u, .url u ∈ ps → accepts u = true)
    (h : ∀ qs, ps.Perm qs → SameOutcome (w.commit accepts v ps) (w.commit accepts v qs))
    {x y : Property} (hx : x ∈ ps) (hy : y ∈ ps) (hurl : x.name = .url) : y.ops = [] := by
  cases x with
  | url u =>
    by_cases hyx : y = .url u
    · rw [hyx]; rfl
    · have hnone := order_url hi (ha u hx) (fun z hz => name_of_mem_erase hn hx hz)
        (same_ends h hx)
      rw [effects_ops, List.flatMap_eq_nil_iff] at hnone
      exact hnone y ((List.mem_erase_of_ne hyx).mpr hy)
  | _ => cases hurl

theorem rate_of_same (hi : Issued w) (hn : (ps.map Property.name).Nodup)
    (ha : ∀ u, .url u ∈ ps → accepts u = true)
    (h : ∀ qs, ps.Perm qs → SameOutcome (w.commit accepts v ps) (w.commit accepts v qs))
    {x y : Property} (hx : x ∈ ps) (hy : y ∈ ps) (hone : x.rate = some 1) : y.rate ≠ some 0 := by
  intro hzero
  obtain h01 | ⟨_, rfl⟩ := Property.rate_eq hone
  · exact one_ne_zero h01
  · have hy' : y ∈ ps.erase (.paused false) := by
      refine (List.mem_erase_of_ne ?_).mpr hy
      rintro rfl
      cases hzero
    refine order_rate (fun z hz hurl => ?_) (List.Nodup.of_map _ hn).not_mem_erase
      ⟨y, hy', hzero⟩ (same_ends h hx)
    cases ops_of_same hi hn ha h (List.mem_of_mem_erase hz) hx hurl

theorem Property.no_clash {p q : Property} (hurl : p.name = .url → q.ops = [])
    (h01 : p.rate = some 1 → q.rate ≠ some 0) (h10 : q.rate = some 1 → p.rate ≠ some 0) :
    p.clash q = false := by
  refine Bool.or_eq_false_iff.mpr ⟨?_, ?_⟩
  · by_cases hp : p.name = .url
    · simp [hurl hp]
    · simp [hp]
  · cases hp : p.rate with
    | none => rfl
    | some r =>
      cases hq : q.rate with
      | none => rfl
      | some r' =>
        rw [hp, hq] at h01 h10
        obtain rfl | ⟨rfl, _⟩ := Property.rate_eq hp <;>
          obtain rfl | ⟨rfl, _⟩ := Property.rate_eq hq
        · simp
        · exact absurd rfl (h10 rfl)
        · exact absurd rfl (h01 rfl)
        · simp

/-- **When the order matters.** In every state that a run reaches, and for the properties of one
update, each named once: all orders of the setters come to the same trap, or to the same state with
the same commands in some order, exactly if one of the strings is no URL or no two of the properties
clash. -/
theorem commit_order {es : List Event} (h : Steps (app accepts) .launch es w)
    (hn : (ps.map Property.name).Nodup) :
    (∀ qs, ps.Perm qs → SameOutcome (w.commit accepts v ps) (w.commit accepts v qs)) ↔
      (∃ u, .url u ∈ ps ∧ accepts u = false) ∨ ∀ p ∈ ps, ∀ q ∈ ps, p.clash q = false := by
  have hi := Issued.reached h
  constructor
  · intro hsame
    refine or_iff_not_imp_left.mpr fun hrej p hp q hq => ?_
    have ha : ∀ u, .url u ∈ ps → accepts u = true := fun u hu => by
      simpa using fun hfalse => hrej ⟨u, hu, hfalse⟩
    exact Property.no_clash (ops_of_same hi hn ha hsame hp hq)
      (rate_of_same hi hn ha hsame hp hq) (rate_of_same hi hn ha hsame hq hp)
  · rintro (⟨u, hu, hrej⟩ | hc) qs hperm
    · rw [commit_rejected hu hrej, commit_rejected (hperm.mem_iff.mp hu) hrej]
      exact .refl _
    · exact commit_perm hperm (fun p hp q hq => List.inj_on_of_nodup_map hn hp hq) hc w

end Orders

/-- The two properties that `App.js` sets do not clash; `url` and `paused` do. -/
theorem commit_order_two : ∃ w, Steps (app fun _ => true) .launch [.mount] w ∧
    SameOutcome (w.commit (fun _ => true) 0 [.url "a", .play true])
      (w.commit (fun _ => true) 0 [.play true, .url "a"]) ∧
    ¬ ∀ qs, [.url "a", .paused false].Perm qs →
      SameOutcome (w.commit (fun _ => true) 0 [.url "a", .paused false])
        (w.commit (fun _ => true) 0 qs) := by
  obtain ⟨w, hw, _⟩ := Steps.of_exec_map (app fun _ => true) .launch [.mount] (fun _ => ())
    (a := ()) rfl
  refine ⟨w, hw, ?_, fun h => ?_⟩
  · exact (commit_order hw (by decide)).mpr (.inr (by decide +kernel)) _ (.swap _ _ _)
  · obtain ⟨u, _, hu⟩ | hc := (commit_order hw (by decide)).mp h
    · cases hu
    · cases hc (.url "a") (by simp) (.paused false) (by simp)

end PsVideo
