import Mathlib.Data.List.Basic

/-!
# PsVideo.Machine

Event-driven machines with traps, independent of any program.

* `Machine`: which events can arrive in a state, and what handling one does: a new state or a
  trap, which ends the run.
* `Steps M s es s'`: handling the events `es` in order leads from `s` to `s'`, none of them
  trapping. Every prefix of a run is a run, so what holds at the end of every run holds in every
  state reached.
* `restrict M G`: the runs of `M` all of whose steps meet the condition `G`.
* `track M f`: `M` with a value that is folded over the events, for a condition on the history.
* `foldAlong`: a value folded over the events and the states they arrive in.
* `exec`: the executable reading of `Steps`, for runs on concrete events.
* `kept`, `Steps.purge`: the two-run rule. A run with hidden events is matched by the run without
  them.
* `Lockstep`: two machines fed the same events show the same after every prefix.
* `CanReach`: what can still come about, by a measure that can be lowered, or never again, by an
  invariant that excludes it.
-/

namespace PsVideo

/-- A machine over states `σ`, events `ε` and traps `τ`. -/
structure Machine (σ ε τ : Type) where
  enabled : σ → ε → Prop
  step : σ → ε → Except τ σ

namespace Machine

variable {σ σ' ε τ : Type} {M : Machine σ ε τ} {N : Machine σ' ε τ}

inductive Steps (M : Machine σ ε τ) : σ → List ε → σ → Prop where
  | refl {s : σ} : Steps M s [] s
  | cons {s s' s'' : σ} {e : ε} {es : List ε} : M.enabled s e → M.step s e = .ok s' →
      Steps M s' es s'' → Steps M s (e :: es) s''

namespace Steps

theorem single {s s' : σ} {e : ε} (he : M.enabled s e) (hs : M.step s e = .ok s') :
    Steps M s [e] s' := .cons he hs .refl

theorem trans {s s' s'' : σ} {es fs : List ε} (h : Steps M s es s') (h' : Steps M s' fs s'') :
    Steps M s (es ++ fs) s'' := by
  induction h with
  | refl => exact h'
  | cons he hs _ ih => exact .cons he hs (ih h')

theorem snoc {s s' s'' : σ} {es : List ε} {e : ε} (h : Steps M s es s') (he : M.enabled s' e)
    (hs : M.step s' e = .ok s'') : Steps M s (es ++ [e]) s'' := h.trans (.single he hs)

/-- A run of two parts passes through a state between them. -/
theorem split {es fs : List ε} : ∀ {s s'' : σ}, Steps M s (es ++ fs) s'' →
    ∃ s', Steps M s es s' ∧ Steps M s' fs s'' := by
  induction es with
  | nil => intro s s'' h; exact ⟨s, .refl, h⟩
  | cons e es ih =>
    intro s s'' h
    cases h with
    | cons he hs hr =>
      obtain ⟨s', h1, h2⟩ := ih hr
      exact ⟨s', .cons he hs h1, h2⟩

theorem nil_inv {s s' : σ} (h : Steps M s [] s') : s' = s := by
  cases h; rfl

theorem single_inv {s s' : σ} {e : ε} (h : Steps M s [e] s') :
    M.enabled s e ∧ M.step s e = .ok s' := by
  cases h with
  | cons he hs hr => cases hr; exact ⟨he, hs⟩

theorem snoc_inv {s s'' : σ} {e : ε} {es : List ε} (h : Steps M s (es ++ [e]) s'') :
    ∃ s', Steps M s es s' ∧ M.enabled s' e ∧ M.step s' e = .ok s'' := by
  obtain ⟨s', h1, h2⟩ := h.split
  exact ⟨s', h1, h2.single_inv⟩

/-- What holds at the start and is kept by every step holds after every run. -/
theorem invariant {I : σ → Prop} {s s' : σ} {es : List ε} (h : Steps M s es s')
    (hstep : ∀ s e s', I s → M.enabled s e → M.step s e = .ok s' → I s') (h0 : I s) : I s' := by
  induction h with
  | refl => exact h0
  | cons he hs _ ih => exact ih (hstep _ _ _ h0 he hs)

/-- The same for a relation between the events handled so far and the state. -/
theorem traced {I : List ε → σ → Prop} {s s' : σ} {es : List ε} (h : Steps M s es s')
    (hstep : ∀ es s e s', I es s → M.enabled s e → M.step s e = .ok s' → I (es ++ [e]) s') :
    ∀ pre, I pre s → I (pre ++ es) s' := by
  induction h with
  | refl => intro pre h0; simpa using h0
  | @cons s s1 s2 e es he hs _ ih =>
    intro pre h0
    have h1 := ih (pre ++ [e]) (hstep _ _ _ _ h0 he hs)
    simpa using h1

end Steps

/-! ## Runs whose steps meet a condition -/

/-- The machine that handles only the events meeting `G` in the state they arrive in. -/
def restrict (M : Machine σ ε τ) (G : σ → ε → Prop) : Machine σ ε τ where
  enabled s e := M.enabled s e ∧ G s e
  step := M.step

instance {G : σ → ε → Prop} {s : σ} {e : ε} [Decidable (M.enabled s e)] [Decidable (G s e)] :
    Decidable ((M.restrict G).enabled s e) := inferInstanceAs (Decidable (_ ∧ _))

theorem Steps.of_restrict {G : σ → ε → Prop} {s s' : σ} {es : List ε}
    (h : Steps (M.restrict G) s es s') : Steps M s es s' := by
  induction h with
  | refl => exact .refl
  | cons he hs _ ih => exact .cons he.1 hs ih

/-! ## A value folded over the events -/

section Track

variable {α : Type} {f : α → ε → α}

/-- `M` together with a value that every event handled moves by `f`. -/
def track (M : Machine σ ε τ) (f : α → ε → α) : Machine (σ × α) ε τ where
  enabled s e := M.enabled s.1 e
  step s e :=
    match M.step s.1 e with
    | .ok s' => .ok (s', f s.2 e)
    | .error t => .error t

instance {s : σ × α} {e : ε} [Decidable (M.enabled s.1 e)] :
    Decidable ((M.track f).enabled s e) := inferInstanceAs (Decidable (M.enabled s.1 e))

theorem track_ok {s s' : σ × α} {e : ε} (h : (M.track f).step s e = .ok s') :
    M.step s.1 e = .ok s'.1 ∧ s'.2 = f s.2 e := by
  simp only [track] at h
  split at h
  · rename_i s1 hs; cases h; exact ⟨hs, rfl⟩
  · cases h

/-- Without the value it is a run of `M`. -/
theorem Steps.of_track {s s' : σ × α} {es : List ε} (h : Steps (M.track f) s es s') :
    Steps M s.1 es s'.1 := by
  induction h with
  | refl => exact .refl
  | cons he hs _ ih => exact .cons he (track_ok hs).1 ih

/-- The value after a run is the fold over its events. -/
theorem Steps.tracked {s s' : σ × α} {es : List ε} (h : Steps (M.track f) s es s') :
    s'.2 = es.foldl f s.2 := by
  induction h with
  | refl => rfl
  | cons _ hs _ ih => rw [ih, (track_ok hs).2, List.foldl_cons]

end Track

/-! ## A value folded over the run -/

/-- `f` sees the state that each event arrives in. -/
def foldAlong {α : Type} (M : Machine σ ε τ) (f : σ → ε → α → α) : σ → List ε → α → α
  | _, [], a => a
  | s, e :: es, a =>
    match M.step s e with
    | .ok s' => foldAlong M f s' es (f s e a)
    | .error _ => a

/-- What every step keeps between the state and the value holds at the end of the run. -/
theorem Steps.foldAlong {α : Type} {f : σ → ε → α → α} {I : σ → α → Prop}
    (hstep : ∀ s e s' a, I s a → M.enabled s e → M.step s e = .ok s' → I s' (f s e a))
    {s s' : σ} {es : List ε} (h : Steps M s es s') : ∀ a, I s a → I s' (M.foldAlong f s es a) := by
  induction h with
  | refl => exact fun _ h0 => h0
  | @cons s s1 s2 e es he hs _ ih =>
    intro a h0
    simp only [Machine.foldAlong, hs]
    exact ih _ (hstep s e s1 a h0 he hs)

/-! ## Executing a run -/

/-- Handle the events in order; `none` when one cannot arrive or traps. -/
def exec (M : Machine σ ε τ) [∀ s e, Decidable (M.enabled s e)] : σ → List ε → Option σ
  | s, [] => some s
  | s, e :: es =>
    if M.enabled s e then
      match M.step s e with
      | .ok s' => exec M s' es
      | .error _ => none
    else none

theorem Steps.of_exec [∀ s e, Decidable (M.enabled s e)] {es : List ε} :
    ∀ {s s' : σ}, M.exec s es = some s' → Steps M s es s' := by
  induction es with
  | nil => intro s s' h; simp only [exec, Option.some.injEq] at h; subst h; exact .refl
  | cons e es ih =>
    intro s s' h
    simp only [exec] at h
    split at h
    · rename_i he
      cases hs : M.step s e with
      | ok s1 => rw [hs] at h; exact .cons he hs (ih h)
      | error t => rw [hs] at h; cases h
    · cases h

/-- A run on concrete events whose end state has the observed value. -/
theorem Steps.of_exec_map (M : Machine σ ε τ) [∀ s e, Decidable (M.enabled s e)] (s : σ)
    (es : List ε) {α : Type} (f : σ → α) {a : α} (h : (M.exec s es).map f = some a) :
    ∃ s', Steps M s es s' ∧ f s' = a := by
  obtain ⟨s', hs, hf⟩ := Option.map_eq_some_iff.mp h
  exact ⟨s', .of_exec hs, hf⟩

/-- The trap that `e` ends in, if any. -/
def trap (M : Machine σ ε τ) (s : σ) (e : ε) : Option τ :=
  match M.step s e with
  | .ok _ => none
  | .error t => some t

theorem step_of_trap {s : σ} {e : ε} {t : τ} (h : M.trap s e = some t) : M.step s e = .error t := by
  unfold trap at h
  split at h
  · cases h
  · rename_i t' ht; cases h; exact ht

/-- A run on concrete events after which `e` can arrive and traps. -/
theorem Steps.of_exec_trap (M : Machine σ ε τ) [∀ s e, Decidable (M.enabled s e)] (s : σ)
    (es : List ε) (e : ε) (t : τ)
    (h : (M.exec s es).map (fun s' => (decide (M.enabled s' e), M.trap s' e)) =
      some (true, some t)) :
    ∃ s', Steps M s es s' ∧ M.enabled s' e ∧ M.step s' e = .error t := by
  obtain ⟨s', hs, hobs⟩ := Steps.of_exec_map M s es _ h
  obtain ⟨he, ht⟩ := Prod.mk.inj hobs
  exact ⟨s', hs, of_decide_eq_true he, step_of_trap ht⟩

/-! ## Hiding events -/

/-- The events of a run that `K` keeps, each judged in the state it arrives in. -/
def kept (M : Machine σ ε τ) (K : σ → ε → Bool) : σ → List ε → List ε
  | _, [] => []
  | s, e :: es =>
    match M.step s e with
    | .ok s' => if K s e then e :: kept M K s' es else kept M K s' es
    | .error _ => []

theorem kept_restrict {G : σ → ε → Prop} {K : σ → ε → Bool} (es : List ε) :
    ∀ s, (M.restrict G).kept K s es = M.kept K s es := by
  induction es with
  | nil => exact fun _ => rfl
  | cons e es ih =>
    intro s
    simp only [kept, show (M.restrict G).step = M.step from rfl, ih]

/-- The two-run rule. `K` says which events are kept, and `R` relates a run to the run without the
others: a hidden step of the first keeps `R`, a kept step can be taken by both and keeps `R`. -/
theorem Steps.purge {K : σ → ε → Bool} {R : σ → σ' → Prop}
    (hhide : ∀ s t e s', R s t → K s e = false → M.enabled s e → M.step s e = .ok s' → R s' t)
    (hkeep : ∀ s t e s', R s t → K s e = true → M.enabled s e → M.step s e = .ok s' →
      N.enabled t e ∧ ∃ t', N.step t e = .ok t' ∧ R s' t')
    {s s' : σ} {es : List ε} (h : Steps M s es s') :
    ∀ t, R s t → ∃ t', Steps N t (M.kept K s es) t' ∧ R s' t' := by
  induction h with
  | refl => intro t ht; exact ⟨t, .refl, ht⟩
  | @cons s s1 s2 e es he hs _ ih =>
    intro t ht
    simp only [kept, hs]
    cases hk : K s e with
    | false =>
      obtain ⟨t', h1, h2⟩ := ih t (hhide _ _ _ _ ht hk he hs)
      exact ⟨t', by simpa using h1, h2⟩
    | true =>
      obtain ⟨hen, t1, hs1, hr1⟩ := hkeep _ _ _ _ ht hk he hs
      obtain ⟨t', h1, h2⟩ := ih t1 hr1
      exact ⟨t', by simpa using Steps.cons hen hs1 h1, h2⟩

/-! ## Two machines fed the same events -/

/-- `s` and `t` are related by `O`, and stay so after every prefix of `es` that can be fed to the
first machine: each event either traps both alike or is handled by both. -/
def Lockstep (M : Machine σ ε τ) (N : Machine σ' ε τ) (O : σ → σ' → Prop) : σ → σ' → List ε → Prop
  | s, t, [] => O s t
  | s, t, e :: es => O s t ∧ (M.enabled s e → N.enabled t e ∧
      ((∃ x, M.step s e = .error x ∧ N.step t e = .error x) ∨
        ∃ s' t', M.step s e = .ok s' ∧ N.step t e = .ok t' ∧ Lockstep M N O s' t' es))

/-- Every step of `M`'s run from `s` along `es` meets `G`. -/
def Along (M : Machine σ ε τ) (G : σ → ε → Prop) : σ → List ε → Prop
  | _, [] => True
  | s, e :: es => M.enabled s e → G s e ∧ ∀ s', M.step s e = .ok s' → Along M G s' es

/-- Conditions that agree wherever the invariant holds and an event can arrive agree along every run
from such a state. -/
theorem Along.congr_of_invariant {I : σ → Prop} {G H : σ → ε → Prop}
    (hstep : ∀ s e s', I s → M.enabled s e → M.step s e = .ok s' → I s')
    (h : ∀ s e, I s → M.enabled s e → (G s e ↔ H s e)) {es : List ε} :
    ∀ {s : σ}, I s → (Along M G s es ↔ Along M H s es) := by
  induction es with
  | nil => exact fun _ => .rfl
  | cons e es ih =>
    intro s hi
    constructor
    · intro ha he
      obtain ⟨hg, hnext⟩ := ha he
      exact ⟨(h s e hi he).mp hg, fun s' hs' => (ih (hstep s e s' hi he hs')).mp (hnext s' hs')⟩
    · intro ha he
      obtain ⟨hg, hnext⟩ := ha he
      exact ⟨(h s e hi he).mpr hg, fun s' hs' => (ih (hstep s e s' hi he hs')).mpr (hnext s' hs')⟩

theorem Lockstep.now {O : σ → σ' → Prop} {s : σ} {t : σ'} {es : List ε}
    (h : Lockstep M N O s t es) : O s t := by
  cases es with
  | nil => exact h
  | cons e es => exact h.1

/-- What the first machine handles in lockstep, the second one handles too. -/
theorem Lockstep.steps {O : σ → σ' → Prop} {s s' : σ} {es : List ε} (h : Steps M s es s') :
    ∀ {t : σ'}, Lockstep M N O s t es → ∃ t', Steps N t es t' ∧ O s' t' := by
  induction h with
  | refl => exact fun hl => ⟨_, .refl, hl⟩
  | cons he hs _ ih =>
    intro t hl
    obtain ⟨hen, ⟨x, hx, _⟩ | ⟨s1, t1, hs1, ht1, hl1⟩⟩ := hl.2 he
    · rw [hs] at hx; cases hx
    · rw [hs] at hs1; cases hs1
      obtain ⟨t', hr, ho⟩ := ih hl1
      exact ⟨t', .cons hen ht1 hr, ho⟩

/-- Two machines related by a simulation are in lockstep. -/
theorem Lockstep.of_simulation {O R : σ → σ' → Prop} (hO : ∀ s t, R s t → O s t)
    (hstep : ∀ s t e, R s t → M.enabled s e → N.enabled t e ∧
      ((∃ x, M.step s e = .error x ∧ N.step t e = .error x) ∨
        ∃ s' t', M.step s e = .ok s' ∧ N.step t e = .ok t' ∧ R s' t'))
    {es : List ε} : ∀ {s : σ} {t : σ'}, R s t → Lockstep M N O s t es := by
  induction es with
  | nil => exact fun h => hO _ _ h
  | cons e es ih =>
    intro s t h
    refine ⟨hO s t h, fun he => ?_⟩
    obtain ⟨hen, htrap | ⟨s', t', hs, ht, hr⟩⟩ := hstep s t e h he
    · exact ⟨hen, .inl htrap⟩
    · exact ⟨hen, .inr ⟨s', t', hs, ht, ih hr⟩⟩

/-- The lockstep rule. If `R` is a simulation relation for the events that meet `G`, and an event
that fails `G` in related states shows a difference at once, then the two machines agree after
every prefix exactly when every step meets `G`. -/
theorem lockstep_iff {O R : σ → σ' → Prop} {G : σ → ε → Prop}
    (hO : ∀ s t, R s t → O s t)
    (hgood : ∀ s t e, R s t → M.enabled s e → G s e → N.enabled t e ∧
      ((∃ x, M.step s e = .error x ∧ N.step t e = .error x) ∨
        ∃ s' t', M.step s e = .ok s' ∧ N.step t e = .ok t' ∧ R s' t'))
    (hbad : ∀ s t e, R s t → M.enabled s e → ¬ G s e →
      ∃ s' t', M.step s e = .ok s' ∧ N.step t e = .ok t' ∧ ¬ O s' t')
    {es : List ε} : ∀ {s : σ} {t : σ'}, R s t → (Lockstep M N O s t es ↔ Along M G s es) := by
  induction es with
  | nil => intro s t h; exact ⟨fun _ => trivial, fun _ => hO s t h⟩
  | cons e es ih =>
    intro s t h
    constructor
    · intro hl he
      by_cases hg : G s e
      · refine ⟨hg, fun s' hs' => ?_⟩
        obtain ⟨_, htrap | ⟨s2, t2, hs2, ht2, hr⟩⟩ := hgood s t e h he hg
        · obtain ⟨x, hx, _⟩ := htrap
          rw [hs'] at hx; cases hx
        · rw [hs'] at hs2; cases hs2
          obtain ⟨_, htrap | ⟨s3, t3, hs3, ht3, hl3⟩⟩ := hl.2 he
          · obtain ⟨x, hx, _⟩ := htrap
            rw [hs'] at hx; cases hx
          · rw [hs'] at hs3; cases hs3
            rw [ht2] at ht3; cases ht3
            exact (ih hr).mp hl3
      · -- the two states differ right after `e`, so the runs were not in lockstep
        obtain ⟨s', t', hs', ht', hno⟩ := hbad s t e h he hg
        obtain ⟨_, htrap | ⟨s2, t2, hs2, ht2, hl2⟩⟩ := hl.2 he
        · obtain ⟨x, hx, _⟩ := htrap
          rw [hs'] at hx; cases hx
        · rw [hs'] at hs2; cases hs2
          rw [ht'] at ht2; cases ht2
          exact absurd hl2.now hno
    · intro ha
      refine ⟨hO s t h, fun he => ?_⟩
      obtain ⟨hg, hnext⟩ := ha he
      obtain ⟨hen, htrap | ⟨s', t', hs', ht', hr⟩⟩ := hgood s t e h he hg
      · exact ⟨hen, .inl htrap⟩
      · exact ⟨hen, .inr ⟨s', t', hs', ht', (ih hr).mpr (hnext s' hs')⟩⟩

/-! ## What can still come about -/

/-- Some run from `s` reaches a state in which `P` holds. -/
def CanReach (M : Machine σ ε τ) (P : σ → Prop) (s : σ) : Prop := ∃ es s', Steps M s es s' ∧ P s'

namespace CanReach

variable {P I : σ → Prop} {s s' : σ}

theorem now (h : P s) : CanReach M P s := ⟨[], s, .refl, h⟩

theorem cons {e : ε} (he : M.enabled s e) (hs : M.step s e = .ok s') (h : CanReach M P s') :
    CanReach M P s := by
  obtain ⟨es, s'', hr, hp⟩ := h
  exact ⟨e :: es, s'', .cons he hs hr, hp⟩

/-- Go on from a state in which `Q` holds. -/
theorem bind {Q : σ → Prop} (h : CanReach M Q s) (hQ : ∀ s', Q s' → CanReach M P s') :
    CanReach M P s := by
  obtain ⟨es, s', hr, hq⟩ := h
  obtain ⟨fs, s'', hr', hp⟩ := hQ s' hq
  exact ⟨es ++ fs, s'', hr.trans hr', hp⟩

theorem of_restrict {G : σ → ε → Prop} (h : CanReach (M.restrict G) P s) : CanReach M P s := by
  obtain ⟨es, s', hr, hp⟩ := h
  exact ⟨es, s', hr.of_restrict, hp⟩

/-- The draining rule: as long as `P` fails, some step lowers the measure and keeps the invariant. -/
theorem of_measure (m : σ → ℕ)
    (hstep : ∀ s, I s → P s ∨ ∃ e s', M.enabled s e ∧ M.step s e = .ok s' ∧ I s' ∧ m s' < m s) :
    ∀ {s : σ}, I s → CanReach M P s := by
  suffices h : ∀ n s, m s = n → I s → CanReach M P s from
    @fun s hi => h _ s rfl hi
  intro n
  induction n using Nat.strongRecOn with
  | ind n ih =>
    intro s hn hi
    obtain hp | ⟨e, s', he, hs, hi', hlt⟩ := hstep s hi
    · exact .now hp
    · exact .cons he hs (ih (m s') (hn ▸ hlt) s' rfl hi')

/-- The rule for what never comes about: every step keeps an invariant that excludes it. -/
theorem never (hstep : ∀ s e s', I s → M.enabled s e → M.step s e = .ok s' → I s')
    (hP : ∀ s, I s → ¬ P s) (hi : I s) : ¬ CanReach M P s := by
  rintro ⟨es, s', hr, hp⟩
  exact hP s' (hr.invariant hstep hi) hp

end CanReach

end Machine

end PsVideo
