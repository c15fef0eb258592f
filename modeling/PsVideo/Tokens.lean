import Mathlib.Data.List.Nodup
import PsVideo.Frame

/-!
# PsVideo.Tokens

The observers of one object and the field for its token. `removeTimeObserver` is only ever sent the
token in the field, so an observer whose token is not there is lost.

* `Tokens`: the observers of one object, apart from everything else.
* `KeepsLost`: an act that loses no token, and finds none again.
* `LosesNone`: what every handler is, except `viewDismissed`.
-/

namespace PsVideo

open Machine

/-! ## The tokens of one object -/

/-- The observers of one object that are registered, the number of tokens it has been given, and its
field. -/
structure Tokens where
  live : List TimeObserver
  count : Nat
  field : Option Handle

namespace Tokens

/-- The observers whose token is not in the field. -/
def lost (c : Tokens) : List TimeObserver := c.live.filter (some ·.token ≠ c.field)

/-- Every token is the object's own and was given once. -/
structure Numbered (o : Owner) (c : Tokens) : Prop where
  field : ∀ t ∈ c.field, t.owner = o
  count : ∀ x ∈ c.live, x.token.serial < c.count
  once : (c.live.map TimeObserver.token).Nodup

def KeepsLost (o : Owner) (c c' : Tokens) : Prop :=
  c.Numbered o → c'.Numbered o ∧ c'.lost = c.lost

variable {o : Owner} {c c' c'' : Tokens}

theorem KeepsLost.refl (c : Tokens) : KeepsLost o c c := fun h => ⟨h, rfl⟩

theorem KeepsLost.trans (h₁ : KeepsLost o c c') (h₂ : KeepsLost o c' c'') : KeepsLost o c c'' := by
  intro h
  obtain ⟨hn, hl⟩ := h₁ h
  obtain ⟨hn', hl'⟩ := h₂ hn
  exact ⟨hn', hl'.trans hl⟩

/-- `addPeriodicTimeObserver` of `p`, its token in the field. -/
def add (o : Owner) (c : Tokens) (p : PlayerId) : Tokens :=
  ⟨c.live ++ [⟨⟨o, c.count⟩, p⟩], c.count + 1, some ⟨o, c.count⟩⟩

/-- Whatever the field held is lost. -/
theorem Numbered.add (h : c.Numbered o) (p : PlayerId) :
    (c.add o p).Numbered o ∧ (c.add o p).lost = c.live := by
  have hnew : ∀ x ∈ c.live, x.token ≠ ⟨o, c.count⟩ := by
    intro x hx heq
    have hlt := h.count x hx
    rw [heq] at hlt
    exact Nat.lt_irrefl _ hlt
  refine ⟨⟨(fun t ht => by cases ht; rfl), fun x hx => ?_, ?_⟩, ?_⟩
  · rcases List.mem_append.mp hx with hx | hx
    · exact Nat.lt_succ_of_lt (h.count x hx)
    · rw [List.mem_singleton.mp hx]; exact Nat.lt_succ_self _
  · simp only [Tokens.add, List.map_append, List.map_cons, List.map_nil]
    refine List.nodup_append.mpr ⟨h.once, List.pairwise_singleton _ _, fun t ht u hu heq => ?_⟩
    obtain ⟨x, hx, rfl⟩ := List.mem_map.mp ht
    exact hnew x hx (heq.trans (List.mem_singleton.mp hu))
  · simpa [lost, Tokens.add] using hnew

theorem lost_eq_live (h : ∀ t ∈ c.field, ∀ x ∈ c.live, x.token ≠ t) : c.lost = c.live := by
  refine List.filter_eq_self.mpr fun x hx => decide_eq_true fun heq => ?_
  exact h x.token heq.symm x hx rfl

/-- An observer is added while the field is empty. -/
theorem KeepsLost.add (hf : c.field = none) (p : PlayerId) : KeepsLost o c (c.add o p) := by
  intro h
  obtain ⟨hn, hl⟩ := h.add p
  refine ⟨hn, hl.trans (lost_eq_live fun t ht => ?_).symm⟩
  rw [hf] at ht; cases ht

/-- The observer whose token is in the field is removed. -/
theorem KeepsLost.remove {t : Handle} (hf : c.field = some t) (p : PlayerId) :
    KeepsLost o c { c with live := c.live.filter (· ≠ ⟨t, p⟩) } := by
  intro h
  refine ⟨⟨h.field, fun x hx => h.count x (List.mem_of_mem_filter hx),
    h.once.sublist (List.filter_sublist.map _)⟩, ?_⟩
  simp only [lost, List.filter_filter]
  refine List.filter_congr fun x _ => ?_
  by_cases hx : x = ⟨t, p⟩
  · subst hx; simp [hf]
  · simp [hx]

/-- The field is cleared when its token is not registered. -/
theorem KeepsLost.clear (hf : ∀ t ∈ c.field, ∀ x ∈ c.live, x.token ≠ t) :
    KeepsLost o c { c with field := none } := by
  intro h
  refine ⟨⟨fun t ht => by (cases ht), h.count, h.once⟩, ?_⟩
  rw [lost_eq_live hf]
  exact lost_eq_live fun t ht => by cases ht

/-- Once a token has been removed it is not registered with another player. -/
theorem Numbered.removed {t : Handle} {p : PlayerId} (h : c.Numbered o) (ht : ⟨t, p⟩ ∈ c.live) :
    ∀ x ∈ c.live.filter (· ≠ ⟨t, p⟩), x.token ≠ t := by
  intro x hx heq
  obtain ⟨hx, hne⟩ := List.mem_filter.mp hx
  have h1 : x = ⟨t, p⟩ := List.inj_on_of_nodup_map h.once hx ht heq
  simp [h1] at hne

end Tokens

/-- The observers that `o` has registered. -/
def Env.observersOf (e : Env) (o : Owner) : List TimeObserver :=
  e.observers.filter (·.token.owner = o)

def Scope.tokens (s : Scope) : Tokens where
  live := s.env.observersOf s.me
  count := s.env.observerCount s.me
  field := s.self.timeObserver

def World.tokens (w : World) : Owner → Tokens
  | .view v => (w.scope v).tokens
  | .vc k => (w.fullScope k).scope.tokens
  | .manager => ⟨[], 0, none⟩

/-! ## The handlers -/

/-- A handler that drives `p` loses no token. -/
structure LosesNone (p : Option PlayerId) (s s' : Scope) : Prop where
  me : s'.me = s.me
  own : Tokens.KeepsLost s.me s.tokens s'.tokens
  others : s.tokens.Numbered s.me → ∀ o, o ≠ s.me →
    s'.env.observersOf o = s.env.observersOf o ∧ s'.env.observerCount o = s.env.observerCount o
  idle : p = none → s'.env.observers = s.env.observers

/-- No token is added, removed or moved. -/
structure SameTokens (s s' : Scope) : Prop where
  me : s'.me = s.me
  observers : s'.env.observers = s.env.observers
  count : s'.env.observerCount = s.env.observerCount
  field : s'.self.timeObserver = s.self.timeObserver

namespace SameTokens

variable {s s' s'' : Scope}

theorem trans (h₁ : SameTokens s s') (h₂ : SameTokens s' s'') : SameTokens s s'' :=
  ⟨h₂.me.trans h₁.me, h₂.observers.trans h₁.observers, h₂.count.trans h₁.count,
    h₂.field.trans h₁.field⟩

theorem commands {q : Option PlayerId} (h : Commands q s s') : SameTokens s s' :=
  ⟨h.me, h.observers, by rw [h.env], h.timeObserver⟩

theorem tokens (h : SameTokens s s') : s'.tokens = s.tokens := by
  simp only [Scope.tokens, Env.observersOf, h.me, h.observers, h.count, h.field]

theorem others (h : SameTokens s s') (o : Owner) :
    s'.env.observersOf o = s.env.observersOf o ∧ s'.env.observerCount o = s.env.observerCount o := by
  simp only [Env.observersOf, h.observers, h.count, and_self]

end SameTokens

namespace LosesNone

variable {p : Option PlayerId} {s s' s'' : Scope}

theorem same (h : SameTokens s s') : LosesNone p s s' :=
  ⟨h.me, h.tokens ▸ .refl _, fun _ o _ => h.others o, fun _ => h.observers⟩

theorem kept (hm : s'.me = s.me) (ho : s'.env.observers = s.env.observers)
    (hc : s'.env.observerCount = s.env.observerCount)
    (ht : s'.self.timeObserver = s.self.timeObserver) : LosesNone p s s' := same ⟨hm, ho, hc, ht⟩

theorem refl (s : Scope) : LosesNone p s s := kept rfl rfl rfl rfl

theorem trans (h₁ : LosesNone p s s') (h₂ : LosesNone p s' s'') : LosesNone p s s'' where
  me := h₂.me.trans h₁.me
  own := h₁.own.trans (h₁.me ▸ h₂.own)
  others hn o ho := by
    obtain ⟨ho₁, hc₁⟩ := h₁.others hn o ho
    have hn' : s'.tokens.Numbered s'.me := by rw [h₁.me]; exact (h₁.own hn).1
    obtain ⟨ho₂, hc₂⟩ := h₂.others hn' o (by rwa [h₁.me])
    exact ⟨ho₂.trans ho₁, hc₂.trans hc₁⟩
  idle hp := (h₂.idle hp).trans (h₁.idle hp)

theorem commands {q : Option PlayerId} (h : Commands q s s') : LosesNone p s s' :=
  same (.commands h)

theorem startTimer (s : Scope) : LosesNone p s s.startTimer := kept rfl rfl rfl rfl

end LosesNone

theorem Env.observersOf_append (e : Env) (o : Owner) (p : PlayerId) :
    (e.addPeriodicTimeObserver o p).observersOf o =
      e.observersOf o ++ [⟨e.nextToken o, p⟩] := by
  simp [observersOf, addPeriodicTimeObserver, nextToken]

/-- What adding does to the tokens of the object, and to those of the others. -/
theorem Scope.tokens_addTimeObserver (s : Scope) (q : PlayerId) :
    (s.addTimeObserver (some q)).tokens = s.tokens.add s.me q ∧ ∀ o, o ≠ s.me →
      (s.addTimeObserver (some q)).env.observersOf o = s.env.observersOf o ∧
      (s.addTimeObserver (some q)).env.observerCount o = s.env.observerCount o := by
  refine ⟨?_, fun o ho => ⟨?_, ?_⟩⟩
  · simp only [tokens, addTimeObserver, Tokens.add, Env.observersOf_append]
    simp [Env.addPeriodicTimeObserver, Env.nextToken]
  · simp [addTimeObserver, Env.observersOf, Env.addPeriodicTimeObserver, Env.nextToken, Ne.symm ho]
  · simp [addTimeObserver, Env.addPeriodicTimeObserver, Function.update_of_ne ho]

namespace LosesNone

variable {p : Option PlayerId} {s s' : Scope}

theorem addTimeObserver (p : Option PlayerId) (hf : s.self.timeObserver = none) :
    LosesNone p s (s.addTimeObserver p) := by
  cases p with
  | none => exact kept rfl rfl rfl hf.symm
  | some q =>
    obtain ⟨ht, ho⟩ := s.tokens_addTimeObserver q
    exact ⟨rfl, ht ▸ .add hf q, fun _ => ho, (fun h => by cases h)⟩

/-- The one token that a handler removes is the one in the field. -/
theorem removeTimeObserver (h : s.removeTimeObserver p = .ok s') : LosesNone p s s' := by
  unfold Scope.removeTimeObserver at h
  split at h
  · rename_i t q ht
    unfold Env.removeTimeObserver at h
    split at h
    · cases h
    · rename_i hr
      split at hr
      · cases hr; cases h
        refine ⟨rfl, ?_, fun hn o ho => ⟨?_, rfl⟩, (fun hp => by cases hp)⟩
        · have hk := Tokens.KeepsLost.remove (o := s.me) (c := s.tokens) ht q
          simpa only [Scope.tokens, Env.observersOf, List.filter_filter, Bool.and_comm] using hk
        · simp only [Env.observersOf, List.filter_filter]
          refine List.filter_congr fun x _ => ?_
          by_cases hx : x = ⟨t, q⟩
          · subst hx
            simp [hn.field t ht, Ne.symm ho]
          · simp [hx]
      · cases hr
  · cases h; exact refl s

/-- After `removeObservers` the token in the field is not registered. -/
theorem removed (h : s.removeTimeObserver p = .ok s') (hn : s.tokens.Numbered s.me)
    (hp : p = none → s.env.observers = []) : ∀ t ∈ s'.tokens.field, ∀ x ∈ s'.tokens.live,
      x.token ≠ t := by
  unfold Scope.removeTimeObserver at h
  split at h
  · rename_i t q ht
    unfold Env.removeTimeObserver at h
    split at h
    · cases h
    · rename_i hr
      split at hr
      · rename_i hmem
        cases hr; cases h
        intro t' ht' x hx
        have htt : t' = t := Option.some.inj ((Option.mem_def.mp ht').symm.trans ht)
        have hlive : ⟨t, q⟩ ∈ s.tokens.live :=
          List.mem_filter.mpr ⟨hmem, by simpa using hn.field t ht⟩
        rw [htt]
        refine hn.removed hlive x ?_
        simpa only [Scope.tokens, Env.observersOf, List.filter_filter, Bool.and_comm] using hx
      · cases hr
  · rename_i hne
    cases h
    intro t ht x hx
    have hnil : s.env.observers = [] := hp (Option.eq_none_iff_forall_ne_some.mpr fun q hq =>
      hne t q ht hq)
    have hx := (List.mem_filter.mp hx).1
    rw [hnil] at hx
    cases hx

end LosesNone

namespace PsVideoView

variable {s s' : Scope}

theorem playAction_loses (s : Scope) : LosesNone s.env.player s (playAction s) := by
  obtain ⟨_, h⟩ | ⟨_, h⟩ := playAction_commands s
  · rw [h]; exact .commands (.pauseAction s)
  · refine LosesNone.trans ?_ (.commands h)
    unfold addObservers
    split
    · rename_i hf; exact .addTimeObserver _ hf
    · exact .refl s

theorem playBlock_loses (s : Scope) : LosesNone s.env.player s (playBlock s) := by
  have h0 : LosesNone s.env.player s (initVideoPlayer s) := .kept rfl rfl rfl rfl
  exact h0.trans (playAction_loses (initVideoPlayer s))

theorem control_loses {c : Control} (h : control c s = .ok s') : LosesNone s.env.player s s' := by
  cases c with
  | play => cases h; exact playAction_loses s
  | stop => cases h; exact .commands (.stopAction s)
  | forward => exact .commands (.forwardAction h)
  | backward => exact .commands (.backwardAction h)
  | slider x => exact .commands (.sliderAction h)
  | row settings i => exact .commands (.didSelectRowAt h)
  | _ => cases h; exact .kept rfl rfl rfl rfl

theorem timerAction_tokens (s : Scope) : SameTokens s (timerAction s) := by
  unfold timerAction
  split <;> exact ⟨rfl, rfl, rfl, rfl⟩

theorem timeObserverCallback_tokens {alive : Bool} (h : timeObserverCallback alive s = .ok s') :
    SameTokens s s' := by
  have hstart : SameTokens s s.startTimer := ⟨rfl, rfl, rfl, rfl⟩
  obtain ⟨-, rfl⟩ | ⟨_, -, -, hshow⟩ := timeObserverCallback_cases h
  · exact ⟨rfl, rfl, rfl, rfl⟩
  · split at hshow
    · exact .commands (q := none) (.showTimes hshow)
    · exact hstart.trans (.commands (q := none) (.showTimes hshow))

/-- `viewDismissed` adds an observer if the player is playing, whatever the field holds. -/
theorem viewDismissed_tokens (p : PlayerId) (layer : Handle) (quality speed : String) (s : Scope) :
    (viewDismissed p layer quality speed s).tokens =
      (if s.env.isPlaying (some p) then s.tokens.add s.me p else s.tokens) ∧
    ∀ o, o ≠ s.me →
      (viewDismissed p layer quality speed s).env.observersOf o = s.env.observersOf o ∧
      (viewDismissed p layer quality speed s).env.observerCount o = s.env.observerCount o := by
  have h0 : SameTokens s (receive p layer quality speed s) := ⟨rfl, rfl, rfl, rfl⟩
  unfold viewDismissed
  dsimp only
  rw [show (receive p layer quality speed s).env.isPlaying (some p) = s.env.isPlaying (some p) from
    rfl]
  split
  · have h1 : SameTokens s (((receive p layer quality speed s).call (some p) .play).controls
        (·.selectPlay true)) :=
      h0.trans (.commands ((Commands.call (p := some p) _ .play).trans (.controls _ _)))
    have hp : (((receive p layer quality speed s).call (some p) .play).controls
      (·.selectPlay true)).env.player = some p := rfl
    generalize ((receive p layer quality speed s).call (some p) .play).controls
      (·.selectPlay true) = t at h1 hp ⊢
    rw [addTimeObserver, hp]
    obtain ⟨ht, ho⟩ := t.tokens_addTimeObserver p
    -- what comes after the observer leaves it alone
    have h2 : SameTokens (t.addTimeObserver (some p)) (t.addTimeObserver (some p)).startTimer :=
      ⟨rfl, rfl, rfl, rfl⟩
    have h3 : ∀ q q' r d, SameTokens (t.addTimeObserver (some p))
        (((t.addTimeObserver (some p)).startTimer.setVideoSpeed q r).setVideoQuality q' d) :=
      fun q q' r d => (h2.trans (.commands (.setVideoSpeed r _))).trans
        (.commands (.setVideoQuality d _))
    refine ⟨(h3 _ _ _ _).tokens.trans ?_, fun o hne => ?_⟩
    · rw [ht, h1.tokens, h1.me]
    · rw [← h1.me] at hne
      obtain ⟨h4, h5⟩ := (h3 _ _ _ _).others o
      obtain ⟨h6, h7⟩ := ho o hne
      obtain ⟨h8, h9⟩ := h1.others o
      exact ⟨h4.trans (h6.trans h8), h5.trans (h7.trans h9)⟩
  · have h1 : SameTokens s (pauseAction (receive p layer quality speed s)) :=
      h0.trans (.commands (.pauseAction _))
    exact ⟨h1.tokens, fun o _ => h1.others o⟩

end PsVideoView

namespace PsVideoFullViewVC

variable {s s' : FullScope}

theorem on_loses {q : Option PlayerId} {f : Option PlayerId → Scope → Scope}
    (h : LosesNone q s.scope (f s.self.player s.scope)) : LosesNone q s.scope (s.on f).scope := by
  rw [FullScope.on, FullScope.scope_put h.me]
  exact h

theorem tryOn_loses {q : Option PlayerId} {f : Option PlayerId → Scope → Except Trap Scope}
    (hf : ∀ r, f s.self.player s.scope = .ok r → LosesNone q s.scope r) (h : s.tryOn f = .ok s') :
    LosesNone q s.scope s'.scope := by
  obtain ⟨r, hr, rfl⟩ := FullScope.of_tryOn h
  rw [FullScope.scope_put (hf r hr).me]
  exact hf r hr

theorem commands_loses {q : Option PlayerId} {f : Option PlayerId → Scope → Scope}
    (h : Commands s.self.player s.scope (f s.self.player s.scope)) :
    LosesNone q s.scope (s.on f).scope := on_loses (.commands h)

theorem controls_loses {q : Option PlayerId} (f : PsVideoControlsView → PsVideoControlsView)
    (s : FullScope) : LosesNone q s.scope (s.on fun _ => (·.controls f)).scope :=
  on_loses (.kept rfl rfl rfl rfl)

/-- The end of `playAction` and of `viewDidAppear`. -/
theorem start_loses {q : Option PlayerId} (r : String) (d : FullScope → String) (s : FullScope) :
    LosesNone q s.scope (setVideoQuality (d (setVideoSpeed r s)) (setVideoSpeed r s)).scope :=
  (commands_loses (.setVideoSpeed r _)).trans (commands_loses (.setVideoQuality _ _))

theorem play_loses {q : Option PlayerId} (s : FullScope) : LosesNone q s.scope
    ((s.on fun p => (·.call p .play)).on fun _ => (·.controls (·.selectPlay true))).scope :=
  (commands_loses (f := fun p => (·.call p .play)) (.call _ .play)).trans (controls_loses _ _)

theorem playAction_loses (s : FullScope) : LosesNone s.self.player s.scope (playAction s).scope := by
  unfold playAction
  split
  · exact commands_loses (.pauseAction _)
  · refine LosesNone.trans ?_ (start_loses _ (·.self.playerQuality) _)
    refine .trans ?_ (play_loses _)
    split
    · rename_i hf
      exact on_loses (.addTimeObserver _ hf)
    · exact .refl _

theorem viewDidAppear_loses (hf : s.self.timeObserver = none) :
    LosesNone s.self.player s.scope (viewDidAppear s).scope := by
  unfold viewDidAppear
  split
  · refine LosesNone.trans ?_ (start_loses _ (·.self.playerQuality) _)
    refine .trans ?_ (on_loses (.startTimer _))
    exact (play_loses s).trans (on_loses (.addTimeObserver _ hf))
  · exact .refl _

theorem control_loses {c : Control} (h : control c s = .ok s') :
    LosesNone s.self.player s.scope s'.scope := by
  cases c with
  | fullScreen =>
    have h0 : LosesNone s.self.player s.scope
        { s with env := s.env.removeObserver .method .willResignActive }.scope :=
      .kept rfl rfl rfl rfl
    exact h0.trans (tryOn_loses (fun r hr => .removeTimeObserver hr) h)
  | play => cases h; exact playAction_loses s
  | stop => cases h; exact commands_loses (.stopAction _)
  | forward => exact tryOn_loses (fun r hr => .commands (.forwardAction hr)) h
  | backward => exact tryOn_loses (fun r hr => .commands (.backwardAction hr)) h
  | slider x =>
    exact tryOn_loses (f := fun p => (·.sliderAction p x)) (fun r hr => .commands (.sliderAction hr)) h
  | row settings i =>
    exact tryOn_loses (f := fun p => (·.didSelectRowAt p i))
      (fun r hr => .commands (.didSelectRowAt hr)) h
  | settings | videoQuality | controlsView | playerView => cases h; exact .kept rfl rfl rfl rfl

theorem timerAction_tokens (s : FullScope) : SameTokens s.scope (timerAction s).scope := by
  unfold timerAction
  split <;> exact ⟨rfl, rfl, rfl, rfl⟩

theorem timeObserverCallback_tokens (h : timeObserverCallback s = .ok s') :
    SameTokens s.scope s'.scope := by
  obtain ⟨-, rfl⟩ | ⟨_, r, -, hshow, rfl⟩ := timeObserverCallback_cases h
  · exact ⟨rfl, rfl, rfl, rfl⟩
  · have hf : Commands none s.scope r := .showTimes hshow
    rw [FullScope.scope_put hf.me]
    exact .commands hf

end PsVideoFullViewVC

end PsVideo
