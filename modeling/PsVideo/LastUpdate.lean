import PsVideo.PlayButton

/-!
# PsVideo.LastUpdate

Updates of `play` and `paused` without taps. `paused` and `play = false` act at once; `play = true`
schedules a block that calls `playAction`, which toggles. So whether the player plays depends on
what the last immediate update set and on how many blocks have run since, an even or an odd
number, and not on which update came last.
-/

namespace PsVideo

open Machine

/-- The updates of `play` and `paused`, and the blocks. -/
def Event.isUpdate : Event → Bool
  | .property _ (.play _) | .property _ (.paused _) | .delayedBlock _ => true
  | _ => false

/-- What the last update of `play` or `paused` asked for. -/
def Event.wish (b : Option Bool) : Event → Option Bool
  | .property _ (.play p) => some p
  | .property _ (.paused p) => some !p
  | _ => b

def lastWish (es : List Event) : Option Bool := es.foldl Event.wish none

/-- What the last immediate update set, and how many blocks have run since. -/
structure Since where
  plays : Bool := false
  blocks : Nat := 0

def Since.next (a : Since) : Event → Since
  | .property _ (.paused b) => { plays := !b }
  | .property _ (.play false) => {}
  | .delayedBlock _ => { a with blocks := a.blocks + 1 }
  | _ => a

def since (es : List Event) : Since := es.foldl Since.next {}

/-- Played or not, after the blocks have toggled. -/
def Since.now (a : Since) : Bool := if a.blocks % 2 = 0 then a.plays else !a.plays

theorem Since.now_block (a : Since) : { a with blocks := a.blocks + 1 }.now = !a.now := by
  unfold now
  dsimp only
  by_cases h : a.blocks % 2 = 0
  · have h1 : ¬ (a.blocks + 1) % 2 = 0 := by omega
    simp [h, h1]
  · have h1 : (a.blocks + 1) % 2 = 0 := by omega
    simp [h, h1]

/-- An even number of blocks leaves what was set, an odd number turns it over. -/
theorem Since.now_iff (a : Since) (b : Bool) :
    a.now = b ↔ a.blocks % 2 = if a.plays = b then 0 else 1 := by
  unfold now
  by_cases h : a.blocks % 2 = 0
  · cases hp : a.plays <;> cases b <;> simp [h]
  · have h1 : a.blocks % 2 = 1 := by omega
    cases hp : a.plays <;> cases b <;> simp [h1]

/-- A tap on play, and a block, turn the button over. -/
theorem PsVideoView.playAction_button (s : Scope) :
    (playAction s).self.controlsView.playButton.isSelected =
      !s.self.controlsView.playButton.isSelected := by
  unfold playAction
  cases hb : s.self.controlsView.playButton.isSelected with
  | true => rfl
  | false =>
    simp only [Bool.false_eq_true, if_false, Scope.setVideoSpeed_self]
    rfl

theorem buttonSafe_of_isUpdate {w : World} {e : Event} (h : e.isUpdate = true) :
    ButtonSafe w e := by
  cases e with
  | property v p =>
    cases p with
    | play b | paused b => rfl
    | _ => cases h
  | delayedBlock v => rfl
  | _ => cases h

/-- One update or block moves the button as `Since` says. -/
theorem showsPlaying_step {accepts : String → Bool} {w w' : World} {e : Event} {a : Since}
    (hs : Solo w) (hu : e.isUpdate = true) (he : w.enabled e) (h : w.step accepts e = .ok w')
    (ha : w.showsPlaying = a.now) : w'.showsPlaying = (a.next e).now := by
  cases e with
  | property v p =>
    obtain rfl : v = 0 := hs.mounted v he
    cases p with
    | play b =>
      cases b with
      | true => cases h; exact ha
      | false => cases h; rw [World.showsPlaying_put]; rfl
    | paused b =>
      cases b with
      | true => cases h; rw [World.showsPlaying_put]; rfl
      | false => cases h; rw [World.showsPlaying_put]; rfl
    | _ => cases hu
  | delayedBlock v =>
    obtain rfl : v = 0 := hs.delayed v (List.mem_of_mem_head? he)
    cases h
    rw [World.showsPlaying_put]
    calc (PsVideoView.playBlock (w.scope 0)).self.controlsView.playButton.isSelected
        = !w.showsPlaying := PsVideoView.playAction_button (PsVideoView.initVideoPlayer (w.scope 0))
      _ = !a.now := by rw [ha]
      _ = (a.next (.delayedBlock 0)).now := (Since.now_block a).symm
  | _ => cases hu

/-- The invariant along the events handled so far. -/
structure Toggling (es : List Event) (w : World) : Prop where
  solo : Solo w
  inSync : InSync w
  inline : w.screen = .inline
  button : w.showsPlaying = (since es).now

theorem Toggling.step {accepts : String → Bool} {es : List Event} {w w' : World} {e : Event}
    (hi : Toggling es w) (hu : e.isUpdate = true) (he : w.enabled e)
    (h : w.step accepts e = .ok w') : Toggling (es ++ [e]) w' := by
  have h1 : e.oneView = true := by
    cases e with
    | mount | unmount v => cases hu
    | _ => rfl
  have hsc : w'.screen = w.screen := by
    cases e with
    | property v p =>
      cases p with
      | play b | paused b => cases b <;> cases h <;> rfl
      | _ => cases hu
    | delayedBlock v => cases h; rfl
    | _ => cases hu
  refine ⟨hi.solo.step h1 he h, hi.inSync.step hi.solo h1 he (fun _ => buttonSafe_of_isUpdate hu) h,
    hsc.trans hi.inline, ?_⟩
  rw [since, List.foldl_append]
  exact showsPlaying_step hi.solo hu he h hi.button

/-- The events of a run without taps. -/
def UpdateRun (_ : World) (e : Event) : Prop := e.isUpdate = true

instance (w : World) (e : Event) : Decidable (UpdateRun w e) :=
  inferInstanceAs (Decidable (_ = true))

/-- The player plays iff the last update, if there was one, asked for it. -/
def LastWins (es : List Event) (w : World) : Prop :=
  ∀ b ∈ lastWish es, (w.env.rate ≠ 0 ↔ b = true)

/-- The blocks since the last immediate update are an even number if the last update asked for what
that one set, and an odd number if it asked for the opposite. -/
def InStep (es : List Event) : Prop :=
  ∀ b ∈ lastWish es, (since es).blocks % 2 = if (since es).plays = b then 0 else 1

instance (es : List Event) : Decidable (InStep es) :=
  inferInstanceAs (Decidable (∀ b ∈ lastWish es, _))

/-- **When the last update wins.** Once the url has been set, after any sequence of updates of
`play` and `paused` and of the blocks they schedule, in particular once all blocks have run. -/
theorem last_wins_iff {accepts : String → Bool} {u : String} {es : List Event} {w : World}
    (h : Steps ((app accepts).restrict UpdateRun) (.withUrl u) es w) :
    LastWins es w ↔ InStep es := by
  have h0 : Toggling [] (.withUrl u) := ⟨solo_withUrl u, inSync_withUrl u, rfl, rfl⟩
  have hi : Toggling es w :=
    h.traced (fun es s e s' hi he hs => Toggling.step hi he.2 he.1 hs) [] h0
  have hr : w.env.rate ≠ 0 ↔ (since es).now = true := by
    rw [← hi.button]
    exact (hi.inSync.shows hi.inline).symm
  have hb : ∀ b, (w.env.rate ≠ 0 ↔ b = true) ↔
      (since es).blocks % 2 = if (since es).plays = b then 0 else 1 := by
    intro b
    rw [hr, ← Since.now_iff]
    exact Bool.eq_iff_iff.symm
  constructor
  · intro hw b hl
    exact (hb b).mp (hw b hl)
  · intro hs b hl
    exact (hb b).mpr (hs b hl)

theorem last_wins_paused : ∃ w, Steps ((app fun _ => true).restrict UpdateRun) (.withUrl "a")
    [.property 0 (.play true), .delayedBlock 0, .property 0 (.paused true)] w ∧
    LastWins [.property 0 (.play true), .delayedBlock 0, .property 0 (.paused true)] w := by
  obtain ⟨w, hw, _⟩ := Steps.of_exec_map ((app fun _ => true).restrict UpdateRun) (.withUrl "a")
    [.property 0 (.play true), .delayedBlock 0, .property 0 (.paused true)]
    (fun _ => ()) (a := ()) (by decide +kernel)
  exact ⟨w, hw, (last_wins_iff hw).mpr (by decide)⟩

/-- Two blocks toggle the player on and off again, although both updates asked for playing. -/
theorem last_not_wins : ∃ w, Steps (app fun _ => true) (.withUrl "a")
    [.property 0 (.play true), .property 0 (.play true), .delayedBlock 0, .delayedBlock 0] w ∧
    w.delayed = [] ∧ ¬ LastWins [.property 0 (.play true), .property 0 (.play true),
      .delayedBlock 0, .delayedBlock 0] w := by
  obtain ⟨w, hw, hobs⟩ := Steps.of_exec_map (app fun _ => true) (.withUrl "a")
    [.property 0 (.play true), .property 0 (.play true), .delayedBlock 0, .delayedBlock 0]
    (fun w => (w.delayed, w.env.rate)) (a := ([], 0)) (by decide +kernel)
  obtain ⟨hd, hr⟩ := Prod.mk.inj hobs
  exact ⟨w, hw, hd, fun h => (h true rfl).mpr rfl hr⟩

end PsVideo
