import Mathlib.Data.List.Induction
import PsVideo.Retention

/-!
# PsVideo.Background

All that the app does when it enters the background. The inline views are not registered for the
notification; every controller is, from `viewDidLoad` on and for good, so those of the sessions that
have ended pause their players too.
-/

namespace PsVideo

open Machine

def World.pauseVc (w : World) (k : VcId) : World :=
  w.fullPut k (PsVideoFullViewVC.appMovedToBackground (w.fullScope k))

def PsVideoFullViewVC.deselected (c : PsVideoFullViewVC) : PsVideoFullViewVC :=
  { c with controlsView := c.controlsView.selectPlay false }

def World.pauseCall (w : World) (k : VcId) : Option Call :=
  (w.vcs k).player.map fun p => ⟨.vc k, p, .pause⟩

/-- `w'` is `w` after the controllers in `l` have paused, and nothing else has happened. -/
structure Paused (l : List VcId) (w w' : World) : Prop where
  paused : ∀ p, (∃ k ∈ l, (w.vcs k).player = some p) →
    w'.env.players p = { w.env.players p with rate := 0 }
  kept : ∀ p, (∀ k ∈ l, (w.vcs k).player ≠ some p) → w'.env.players p = w.env.players p
  heard : ∀ k ∈ l, w'.vcs k = (w.vcs k).deselected
  unheard : ∀ k, k ∉ l → w'.vcs k = w.vcs k
  calls : w'.env.calls = w.env.calls ++ l.filterMap w.pauseCall
  rest : w' = { w with
    env := { w.env with players := w'.env.players, calls := w'.env.calls }, vcs := w'.vcs }

namespace Paused

variable {l : List VcId} {w w' : World} {k : VcId}

theorem refl (w : World) : Paused [] w w where
  paused p := by rintro ⟨k, hk, _⟩; cases hk
  kept _ _ := rfl
  heard k hk := by cases hk
  unheard _ _ := rfl
  calls := (List.append_nil _).symm
  rest := rfl

theorem player (h : Paused l w w') (j : VcId) : (w'.vcs j).player = (w.vcs j).player := by
  by_cases hj : j ∈ l
  · rw [h.heard j hj]; rfl
  · rw [h.unheard j hj]

theorem pauseVc_players (w : World) (k : VcId) (p : PlayerId) :
    ((w.vcs k).player = some p → (w.pauseVc k).env.players p =
      { w.env.players p with rate := 0 }) ∧
    ((w.vcs k).player ≠ some p → (w.pauseVc k).env.players p = w.env.players p) := by
  have hcall : (w.pauseVc k).env = w.env.call (.vc k) (w.vcs k).player .pause := rfl
  rw [hcall]
  refine ⟨fun hp => ?_, fun hp => ?_⟩
  · rw [hp, Env.players_call]; rfl
  · cases hq : (w.vcs k).player with
    | none => rfl
    | some q =>
      rw [hq] at hp
      exact Env.players_call_of_ne _ _ _ fun heq => hp (by rw [heq])

theorem pauseVc_vcs (w : World) (k : VcId) :
    (w.pauseVc k).vcs = Function.update w.vcs k (w.vcs k).deselected := rfl

theorem snoc (h : Paused l w w') (k : VcId) : Paused (l ++ [k]) w (w'.pauseVc k) := by
  have hplayers := pauseVc_players w' k
  rw [h.player k] at hplayers
  refine ⟨fun p => ?_, fun p hp => ?_, fun j hj => ?_, fun j hj => ?_, ?_, ?_⟩
  · rintro ⟨j, hj, hp⟩
    by_cases hk : (w.vcs k).player = some p
    · -- pausing a second time changes nothing
      rw [(hplayers p).1 hk]
      by_cases hold : ∃ i ∈ l, (w.vcs i).player = some p
      · rw [h.paused p hold]
      · rw [h.kept p fun i hi hp => hold ⟨i, hi, hp⟩]
    · rw [(hplayers p).2 hk]
      refine h.paused p ⟨j, (List.mem_append.mp hj).resolve_right fun hjk => ?_, hp⟩
      rw [List.mem_singleton.mp hjk] at hp
      exact hk hp
  · rw [(hplayers p).2 (hp k (by simp))]
    exact h.kept p fun j hj => hp j (List.mem_append_left _ hj)
  · rw [pauseVc_vcs]
    by_cases hk : j = k
    · subst hk
      rw [Function.update_self]
      by_cases hj : j ∈ l
      · rw [h.heard j hj]; rfl
      · rw [h.unheard j hj]
    · rw [Function.update_of_ne hk]
      exact h.heard j ((List.mem_append.mp hj).resolve_right fun hjk => hk (List.mem_singleton.mp hjk))
  · rw [pauseVc_vcs, Function.update_of_ne fun hk => hj (by simp [hk])]
    exact h.unheard j fun hjl => hj (List.mem_append_left _ hjl)
  · have hcalls : (w'.pauseVc k).env.calls =
        w'.env.calls ++ [k].filterMap w.pauseCall := by
      have hcall : (w'.pauseVc k).env = w'.env.call (.vc k) (w'.vcs k).player .pause := rfl
      rw [hcall, h.player k]
      cases hq : (w.vcs k).player <;> simp [Env.call, World.pauseCall, hq]
    rw [hcalls, h.calls, List.filterMap_append, List.append_assoc]
  · rw [h.rest]; rfl

theorem foldl (w : World) : Paused l w (l.foldl World.pauseVc w) := by
  induction l using List.reverseRecOn with
  | nil => exact refl w
  | append_singleton l k ih =>
    rw [List.foldl_append]
    exact ih.snoc k

end Paused

/-- Who hears the notification does not change while it is delivered. -/
theorem background_eq (w : World) :
    w.env.registrations.foldl World.notifyBackground w = w.notified.foldl World.pauseVc w := by
  suffices h : ∀ (l : List Registration) (w' : World), w'.vcAlive = w.vcAlive →
      l.foldl World.notifyBackground w' =
        ((l.filterMap Registration.controller).filter w.vcAlive).foldl World.pauseVc w' from
    h _ w rfl
  intro l
  induction l with
  | nil => exact fun _ _ => rfl
  | cons r l ih =>
    intro w' ha
    have hone : (w'.notifyBackground r).vcAlive = w.vcAlive := by
      refine (World.vcAlive_congr ?_ ?_ (Quiet.notifyBackground w' r).vcControls).trans ha <;>
      · unfold World.notifyBackground
        split
        · split <;> rfl
        · rfl
    rw [List.foldl_cons, ih _ hone]
    unfold World.notifyBackground
    cases hr : r.controller with
    | none => simp only [List.filterMap_cons, hr]
    | some k =>
      simp only [List.filterMap_cons, hr, ha]
      cases hk : w.vcAlive k with
      | true => rw [List.filter_cons_of_pos hk]; rfl
      | false => rw [List.filter_cons_of_neg (by simp [hk])]; rfl

/-- Every controller ever made, once. -/
theorem background_ok {accepts : String → Bool} {es : List Event} {w w' : World}
    (h : Steps (app accepts) .launch es w) (hs : w.step accepts .background = .ok w') :
    Paused w.notified w w' ∧ w.notified.Nodup ∧ ∀ k, k ∈ w.notified ↔ w.Made k := by
  have hi := Retained.reached h
  rw [World.step, background_eq] at hs
  rw [← Except.ok.inj hs]
  refine ⟨.foldl w, ?_⟩
  rw [hi.notified]
  exact ⟨hi.once, hi.registered⟩

/-- **What the background does.** In every state reached, entering the background pauses the players
of all controllers ever made, and deselects the play buttons of these; it gives no other command, and
leaves the other players, the views and all else as they are. -/
theorem background_pauses {accepts : String → Bool} {es : List Event} {w : World}
    (h : Steps (app accepts) .launch es w) : ∃ w', w.step accepts .background = .ok w' ∧
      (∀ p, (∃ k, w.Made k ∧ (w.vcs k).player = some p) →
        w'.env.players p = { w.env.players p with rate := 0 }) ∧
      (∀ p, (∀ k, w.Made k → (w.vcs k).player ≠ some p) →
        w'.env.players p = w.env.players p) ∧
      (∀ k, w'.vcs k = if w.Made k then (w.vcs k).deselected else w.vcs k) ∧
      (∃ l : List VcId, l.Nodup ∧ (∀ k, k ∈ l ↔ w.Made k) ∧
        w'.env.calls = w.env.calls ++ l.filterMap w.pauseCall) ∧
      w' = { w with
        env := { w.env with players := w'.env.players, calls := w'.env.calls }, vcs := w'.vcs } := by
  obtain ⟨hp, honce, hmem⟩ := background_ok h rfl
  refine ⟨_, rfl, fun p => ?_, fun p hk => ?_, fun k => ?_, ⟨_, honce, hmem, hp.calls⟩, hp.rest⟩
  · rintro ⟨k, hm, hk⟩
    exact hp.paused p ⟨k, (hmem k).mpr hm, hk⟩
  · exact hp.kept p fun k hn => hk k ((hmem k).mp hn)
  · split
    · rename_i hk; exact hp.heard k ((hmem k).mpr hk)
    · rename_i hk; exact hp.unheard k fun hn => hk ((hmem k).mp hn)

/-- Before the first session the video plays on; after one it is paused, and the inline button stays
selected. -/
theorem background_pauses_session : ∃ w₁ w₁' w₂ w₂', Steps (app fun _ => true) .launch
    [.mount, .property 0 (.url "a"), .property 0 (.play true), .delayedBlock 0] w₁ ∧
    w₁.step (fun _ => true) .background = .ok w₁' ∧ (w₁'.env.players ⟨0, 0⟩).rate = 1 ∧
    Steps (app fun _ => true) .launch [.mount, .property 0 (.url "a"), .property 0 (.play true),
      .delayedBlock 0, .tap 0 .fullScreen, .viewDidAppear, .fullTap .fullScreen, .viewDismissed] w₂ ∧
    w₂.step (fun _ => true) .background = .ok w₂' ∧ (w₂'.env.players ⟨0, 0⟩).rate = 0 ∧
    (w₂'.views 0).controlsView.playButton.isSelected = true := by
  obtain ⟨w₁, hw₁, hobs₁⟩ := Steps.of_exec_map (app fun _ => true) .launch
    [.mount, .property 0 (.url "a"), .property 0 (.play true), .delayedBlock 0]
    (fun w => ((w.env.players ⟨0, 0⟩).rate, w.notified)) (a := (1, [])) (by decide +kernel)
  obtain ⟨hrate, hnone⟩ := Prod.mk.inj hobs₁
  obtain ⟨w₂, hw₂, hobs₂⟩ := Steps.of_exec_map (app fun _ => true) .launch
    [.mount, .property 0 (.url "a"), .property 0 (.play true), .delayedBlock 0,
      .tap 0 .fullScreen, .viewDidAppear, .fullTap .fullScreen, .viewDismissed]
    (fun w => ((w.vcs ⟨0, 0⟩).player, decide (w.Made ⟨0, 0⟩),
      (w.views 0).controlsView.playButton.isSelected))
    (a := (some ⟨0, 0⟩, true, true)) (by decide +kernel)
  simp only [Prod.mk.injEq, decide_eq_true_eq] at hobs₂
  obtain ⟨hplayer, hmade, hbutton⟩ := hobs₂
  obtain ⟨w₁', hs₁, _, hkept, _⟩ := background_pauses hw₁
  obtain ⟨w₂', hs₂, hpaused, _, _, _, hrest⟩ := background_pauses hw₂
  refine ⟨w₁, w₁', w₂, w₂', hw₁, hs₁, ?_, hw₂, hs₂, ?_, ?_⟩
  · rw [hkept ⟨0, 0⟩ fun k hm _ => ?_]
    · exact hrate
    · have hk := (Retained.reached hw₁).notified ▸ ((Retained.reached hw₁).registered k).mpr hm
      rw [hnone] at hk
      cases hk
  · rw [hpaused ⟨0, 0⟩ ⟨_, hmade, hplayer⟩]
  · rw [hrest]; exact hbutton

end PsVideo
