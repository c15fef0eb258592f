import PsVideo.Step

/-!
# PsVideo.OneView

The app with one `PsVideoView`. `World.oneView` is the state after its mounting, and a run of one
view has no event that mounts or unmounts. `Solo` is what this gives: the view, every delayed
block and every full-screen controller's delegate is view 0.
-/

namespace PsVideo

open Machine

def Event.oneView : Event → Bool
  | .mount | .unmount _ => false
  | _ => true

/-- One mounted view and nothing else. -/
def World.oneView : World :=
  { World.launch with
    views := Function.update World.launch.views 0 (PsVideoView.setup (.view 0) PsVideoView.init)
    mounted := Function.update World.launch.mounted 0 true
    nextView := 1 }

/-- The one view with its url set for the first time. -/
def World.withUrl (u : String) : World :=
  { World.oneView with env := World.oneView.env.makePlayer 0 u }

structure Solo (w : World) : Prop where
  mounted : ∀ v, w.mounted v = true → v = 0
  delayed : ∀ v ∈ w.delayed, v = 0
  delegate : ∀ k, (w.vcs k).delegate = 0

theorem solo_oneView : Solo .oneView where
  mounted v h := by
    by_contra hv
    simp [World.oneView, World.launch, Function.update_of_ne hv] at h
  delayed v h := by simp [World.oneView, World.launch] at h
  delegate _ := rfl

theorem solo_withUrl (u : String) : Solo (.withUrl u) :=
  ⟨solo_oneView.mounted, solo_oneView.delayed, solo_oneView.delegate⟩

theorem Solo.step {accepts : String → Bool} {w w' : World} {e : Event} (hs : Solo w)
    (h1 : e.oneView = true) (he : w.enabled e) (h : w.step accepts e = .ok w') : Solo w' := by
  cases hq : e.quiet with
  | true =>
    have q := step_quiet hq he h
    refine ⟨fun v hv => hs.mounted v (q.mounted ▸ hv), fun v hv => ?_, fun k => ?_⟩
    · exact (q.delayed v hv).elim (hs.delayed v) (hs.mounted v)
    · rw [q.vcDelegate, hs.delegate]
  | false =>
    cases e with
    | mount | unmount v => cases h1
    | property v p =>
      cases p with
      | url u => obtain ⟨_, rfl⟩ := url_ok h; exact ⟨hs.mounted, hs.delayed, hs.delegate⟩
      | _ => cases hq
    | tap v c =>
      cases c with
      | fullScreen =>
        obtain ⟨s, layer, _, _, _, rfl⟩ := fullScreen_ok h
        refine ⟨hs.mounted, hs.delayed, fun k => ?_⟩
        by_cases hk : k = w.nextVc v
        · subst hk; simpa [presentedVC] using hs.mounted v he.1
        · simpa [Function.update_of_ne hk] using hs.delegate k
      | _ => cases hq
    | viewDismissed =>
      obtain ⟨k, p, layer, _, _, _, rfl⟩ := viewDismissed_ok he h
      exact ⟨hs.mounted, hs.delayed, hs.delegate⟩
    | delayedBlock v =>
      cases h
      exact ⟨hs.mounted, fun u hu => hs.delayed u (List.mem_of_mem_tail hu), hs.delegate⟩
    | _ => cases hq

end PsVideo
