import PsVideo.Crashes
import PsVideo.OwnPlayer

/-!
# PsVideo.OwnCrashes

All the ways the copy under `ios/ios` can crash: those of the app, over the player of the view whose
handler runs.
-/

namespace PsVideo

open Machine

def OwnWorld.sees (c : OwnWorld) (e : Event) : World := (e.handler c.world).elim c.world c.load

section

variable {accepts : String → Bool} {c d : OwnWorld} {v : ViewId} {e : Event}

theorem Housed.load (h : Housed c.world) : Housed (c.load v) := ⟨h.toPresent.load, h.layer⟩

theorem Housed.own_step (h : Housed c.world) (he : c.enabled e) (hs : c.step accepts e = .ok d) :
    Housed d.world := by
  obtain ⟨_, hw, _⟩ | ⟨_, rfl⟩ | ⟨v, w, _, _, hen, hw, rfl⟩ := own_step_ok he hs
  · exact h.step he.2 hw
  · exact h
  · exact h.load.step hen hw

end

/-- **The crashes of the copy** are those of the app in the state that the handler sees. -/
theorem own_crash_iff {accepts : String → Bool} {es : List Event} {c : OwnWorld} {e : Event}
    {t : Trap} (h : Steps (ownApp accepts) .launch es c) (he : c.enabled e) :
    c.step accepts e = .error t ↔ Crash accepts (c.sees e) e t := by
  have hi : Housed c.world := h.invariant (I := fun c => Housed c.world)
    (fun _ _ _ hi he hs => hi.own_step he hs) housed_launch
  cases hn : e.handler c.world with
  | none =>
    have hstep : c.step accepts e = .error t ↔ c.world.step accepts e = .error t := by
      simp only [OwnWorld.step, hn]
      cases c.world.step accepts e <;> simp
    rw [hstep, hi.error_iff he.2, OwnWorld.sees, hn]
    rfl
  | some v =>
    have hen : (c.load v).enabled e := by rw [enabled_load]; exact he.2
    have hstep : c.step accepts e = .error t ↔ (c.load v).step accepts e = .error t := by
      simp only [OwnWorld.step, hn, hi.toPresent.goneTick he.2]
      cases (c.load v).step accepts e <;> simp
    rw [hstep, hi.load.error_iff hen, OwnWorld.sees, hn]
    rfl

/-- The first view is unmounted and its video turns out to be endless, while the second one has made
a player: the observer of the first ticks over its own. -/
theorem own_crash_iff_unmounted : ∃ c, Steps (ownApp fun _ => true) .launch
    [.mount, .mount, .property 0 (.url "a"), .tap 0 .play, .property 1 (.url "b"), .unmount 0,
      .itemProgress ⟨0, 0⟩ .readyToPlay .indefinite (.makeMillis 1000)] c ∧
    c.world.mounted 0 = false ∧ c.step (fun _ => true) (.tick ⟨.view 0, 0⟩) = .error .conversion := by
  obtain ⟨c, hc, hobs⟩ := Steps.of_exec_map (ownApp fun _ => true) .launch
    [.mount, .mount, .property 0 (.url "a"), .tap 0 .play, .property 1 (.url "b"), .unmount 0,
      .itemProgress ⟨0, 0⟩ .readyToPlay .indefinite (.makeMillis 1000)]
    (fun c => (decide (c.enabled (.tick ⟨.view 0, 0⟩)), c.world.mounted 0,
      (c.world.env.currentItem (c.player 0)).map fun item => (item.status, item.duration)))
    (a := (true, false, some (.readyToPlay, .indefinite))) (by decide +kernel)
  obtain ⟨he, hobs⟩ := Prod.mk.inj hobs
  obtain ⟨hv, hitem⟩ := Prod.mk.inj hobs
  obtain ⟨item, hi, ht⟩ := Option.map_eq_some_iff.mp hitem
  exact ⟨c, hc, hv, (own_crash_iff hc (of_decide_eq_true he)).mpr (.label hi (.of_indefinite ht))⟩

end PsVideo
