import PsVideo.Background
import PsVideo.CommandLog
import PsVideo.Traps

/-!
# PsVideo.Lifetime

What outlives its screen. Nothing that was made is freed: a view that has been unmounted and a
controller that has been dismissed are still there. So the observer of a view finds its view whenever
it ticks; and a dismissed controller pauses its player whenever the app enters the background, and
gives it no other command.
-/

namespace PsVideo

open Machine

section Counts

variable {accepts : String → Bool} {w w' : World} {e : Event}

theorem step_counts (he : w.enabled e) (h : w.step accepts e = .ok w') :
    w'.nextView = w.nextView + [e].count .mount ∧
      ∀ v, w'.vcCount v = w.vcCount v + [e].count (.tap v .fullScreen) := by
  cases hq : e.quiet with
  | true =>
    have q := step_quiet hq he h
    have hm : e ≠ .mount := by rintro rfl; cases hq
    have hf : ∀ v, e ≠ .tap v .fullScreen := by rintro v rfl; cases hq
    simp [q.nextView, q.vcCount, hm, hf]
  | false =>
    cases e with
    | mount | unmount v => cases h; simp
    | property v p =>
      cases p with
      | url u => obtain ⟨_, rfl⟩ := url_ok h; simp
      | _ => cases hq
    | tap v c =>
      cases c with
      | fullScreen =>
        obtain ⟨s, layer, _, _, _, rfl⟩ := fullScreen_ok h
        refine ⟨by simp [World.put], fun u => ?_⟩
        by_cases hu : u = v
        · subst hu; simp
        · simp [Function.update_of_ne hu, Ne.symm hu]
      | _ => cases hq
    | viewDismissed =>
      obtain ⟨k, p, layer, _, _, _, rfl⟩ := viewDismissed_ok he h
      simp [World.put]
    | delayedBlock v => cases h; simp [World.put]
    | _ => cases hq

end Counts

/-- **Nothing is freed.** After any events, every view mounted so far is alive, and so is every
controller that a full-screen button has made so far; and the notification of the background reaches
each of these controllers, once. -/
theorem nothing_freed {accepts : String → Bool} {es : List Event} {w : World}
    (h : Steps (app accepts) .launch es w) :
    (∀ v, w.viewAlive v = true ↔ v < es.count .mount) ∧
    (∀ k, w.vcAlive k = true ↔ k.serial < es.count (.tap k.view .fullScreen)) ∧
    (∀ k, k ∈ w.notified ↔ k.serial < es.count (.tap k.view .fullScreen)) ∧ w.notified.Nodup := by
  obtain ⟨hviews, hvcs⟩ : w.nextView = es.count .mount ∧
      ∀ v, w.vcCount v = es.count (.tap v .fullScreen) := by
    refine h.traced (I := fun es w => w.nextView = es.count .mount ∧
      ∀ v, w.vcCount v = es.count (.tap v .fullScreen)) (fun es w e w' hi he hs => ?_) []
      ⟨rfl, fun _ => rfl⟩
    obtain ⟨h1, h2⟩ := step_counts he hs
    exact ⟨by rw [h1, hi.1, List.count_append], fun v => by rw [h2, hi.2, List.count_append]⟩
  have hi := Living.reached h
  have hmade : ∀ k, w.Made k ↔ k.serial < es.count (.tap k.view .fullScreen) := fun k => by
    rw [World.Made, hvcs]
  refine ⟨fun v => by rw [hi.viewAlive_iff, hviews], fun k => by rw [hi.vcAlive_iff, hmade],
    fun k => ?_, ?_⟩
  · rw [hi.toRetained.notified, hi.registered, hmade]
  · rw [hi.toRetained.notified]; exact hi.once

/-- The session is over and the view has been unmounted. -/
theorem nothing_freed_session : ∃ w, Steps (app fun _ => true) .launch
    [.mount, .property 0 (.url "a"), .property 0 (.play true), .delayedBlock 0, .tap 0 .fullScreen,
      .viewDidAppear, .fullTap .fullScreen, .viewDismissed, .unmount 0] w ∧
    w.mounted 0 = false ∧ w.viewAlive 0 = true ∧ w.vcAlive ⟨0, 0⟩ = true ∧ ⟨0, 0⟩ ∈ w.notified := by
  obtain ⟨w, hw, hm⟩ := Steps.of_exec_map (app fun _ => true) .launch
    [.mount, .property 0 (.url "a"), .property 0 (.play true), .delayedBlock 0, .tap 0 .fullScreen,
      .viewDidAppear, .fullTap .fullScreen, .viewDismissed, .unmount 0]
    (fun w => w.mounted 0) (a := false) (by decide +kernel)
  obtain ⟨hviews, hvcs, hnotified, _⟩ := nothing_freed hw
  exact ⟨w, hw, hm, (hviews 0).mpr (by decide), (hvcs ⟨0, 0⟩).mpr (by decide),
    (hnotified ⟨0, 0⟩).mpr (by decide)⟩

/-! ## Views -/

/-- **Unmounting is safe.** In every run, a tick of an observer that a view has registered finds its
view alive, mounted or not: it does not end in the unwrapping of a `self` that is gone, nor in any
trap but that of a time without whole seconds. -/
theorem unmount_safe {accepts : String → Bool} {es : List Event} {w : World} {v : ViewId} {n : ℕ}
    (h : Steps (app accepts) .launch es w) (he : w.enabled (.tick ⟨.view v, n⟩)) :
    w.viewAlive v = true ∧ w.step accepts (.tick ⟨.view v, n⟩) ≠ .error .deallocatedSelf ∧
      ∀ t, w.step accepts (.tick ⟨.view v, n⟩) = .error t → t = .conversion := by
  have ha := (Present.reached h).tick_view he
  have hconv : ∀ t, w.step accepts (.tick ⟨.view v, n⟩) = .error t → t = .conversion := by
    intro t ht
    have hr := World.tryPut_trap (v := v) ht
    rw [ha] at hr
    exact (PsVideoView.timeObserverCallback_trap hr).resolve_right fun hgone => by cases hgone.1
  exact ⟨ha, fun ht => (by cases hconv _ ht), hconv⟩

/-- The timer has hidden the controls and the view has been unmounted; its observer ticks on. -/
theorem unmount_safe_tick : ∃ w w', Steps (app fun _ => true) .launch
    [.mount, .property 0 (.url "a"), .tap 0 .play,
      .itemProgress ⟨0, 0⟩ .readyToPlay (.makeMillis 60000) (.makeMillis 1000), .tick ⟨.view 0, 0⟩,
      .timer ⟨.view 0, 0⟩, .unmount 0] w ∧
    w.mounted 0 = false ∧ w.env.timers = [] ∧ w.viewAlive 0 = true ∧
    w.step (fun _ => true) (.tick ⟨.view 0, 0⟩) = .ok w' := by
  obtain ⟨w, hw, hobs⟩ := Steps.of_exec_map (app fun _ => true) .launch
    [.mount, .property 0 (.url "a"), .tap 0 .play,
      .itemProgress ⟨0, 0⟩ .readyToPlay (.makeMillis 60000) (.makeMillis 1000), .tick ⟨.view 0, 0⟩,
      .timer ⟨.view 0, 0⟩, .unmount 0]
    (fun w => (w.mounted 0, w.env.timers, ((app fun _ => true).exec w
      [.tick ⟨.view 0, 0⟩]).isSome))
    (a := (false, [], true)) (by decide +kernel)
  obtain ⟨hm, h⟩ := Prod.mk.inj hobs
  obtain ⟨ht, hr⟩ := Prod.mk.inj h
  obtain ⟨w', hw'⟩ := Option.isSome_iff_exists.mp hr
  obtain ⟨he, hs⟩ := (Steps.of_exec hw').single_inv
  exact ⟨w, w', hw, hm, ht, (unmount_safe hw he).1, hs⟩

/-! ## Full-screen controllers -/

def Env.callsBy (e : Env) (o : Owner) : List Call := e.calls.filter (·.caller = o)

/-- `k` has been presented with player `p` and is not on the screen any more. -/
structure Dismissed (k : VcId) (p : PlayerId) (w : World) : Prop where
  made : w.Made k
  gone : w.screen.vc ≠ some k
  player : (w.vcs k).player = some p

theorem step_onScreen {accepts : String → Bool} {w w' : World} {e : Event} {k : VcId}
    (he : w.enabled e) (h : w.step accepts e = .ok w') (hk : w'.screen.vc = some k) :
    w.screen.vc = some k ∨ ¬ w.Made k := by
  cases hq : e.quiet with
  | true => exact .inl ((step_quiet hq he h).screen.symm.trans hk)
  | false =>
    cases e with
    | mount | unmount v => cases h; exact .inl hk
    | property v p =>
      cases p with
      | url u => obtain ⟨_, rfl⟩ := url_ok h; exact .inl hk
      | _ => cases hq
    | tap v c =>
      cases c with
      | fullScreen =>
        obtain ⟨s, layer, _, _, _, rfl⟩ := fullScreen_ok h
        obtain rfl : w.nextVc v = k := Option.some.inj hk
        exact .inr (w.not_made_nextVc v)
      | _ => cases hq
    | viewDismissed =>
      obtain ⟨j, p, layer, _, _, _, rfl⟩ := viewDismissed_ok he h
      cases hk
    | delayedBlock v => cases h; exact .inl hk
    | _ => cases hq

theorem pauseCall_filter {w : World} {k : VcId} {p : PlayerId} (hp : (w.vcs k).player = some p) :
    ∀ {l : List VcId}, l.Nodup → (l.filterMap w.pauseCall).filter (·.caller = .vc k) =
      if k ∈ l then [⟨.vc k, p, .pause⟩] else [] := by
  intro l
  induction l with
  | nil => intro _; rfl
  | cons j l ih =>
    intro hl
    obtain ⟨hj, hl⟩ := List.nodup_cons.mp hl
    have ih := ih hl
    by_cases hjk : j = k
    · subst hjk
      rw [if_neg hj] at ih
      simp [World.pauseCall, hp, ih]
    · have hmem : k ∈ j :: l ↔ k ∈ l := by simp [Ne.symm hjk]
      simp only [hmem, ← ih]
      cases hq : (w.vcs j).player <;> simp [World.pauseCall, hq, hjk]

namespace Dismissed

variable {accepts : String → Bool} {k : VcId} {p : PlayerId} {w w' : World} {e : Event}

theorem step (hi : Dismissed k p w) (he : w.enabled e) (h : w.step accepts e = .ok w') :
    Dismissed k p w' where
  made := (step_grows he h).2 k hi.made
  gone hk := (step_onScreen he h hk).elim hi.gone fun hn => hn hi.made
  player := (step_vcPlayer hi.made he h).trans hi.player

/-- The background makes the controller pause its player; no other event makes it do anything. -/
theorem callsBy {es : List Event} (hi : Dismissed k p w) (hr : Steps (app accepts) .launch es w)
    (he : w.enabled e) (h : w.step accepts e = .ok w') : w'.env.callsBy (.vc k) =
      w.env.callsBy (.vc k) ++ List.replicate ([e].count .background) ⟨.vc k, p, .pause⟩ := by
  by_cases hb : e = .background
  · subst hb
    obtain ⟨hp, honce, hmem⟩ := background_ok hr h
    rw [Env.callsBy, hp.calls, List.filter_append, pauseCall_filter hi.player honce,
      if_pos ((hmem k).mpr hi.made)]
    rfl
  · obtain ⟨l, hl, hgiven⟩ := step_given he h
    have hnone : l.filter (·.caller = .vc k) = [] := by
      refine List.filter_eq_nil_iff.mpr fun c hc hown => ?_
      have hcom := hgiven c hc
      rw [of_decide_eq_true hown] at hcom
      cases hcom with
      | fullTap _ hk _ => exact hi.gone hk
      | appear hk _ => exact hi.gone (congrArg Screen.vc hk)
      | background => exact hb rfl
    rw [Env.callsBy, hl, List.filter_append, hnone]
    simp [Env.callsBy, hb]

theorem steps {pre es : List Event} (hi : Dismissed k p w)
    (hpre : Steps (app accepts) .launch pre w) (hr : Steps (app accepts) w es w') :
    w'.env.callsBy (.vc k) =
      w.env.callsBy (.vc k) ++ List.replicate (es.count .background) ⟨.vc k, p, .pause⟩ := by
  refine (hr.traced (I := fun es w' => Steps (app accepts) .launch (pre ++ es) w' ∧
    Dismissed k p w' ∧ w'.env.callsBy (.vc k) =
      w.env.callsBy (.vc k) ++ List.replicate (es.count .background) ⟨.vc k, p, .pause⟩)
    (fun es w' e w'' h he hs => ?_) [] ⟨?_, hi, ?_⟩).2.2
  · obtain ⟨hrun, hdis, hcalls⟩ := h
    refine ⟨List.append_assoc _ _ _ ▸ hrun.snoc he hs, hdis.step he hs, ?_⟩
    rw [hdis.callsBy hrun he hs, hcalls, List.append_assoc, ← List.replicate_add, List.count_append]
  · rw [List.append_nil]; exact hpre
  · simp

end Dismissed

/-- **When a dismissed controller is inert.** After the `viewDismissed` of controller `k` has been
handled, `k` gives no further command to any player exactly if the app does not enter the background
any more. -/
theorem dismissed_inert_iff {accepts : String → Bool} {pre es : List Event} {w w' w'' : World}
    {k : VcId} (h : Steps (app accepts) .launch pre w) (hk : w.screen.vc = some k)
    (hd : Steps (app accepts) w [.viewDismissed] w') (hr : Steps (app accepts) w' es w'') :
    w''.env.callsBy (.vc k) = w'.env.callsBy (.vc k) ↔ Event.background ∉ es := by
  obtain ⟨p, hdis⟩ : ∃ p, Dismissed k p w' := by
    obtain ⟨he, hs⟩ := hd.single_inv
    have he : w.enabled .viewDismissed := he
    have hs : w.step accepts .viewDismissed = .ok w' := hs
    have hmade := (Living.reached h).opened k hk
    obtain ⟨j, p, layer, hj, hp, _, hw⟩ := viewDismissed_ok he hs
    obtain rfl : k = j := Option.some.inj (hk.symm.trans hj)
    refine ⟨p, (step_grows he hs).2 k hmade, fun hk' => ?_, (step_vcPlayer hmade he hs).trans hp⟩
    rw [hw] at hk'
    cases hk'
  rw [hdis.steps (h.trans hd) hr, List.append_right_eq_self, List.replicate_eq_nil_iff,
    List.count_eq_zero]

/-- A second session after the dismissal, with a tap on its play button. -/
theorem dismissed_inert_iff_session : ∃ w w' w'', Steps (app fun _ => true) .launch
    [.mount, .property 0 (.url "a"), .property 0 (.play true), .delayedBlock 0, .tap 0 .fullScreen,
      .viewDidAppear, .fullTap .fullScreen] w ∧
    Steps (app fun _ => true) w [.viewDismissed] w' ∧
    Steps (app fun _ => true) w' [.timer ⟨.vc ⟨0, 0⟩, 0⟩, .tap 0 .fullScreen, .viewDidAppear,
      .fullTap .play] w'' ∧
    w''.env.callsBy (.vc ⟨0, 0⟩) = w'.env.callsBy (.vc ⟨0, 0⟩) := by
  obtain ⟨w, hw, hobs⟩ := Steps.of_exec_map (app fun _ => true) .launch
    [.mount, .property 0 (.url "a"), .property 0 (.play true), .delayedBlock 0, .tap 0 .fullScreen,
      .viewDidAppear, .fullTap .fullScreen]
    (fun w => (w.screen.vc, ((app fun _ => true).exec w [.viewDismissed]).bind fun w' =>
      ((app fun _ => true).exec w' [.timer ⟨.vc ⟨0, 0⟩, 0⟩, .tap 0 .fullScreen, .viewDidAppear,
        .fullTap .play]).map fun _ => ()))
    (a := (some ⟨0, 0⟩, some ())) (by decide +kernel)
  obtain ⟨hk, hr⟩ := Prod.mk.inj hobs
  obtain ⟨w', hw', hr⟩ := Option.bind_eq_some_iff.mp hr
  obtain ⟨w'', hw'', _⟩ := Option.map_eq_some_iff.mp hr
  exact ⟨w, w', w'', hw, .of_exec hw', .of_exec hw'',
    (dismissed_inert_iff hw hk (.of_exec hw') (.of_exec hw'')).mpr (by decide)⟩

/-- The dismissed controller is still registered, and pauses the player. -/
theorem dismissed_not_inert : ∃ w w', Steps (app fun _ => true) .launch
    [.mount, .property 0 (.url "a"), .property 0 (.play true), .delayedBlock 0, .tap 0 .fullScreen,
      .viewDidAppear, .fullTap .fullScreen, .viewDismissed] w ∧ w.screen = .inline ∧
    Steps (app fun _ => true) w [.background] w' ∧
    w'.env.callsBy (.vc ⟨0, 0⟩) = w.env.callsBy (.vc ⟨0, 0⟩) ++ [⟨.vc ⟨0, 0⟩, ⟨0, 0⟩, .pause⟩] := by
  obtain ⟨w, hw, hobs⟩ := Steps.of_exec_map (app fun _ => true) .launch
    [.mount, .property 0 (.url "a"), .property 0 (.play true), .delayedBlock 0, .tap 0 .fullScreen,
      .viewDidAppear, .fullTap .fullScreen, .viewDismissed]
    (fun w => (w.screen, ((app fun _ => true).exec w [.background]).map fun w' : World =>
      decide (w'.env.callsBy (.vc ⟨0, 0⟩) =
        w.env.callsBy (.vc ⟨0, 0⟩) ++ [⟨.vc ⟨0, 0⟩, ⟨0, 0⟩, .pause⟩])))
    (a := (.inline, some true)) (by decide +kernel)
  obtain ⟨hs, hr⟩ := Prod.mk.inj hobs
  obtain ⟨w', hw', hc⟩ := Option.map_eq_some_iff.mp hr
  exact ⟨w, w', hw, hs, .of_exec hw', of_decide_eq_true hc⟩

end PsVideo
