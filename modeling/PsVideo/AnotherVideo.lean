import PsVideo.OneView

/-!
# PsVideo.AnotherVideo

`playAnotherVideo` crosses to the main queue and then competes with the url updates, which act at
once. `Queue` is what has been asked for: the blocks that wait and the requests executed so far. The
blocks run in the order of the calls, but `playNextVideo` ignores its argument: whatever a block was
asked to play, it plays `nextVideo`.
-/

namespace PsVideo

open Machine

/-- A request when it is executed: a url update, or the block of a `playAnotherVideo`. -/
inductive Request where
  | update (url : String)
  | block (url : String)
  deriving DecidableEq

def Request.url : Request → String
  | .update u | .block u => u

/-- The one URL that `playNextVideo` plays. -/
def nextVideo : String :=
  "https://secure.northernskystar.com/v1/videos/watch?v=443&session_id=Ek4EbK7rzziHQ66"

/-- What the code plays for a request. -/
def Request.plays : Request → String
  | .update u => u
  | .block _ => nextVideo

/-- A request that asks for what the code plays. -/
def Request.Honoured : Request → Prop
  | .update _ => True
  | .block u => u = nextVideo

theorem Request.plays_iff (r : Request) : r.plays = r.url ↔ r.Honoured := by
  cases r with
  | update u => exact iff_of_true rfl trivial
  | block u => exact eq_comm

/-! ## The queue -/

structure Queue where
  waiting : List String
  executed : List Request := []

namespace Queue

def next (q : Queue) : Event → Queue
  | .property _ (.url u) => { q with executed := q.executed ++ [.update u] }
  | .playAnotherVideo u => { q with waiting := q.waiting ++ [u] }
  | .mainBlock =>
    match q.waiting with
    | [] => q
    | u :: rest => ⟨rest, q.executed ++ [.block u]⟩
  | _ => q

end Queue

/-- The queue after `es`, starting with the blocks that wait in `w`. -/
def World.queue (w : World) (es : List Event) : Queue := es.foldl Queue.next ⟨w.main, []⟩

theorem World.queue_snoc (w : World) (es : List Event) (e : Event) :
    w.queue (es ++ [e]) = (w.queue es).next e := by
  simp [World.queue]

/-! ## The player -/

/-- The URL of the current player's item. -/
def World.playing (w : World) : Option String :=
  (w.env.currentItem w.env.player).map (·.url)

def Event.isRequest : Event → Bool
  | .property _ (.url _) | .playAnotherVideo _ | .mainBlock => true
  | _ => false

/-- The requests, and their blocks where there is a player. -/
def RequestRun (w : World) (e : Event) : Prop :=
  e.isRequest = true ∧ (e = .mainBlock → w.env.player ≠ none)

instance (w : World) (e : Event) : Decidable (RequestRun w e) :=
  inferInstanceAs (Decidable (_ ∧ (_ → _)))

theorem playing_makePlayer (w : World) (v : ViewId) (u : String) :
    ({ w with env := w.env.makePlayer v u } : World).playing = some u := by
  simp [World.playing, Env.currentItem, Env.makePlayer, AVPlayer.ofURL]

theorem playing_playNextVideo {w : World} (h : w.env.player ≠ none) (u : String)
    (rest : List String) :
    ({ w with env := PsVideoView.playNextVideo u w.env, main := rest } : World).playing =
      some nextVideo := by
  cases hp : w.env.player with
  | none => exact absurd hp h
  | some q =>
    simp [World.playing, PsVideoView.playNextVideo, Env.currentItem, Env.call, hp, PlayerOp.apply,
      nextVideo]

/-- The blocks wait as in the queue, and the player plays for the request executed last. -/
structure Served (q : Queue) (w : World) : Prop where
  main : w.main = q.waiting
  last : ∀ r, q.executed.getLast? = some r → w.playing = some r.plays

theorem Served.step {accepts : String → Bool} {q : Queue} {w w' : World} {e : Event}
    (hi : Served q w) (hg : RequestRun w e) (he : w.enabled e) (h : w.step accepts e = .ok w') :
    Served (q.next e) w' := by
  obtain ⟨hr, hp⟩ := hg
  cases e with
  | property v p =>
    cases p with
    | url u =>
      obtain ⟨_, rfl⟩ := url_ok h
      refine ⟨hi.main, fun r hlast => ?_⟩
      obtain rfl : .update u = r := by simpa [Queue.next] using hlast
      exact playing_makePlayer w v u
    | _ => cases hr
  | playAnotherVideo u =>
    cases h
    exact ⟨by rw [hi.main]; rfl, hi.last⟩
  | mainBlock =>
    obtain ⟨u, rest, hm, rfl⟩ := mainBlock_ok he h
    have hw : q.waiting = u :: rest := hi.main.symm.trans hm
    simp only [Queue.next, hw]
    refine ⟨rfl, fun r hlast => ?_⟩
    obtain rfl : .block u = r := by simpa using hlast
    exact playing_playNextVideo (hp rfl) u rest
  | _ => cases hr

/-- What a run of requests plays is for the request executed last. -/
theorem served_of_steps {accepts : String → Bool} {es : List Event} {w₀ w : World}
    (h : Steps ((app accepts).restrict RequestRun) w₀ es w) : Served (w₀.queue es) w := by
  refine h.traced (I := fun es w => Served (w₀.queue es) w) ?_ [] ⟨rfl, fun r hr => by cases hr⟩
  intro es w e w' hi he hs
  rw [World.queue_snoc]
  exact hi.step he.2 he.1 hs

theorem Served.playing_iff {q : Queue} {w : World} (h : Served q w) {r : Request}
    (hr : q.executed.getLast? = some r) : w.playing = some r.url ↔ r.Honoured := by
  rw [h.last r hr, Option.some.injEq]
  exact r.plays_iff

/-- **What is asked is played exactly if** it is asked by a url update or happens to be the one URL
that `playNextVideo` plays. Two requests made last from the same state are both played exactly if
both are so, and never if they are calls of `playAnotherVideo` for different URLs. -/
theorem plays_asked_iff {accepts : String → Bool} {es₁ es₂ : List Event} {w₀ w₁ w₂ : World}
    {r₁ r₂ : Request} (h₁ : Steps ((app accepts).restrict RequestRun) w₀ es₁ w₁)
    (h₂ : Steps ((app accepts).restrict RequestRun) w₀ es₂ w₂)
    (hr₁ : (w₀.queue es₁).executed.getLast? = some r₁)
    (hr₂ : (w₀.queue es₂).executed.getLast? = some r₂) :
    (w₁.playing = some r₁.url ↔ r₁.Honoured) ∧
    (w₁.playing = some r₁.url ∧ w₂.playing = some r₂.url ↔ r₁.Honoured ∧ r₂.Honoured) ∧
    ∀ u v, r₁ = .block u → r₂ = .block v → u ≠ v →
      ¬ (w₁.playing = some r₁.url ∧ w₂.playing = some r₂.url) := by
  have hi₁ := (served_of_steps h₁).playing_iff hr₁
  have hi₂ := (served_of_steps h₂).playing_iff hr₂
  refine ⟨hi₁, and_congr hi₁ hi₂, ?_⟩
  rintro u v rfl rfl hne ⟨hu, hv⟩
  have hu : u = nextVideo := hi₁.mp hu
  have hv : v = nextVideo := hi₂.mp hv
  exact hne (hu.trans hv.symm)

/-- The one URL, asked for between two others, and a url update after a block. -/
theorem plays_asked_session : ∃ w₁ w₂,
    Steps ((app fun _ => true).restrict RequestRun) .oneView [.property 0 (.url "a"),
      .playAnotherVideo "b", .playAnotherVideo nextVideo, .mainBlock, .property 0 (.url "c"),
      .mainBlock] w₁ ∧
    Steps ((app fun _ => true).restrict RequestRun) .oneView
      [.property 0 (.url "a"), .playAnotherVideo "b", .mainBlock, .property 0 (.url "c")] w₂ ∧
    w₁.playing = some nextVideo ∧ w₂.playing = some "c" := by
  obtain ⟨w₁, hw₁, _⟩ := Steps.of_exec_map ((app fun _ => true).restrict RequestRun) .oneView
    [.property 0 (.url "a"), .playAnotherVideo "b", .playAnotherVideo nextVideo, .mainBlock,
      .property 0 (.url "c"), .mainBlock] (fun _ => ()) (a := ()) (by decide +kernel)
  obtain ⟨w₂, hw₂, _⟩ := Steps.of_exec_map ((app fun _ => true).restrict RequestRun) .oneView
    [.property 0 (.url "a"), .playAnotherVideo "b", .mainBlock, .property 0 (.url "c")]
    (fun _ => ()) (a := ()) (by decide +kernel)
  have hr₁ : (World.oneView.queue [.property 0 (.url "a"), .playAnotherVideo "b",
      .playAnotherVideo nextVideo, .mainBlock, .property 0 (.url "c"),
      .mainBlock]).executed.getLast? = some (.block nextVideo) := by decide
  have hr₂ : (World.oneView.queue [.property 0 (.url "a"), .playAnotherVideo "b", .mainBlock,
      .property 0 (.url "c")]).executed.getLast? = some (.update "c") := by decide
  exact ⟨w₁, w₂, hw₁, hw₂, (plays_asked_iff hw₁ hw₂ hr₁ hr₂).2.1.mpr ⟨rfl, trivial⟩⟩

/-- A call for "b" that plays something else. -/
theorem not_plays_asked : ∃ w, Steps ((app fun _ => true).restrict RequestRun) .oneView
    [.property 0 (.url "a"), .playAnotherVideo "b", .mainBlock] w ∧ w.main = [] ∧
    (World.oneView.queue [.property 0 (.url "a"), .playAnotherVideo "b",
      .mainBlock]).executed.getLast? = some (.block "b") ∧ w.playing ≠ some "b" := by
  obtain ⟨w, hw, hobs⟩ := Steps.of_exec_map ((app fun _ => true).restrict RequestRun) .oneView
    [.property 0 (.url "a"), .playAnotherVideo "b", .mainBlock]
    (fun w => (w.main, decide (w.playing ≠ some "b"))) (a := ([], true)) (by decide +kernel)
  obtain ⟨hm, hp⟩ := Prod.mk.inj hobs
  exact ⟨w, hw, hm, by decide, of_decide_eq_true hp⟩

end PsVideo
