import Reattempt.Proofs.Campaign.Deadline

/-!
# Courses in a part of the world

A campaign whose surroundings do to a world what others do to a part of it takes the
same course in both: under matching schedules it comes to the same state, and what is
recorded in the whole is, seen in the part, what is recorded there.
-/

namespace Reattempt.Campaign

variable {ω υ ε : Type} {π : υ → ω} {b' : Brief υ ε} {b : Brief ω ε} {env' : Surroundings υ ε}
  {env : Surroundings ω ε}

theorem Surroundings.Part.recorded (henv : Surroundings.Part π env' env) :
    Surroundings.Part (Recording.part π) env'.recorded env.recorded where
  now r := henv.now r.1
  wake due r := by
    show (env.wake due (π r.1)).map _ = ((env'.wake due r.1).map _).map _
    rw [henv.wake, Option.map_map, Option.map_map]
    rfl
  cancelled r := henv.cancelled r.1
  start r := by
    show (r.part π).note .began (env.start (π r.1)) = _
    rw [henv.start]
    exact Recording.part_note π r _ _
  poll c r := by
    show ((env.poll c (π r.1)).1, (r.part π).note (.polled c (env.poll c (π r.1)).1)
      (env.poll c (π r.1)).2) = _
    rw [henv.poll]
    exact congrArg (Prod.mk _) (Recording.part_note π r _ _)
  publish n r := by
    show (r.part π).note (.published n) (env.publish n (π r.1)) = _
    rw [henv.publish]
    exact Recording.part_note π r _ _
  pause d r := by
    show (r.part π).note (.drew d) (env.pause d (π r.1)) = _
    rw [henv.pause]
    exact Recording.part_note π r _ _
  roll r := by
    show ((env.roll (π r.1)).1, (r.part π).goOn (env.roll (π r.1)).2) = _
    rw [henv.roll]
    rfl

theorem source_part_beside {src' : Backoff.Source υ} {src : Backoff.Source ω}
    (h : Backoff.Source.Part π src' src) :
    Backoff.Source.Part (Recording.part π) (beside (δ := Deed ε) src') (beside src) where
  next rolls r := by
    show ((src.next rolls (π r.1)).1, (r.part π).goOn (src.next rolls (π r.1)).2) = _
    rw [h.next]
    rfl
  peek r := by
    show ((src.peek (π r.1)).1, (r.part π).goOn (src.peek (π r.1)).2) = _
    rw [h.peek]
    rfl
  peekSeconds r := by
    show ((src.peekSeconds (π r.1)).1, (r.part π).goOn (src.peekSeconds (π r.1)).2) = _
    rw [h.peekSeconds]
    rfl

theorem Brief.Part.recorded (hb : Brief.Part π b' b) :
    Brief.Part (Recording.part π) b'.recorded b.recorded where
  connector := hb.connector
  settings := hb.settings
  shared := by
    rw [Brief.shared_recorded, Brief.shared_recorded]
    rcases hb.shared_cases with ⟨hs', hs⟩ | ⟨src', src, hs', hs, h⟩
    · rw [hs', hs]
      exact .none
    · rw [hs', hs]
      exact .some (source_part_beside h)

theorem course_part (hb : Brief.Part π b' b) (henv : Surroundings.Part π env' env)
    {l' : List (Happening υ)} {l : List (Happening ω)}
    (hl : List.Forall₂ (Happening.Part π) l' l) (v : υ) :
    b.course env l (π v) =
      ((b'.course env' l' v).1, (b'.course env' l' v).2.part π) := by
  have hbegin : State.begin b (env.now (π v)) = State.begin b' (env'.now v) := by
    rw [State.begin, State.begin, Brief.memory, Brief.memory, hb.settings, henv.now]
  have hplay := play_part (step_part hb.recorded henv.recorded)
    (Recording.part_beside hl) (.begin b' (env'.now v)) (v, [])
  rw [Brief.course, hbegin]
  exact hplay

end Reattempt.Campaign
