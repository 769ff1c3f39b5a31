import Reattempt.Backoff.Generator

/-!
# Sources behind layers that share them

A layer that shares a source forwards draws and looks ahead, and works out the whole
seconds from what it looks at. So it cannot be told from the source by whoever does not
ask for the seconds; and by whoever does exactly if the source itself answers the seconds
of what it would show, and goes on as if it had shown it. Further layers change nothing.
-/

namespace Reattempt.Backoff

/-- What a source can be asked, with the rolls of each draw. -/
inductive Question where
  | next (rolls : Rolls)
  | peek
  | peekSeconds

inductive Answer where
  | delay (d : Duration)
  | seconds (s : UInt64)
deriving DecidableEq

namespace Source

variable {σ : Type} {src : Source σ} {s : σ}

def answer (src : Source σ) (s : σ) : Question → Answer × σ
  | .next rolls => (.delay (src.next rolls s).1, (src.next rolls s).2)
  | .peek => (.delay (src.peek s).1, (src.peek s).2)
  | .peekSeconds => (.seconds (src.peekSeconds s).1, (src.peekSeconds s).2)

/-- The answers to one question after another. -/
def answers (src : Source σ) : List Question → σ → List Answer
  | [], _ => []
  | q :: qs, s => (src.answer s q).1 :: src.answers qs (src.answer s q).2

/-- The state after one question after another. -/
def after (src : Source σ) (qs : List Question) (s : σ) : σ :=
  qs.foldl (fun s q => (src.answer s q).2) s

theorem answers_append (src : Source σ) (qs qs' : List Question) (s : σ) :
    src.answers (qs ++ qs') s = src.answers qs s ++ src.answers qs' (src.after qs s) := by
  induction qs generalizing s with
  | nil => rfl
  | cons q qs ih => exact congrArg _ (ih _)

theorem length_answers (src : Source σ) (qs : List Question) (s : σ) :
    (src.answers qs s).length = qs.length := by
  induction qs generalizing s with
  | nil => rfl
  | cons q qs ih => exact congrArg Nat.succ (ih _)

/-! ## One layer and more -/

/-- The source inside so many layers that share it. -/
def sharedBy (src : Source σ) (n : Nat) : Source σ := src.within (List.replicate n .shared)

theorem sharedBy_succ (src : Source σ) (n : Nat) : src.sharedBy (n + 1) = src.share := by
  induction n with
  | zero => rfl
  | succ n ih =>
    have hwrap : src.sharedBy (n + 2) = (src.sharedBy (n + 1)).share := rfl
    rw [hwrap, ih]
    rfl

/-- Only the question for the seconds is not handed on. -/
theorem answer_share {q : Question} (hq : q ≠ .peekSeconds) :
    src.share.answer s q = src.answer s q := by
  cases q with
  | next rolls => rfl
  | peek => rfl
  | peekSeconds => exact absurd rfl hq

theorem answer_share_peekSeconds (src : Source σ) (s : σ) :
    src.share.answer s .peekSeconds = (.seconds (src.peek s).1.secs, (src.peek s).2) := rfl

theorem answers_share {qs : List Question} (hqs : .peekSeconds ∉ qs) (s : σ) :
    src.share.answers qs s = src.answers qs s := by
  induction qs generalizing s with
  | nil => rfl
  | cons q qs ih =>
    have hq : q ≠ .peekSeconds := fun h => hqs (h ▸ List.mem_cons_self)
    rw [answers, answers, answer_share hq, ih fun h => hqs (List.mem_cons_of_mem q h)]

/-! ## Asking for the seconds -/

/-- Asked for the whole seconds, the source answers those of what it would show, and goes on as if
it had shown it. -/
structure Candid (src : Source σ) (s : σ) : Prop where
  seconds : (src.peekSeconds s).1 = (src.peek s).1.secs
  goesOn : ∀ qs, src.answers qs (src.peekSeconds s).2 = src.answers qs (src.peek s).2

/-- A candid source is not told from what is behind a layer. -/
theorem answers_share_of_candid (h : ∀ qs, src.Candid (src.after qs s)) (qs : List Question) :
    src.share.answers qs s = src.answers qs s := by
  induction qs generalizing s with
  | nil => rfl
  | cons q qs ih =>
    cases q with
    | next rolls => exact congrArg _ (ih fun qs' => h (.next rolls :: qs'))
    | peek => exact congrArg _ (ih fun qs' => h (.peek :: qs'))
    | peekSeconds =>
      have hrest : src.share.answers qs (src.peek s).2 = src.answers qs (src.peek s).2 :=
        ih fun qs' => h (.peek :: qs')
      have hs : src.Candid s := h []
      rw [answers, answers, answer_share_peekSeconds, hrest]
      show Answer.seconds (src.peek s).1.secs :: _ =
        .seconds (src.peekSeconds s).1 :: src.answers qs (src.peekSeconds s).2
      rw [hs.seconds, hs.goesOn]

/-- What goes on alike after the same questions. -/
theorem answers_after_eq (h : ∀ qs, src.share.answers qs s = src.answers qs s)
    (qs qs' : List Question) :
    src.share.answers qs' (src.share.after qs s) = src.answers qs' (src.after qs s) := by
  have hall := h (qs ++ qs')
  rw [answers_append, answers_append] at hall
  refine (List.append_inj hall ?_).2
  rw [length_answers, length_answers]

/-- A layer that is not told from the source shows that it is candid. -/
theorem candid_of_answers_share (h : ∀ qs, src.share.answers qs s = src.answers qs s)
    (qs : List Question) : src.Candid (src.after qs s) := by
  have halike := answers_after_eq h qs
  -- The states behind the layer and without it may differ, but no answer tells them apart.
  generalize src.share.after qs s = t' at halike
  generalize src.after qs s = t at halike
  have hpeek (qs') : Answer.delay (src.peek t').1 :: src.share.answers qs' (src.peek t').2 =
      .delay (src.peek t).1 :: src.answers qs' (src.peek t).2 := halike (.peek :: qs')
  have hseconds (qs') : Answer.seconds (src.peek t').1.secs ::
        src.share.answers qs' (src.peek t').2 =
      .seconds (src.peekSeconds t).1 :: src.answers qs' (src.peekSeconds t).2 :=
    halike (.peekSeconds :: qs')
  refine ⟨?_, fun qs' => ?_⟩
  · have hd := Answer.delay.inj (List.cons.inj (hpeek [])).1
    rw [← hd]
    exact (Answer.seconds.inj (List.cons.inj (hseconds [])).1).symm
  · exact (List.cons.inj (hseconds qs')).2.symm.trans (List.cons.inj (hpeek qs')).2

/-- Sharing shows in no answer exactly if the source is candid whatever it was asked before. -/
theorem answers_share_iff : (∀ qs, src.share.answers qs s = src.answers qs s) ↔
    ∀ qs, src.Candid (src.after qs s) :=
  ⟨candid_of_answers_share, answers_share_of_candid⟩

end Source

end Reattempt.Backoff
