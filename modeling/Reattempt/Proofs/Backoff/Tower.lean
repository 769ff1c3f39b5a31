import Reattempt.Backoff.Generator
import Reattempt.Proofs.Backoff.Sequence

/-!
# Generators inside layers

However many layers stand around a generator, a draw moves its core once, and a look
ahead shows what the core shows and moves nothing. What the layers do to a delay they
do on its way out: none makes it longer, and nothing of it comes back to the core. So
with the layers taken off, the core goes on where it stood.
-/

namespace Reattempt

namespace Backoff

/-- Whether a layer hands on a delay as it is. -/
def Layer.isExact : Layer → Bool
  | .shared => true
  | .jittered j => j = .none

namespace Source

variable {σ : Type}

theorem peek_within (src : Source σ) (layers : List Layer) :
    (src.within layers).peek = src.peek := by
  induction layers with
  | nil => rfl
  | cons layer layers ih =>
    cases layer with
    | shared => exact ih
    | jittered j => exact ih

/-- Layers answer the whole seconds of what is shown, and so does a source that has no seconds of
its own. -/
theorem peekSeconds_within {src : Source σ} {s : σ}
    (hs : src.peekSeconds s = wholeSeconds src.peek s) (layers : List Layer) :
    (src.within layers).peekSeconds s = wholeSeconds src.peek s := by
  cases layers with
  | nil => exact hs
  | cons layer layers =>
    rw [← peek_within src layers]
    cases layer with
    | shared => rfl
    | jittered j => rfl

theorem lift_wholeSeconds (put : σ → Core) (peek : σ → Duration × σ)
    {peek' : Core → Duration × Core} {s : σ} (h : peek' (put s) = Core.lift put (peek s)) :
    Core.lift put (wholeSeconds peek s) = wholeSeconds peek' (put s) := by
  rw [wholeSeconds, wholeSeconds, h]
  rfl

/-- A draw through layers is one draw of the source, with some of the rolls. -/
theorem next_within (src : Source σ) (layers : List Layer) (rolls : Rolls) (s : σ) :
    ∃ left, ((src.within layers).next rolls s).2 = (src.next left s).2 ∧
      ((src.within layers).next rolls s).1.toNanos ≤ (src.next left s).1.toNanos ∧
      (layers.all Layer.isExact = true →
        ((src.within layers).next rolls s).1 = (src.next left s).1) := by
  induction layers generalizing rolls with
  | nil => exact ⟨rolls, rfl, Nat.le_refl _, fun _ => rfl⟩
  | cons layer layers ih =>
    cases layer with
    | shared => exact ih rolls
    | jittered j =>
      obtain ⟨left, hstate, hle, hexact⟩ := ih fun i => rolls (i + 1)
      refine ⟨left, hstate, Nat.le_trans (j.toNanos_apply_le _ _) hle, fun hall => ?_⟩
      obtain ⟨hj, hrest⟩ := Bool.and_eq_true_iff.mp (List.all_cons.symm.trans hall)
      obtain rfl : j = .none := of_decide_eq_true hj
      exact hexact hrest

end Source

/-- What can be asked of a generator, with the rolls of each draw. -/
inductive Call where
  | next (rolls : Rolls)
  | peek
  | peekSeconds
  /-- The outermost layer is taken off. -/
  | inner

def Call.isDraw : Call → Bool
  | .next _ => true
  | _ => false

def Call.isInner : Call → Bool
  | .inner => true
  | _ => false

namespace Generator

/-- The generator after it was asked something. -/
def asked (g : Generator) : Call → Generator
  | .next rolls => (g.next rolls).2
  | .peek => g.peek.2
  | .peekSeconds => g.peekSeconds.2
  | .inner => g.inner

/-- The generator after it was asked one thing after another. -/
def after (g : Generator) (calls : List Call) : Generator := calls.foldl asked g

theorem layers_after (g : Generator) (calls : List Call) :
    (g.after calls).layers = g.layers.drop (calls.countP Call.isInner) := by
  induction calls generalizing g with
  | nil => rfl
  | cons c calls ih =>
    have hrest := ih (g.asked c)
    cases c with
    | next rolls | peek | peekSeconds => exact hrest
    | inner =>
      rw [List.countP_cons_of_pos rfl, Nat.add_comm, ← List.drop_drop, List.drop_one]
      exact hrest

/-- An answer that leaves the core as it is leaves the generator as it is. -/
theorem lift_core {g : Generator} {c : Core} {α : Type} (h : g.core = c) (a : α) :
    g.lift (a, c) = (a, g) := by
  subst h
  rfl

/-- What a generator answers while its core shows `d` and is moved on to `core'` by a draw. -/
structure Shows (g : Generator) (d : Duration) (core' : Core) : Prop where
  peek : g.peek = (d, g)
  peekSeconds : g.peekSeconds = (d.secs, g)
  moves : ∀ rolls, (g.next rolls).2.core = core'
  le : ∀ rolls, (g.next rolls).1.toNanos ≤ d.toNanos
  eq : g.layers.all Layer.isExact = true → ∀ rolls, (g.next rolls).1 = d

/-- Layers show what a core shows that has no seconds and no use for rolls of its own. -/
theorem shows_of_core {g : Generator} {d : Duration} {core' : Core}
    (hpeek : Core.source.peek g.core = (d, g.core))
    (hseconds : Core.source.peekSeconds g.core = Source.wholeSeconds Core.source.peek g.core)
    (hnext : ∀ rolls, Core.source.next rolls g.core = (d, core')) : g.Shows d core' where
  peek := by rw [Generator.peek, Source.peek_within, hpeek, lift_core rfl]
  peekSeconds := by
    rw [Generator.peekSeconds, Source.peekSeconds_within hseconds, Source.wholeSeconds, hpeek]
    exact lift_core rfl d.secs
  moves rolls := by
    obtain ⟨left, hstate, -⟩ := Source.next_within Core.source g.layers rolls g.core
    rw [hnext] at hstate
    exact hstate
  le rolls := by
    obtain ⟨left, -, hle, -⟩ := Source.next_within Core.source g.layers rolls g.core
    rw [hnext] at hle
    exact hle
  eq hexact rolls := by
    obtain ⟨left, -, -, heq⟩ := Source.next_within Core.source g.layers rolls g.core
    rw [hnext] at heq
    exact heq hexact

/-- The core is a generator of `p` from which `n` delays were drawn. -/
def Stands (p : Policy) (n : Nat) (g : Generator) : Prop :=
  ∃ f, g.core = .fibonacci f ∧ f.Stands p n

section Stands

variable {p : Policy} {n : Nat} {g : Generator}

/-- Such a generator shows the delay after the first `n`. -/
theorem Stands.shows (h : g.Stands p n) : ∃ d f', d.toNanos = p.term (n + 1) ∧
    Fibonacci.Stands p (n + 1) f' ∧ g.Shows d (.fibonacci f') := by
  obtain ⟨f, hf, hstands⟩ := h
  rcases hnext : f.next with ⟨d, f'⟩
  have hstands' := hstands.next
  have hd := f.fst_next
  rw [hnext] at hstands' hd
  have hterm : d.toNanos = p.term (n + 1) := by
    rw [← hstands.toNanos_peek, ← hd]
  refine ⟨d, f', hterm, hstands', shows_of_core ?peek ?seconds fun rolls => ?next⟩
  case peek =>
    rw [hf, show d = f.peek from hd]
    rfl
  case seconds =>
    rw [hf]
    exact Source.lift_wholeSeconds .fibonacci (fun f => (f.peek, f)) rfl
  case next =>
    rw [hf]
    show Core.lift .fibonacci f.next = _
    rw [hnext]
    rfl

theorem stands_asked (h : g.Stands p n) (c : Call) :
    (g.asked c).Stands p (n + if c.isDraw then 1 else 0) := by
  obtain ⟨d, f', -, hstands, hshows⟩ := h.shows
  cases c with
  | next rolls => exact ⟨f', hshows.moves rolls, hstands⟩
  | peek =>
    rw [asked, hshows.peek]
    exact h
  | peekSeconds =>
    rw [asked, hshows.peekSeconds]
    exact h
  | inner => exact h

theorem stands_after (h : g.Stands p n) (calls : List Call) :
    (g.after calls).Stands p (n + calls.countP Call.isDraw) := by
  induction calls generalizing g n with
  | nil => exact h
  | cons c calls ih =>
    have hrest := ih (stands_asked h c)
    rw [Nat.add_assoc, Nat.add_comm (if c.isDraw then 1 else 0), ← List.countP_cons] at hrest
    exact hrest

end Stands

/-- Whatever a generator of `p` inside layers was asked, and with some layers taken off in between:
looking ahead leaves it as it is and shows the delay that follows those drawn, and the whole
seconds of that; a draw is no longer than what was shown, and just that if none of the layers that
are left randomizes; and with one more layer off it shows the same. -/
theorem answers_after (p : Policy) (layers : List Layer) (calls : List Call) :
    let g := Generator.after ⟨layers, .fibonacci (.ofPolicy p)⟩ calls
    let n := calls.countP Call.isDraw
    g.layers = layers.drop (calls.countP Call.isInner) ∧
    (g.peek.2 = g ∧ g.peekSeconds.2 = g) ∧
    g.peek.1.toNanos = p.term (n + 1) ∧
    g.peekSeconds.1.toNat = p.term (n + 1) / Duration.nanosPerSecond ∧
    (∀ rolls, (g.next rolls).1.toNanos ≤ g.peek.1.toNanos) ∧
    (g.layers.all Layer.isExact = true → ∀ rolls, (g.next rolls).1 = g.peek.1) ∧
    g.inner.peek = (g.peek.1, g.inner) := by
  intro g n
  have hstart : Stands p 0 ⟨layers, .fibonacci (.ofPolicy p)⟩ :=
    ⟨_, rfl, Fibonacci.stands_ofPolicy p⟩
  have hafter := stands_after hstart calls
  rw [Nat.zero_add] at hafter
  have hg : g.Stands p n := hafter
  obtain ⟨d, f', hd, -, hshows⟩ := hg.shows
  have hinner : g.inner.Stands p n := hg
  obtain ⟨d', f'', hd', -, hshows'⟩ := hinner.shows
  obtain rfl : d = d' := Duration.toNanos_inj (hd.trans hd'.symm)
  rw [hshows.peek, hshows.peekSeconds, hshows'.peek]
  refine ⟨layers_after _ calls, ⟨rfl, rfl⟩, hd, ?seconds, hshows.le, hshows.eq, rfl⟩
  case seconds =>
    rw [← hd]
    exact d.toNat_secs

end Generator

end Backoff

end Reattempt
