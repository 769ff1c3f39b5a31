import Reattempt.Backoff.Fibonacci
import Reattempt.Backoff.Jitter

/-!
# Generators

A generator is a core that produces delays inside layers that pass them on. A
layer shares the generator among its holders or randomizes what it draws. Each
layer forwards `next` and `peek` and answers `peekSeconds` from what it peeks
at, so a core that has seconds of its own is heard only without layers.
-/

namespace Reattempt.Backoff

/-- What stands around a generator. -/
inductive Layer where
  | shared
  | jittered (j : Jitter)
deriving DecidableEq

/-- Sharing forwards `next` and `peek`; the seconds follow from `peek`. -/
def Source.share {σ : Type} (src : Source σ) : Source σ :=
  { src with peekSeconds := Source.wholeSeconds src.peek }

def Layer.wrap {σ : Type} : Layer → Source σ → Source σ
  | .shared, src => src.share
  | .jittered j, src => j.decorate src

/-- A source inside layers, the outermost first. -/
def Source.within {σ : Type} (src : Source σ) (layers : List Layer) : Source σ :=
  layers.foldr Layer.wrap src

/-- Delays given in advance: the last one is repeated for ever. -/
structure Listed where
  delays : List Duration
  /-- What looking ahead shows instead of the delays. -/
  peeks : Option (List Duration)
  /-- What the whole seconds always are, if they do not follow from looking ahead. -/
  seconds : Option UInt64
  drawn : Nat
deriving DecidableEq

namespace Listed

/-- The entry at a position, or the last one before it. -/
def entry (ds : List Duration) (i : Nat) : Duration :=
  ds.getD (min i (ds.length - 1)) .zero

def peek (l : Listed) : Duration := entry (l.peeks.getD l.delays) l.drawn

def source : Source Listed where
  next _ l := (entry l.delays l.drawn, { l with drawn := l.drawn + 1 })
  peek l := (l.peek, l)
  peekSeconds l := (l.seconds.getD l.peek.secs, l)

end Listed

/-- Where the delays of a generator come from. -/
inductive Core where
  | fibonacci (g : Fibonacci)
  | listed (l : Listed)
deriving DecidableEq

/-- An answer on a part of a state, as an answer on the whole. -/
def Core.lift {α σ : Type} (put : σ → Core) (answer : α × σ) : α × Core :=
  (answer.1, put answer.2)

def Core.source : Source Core where
  next rolls
    | .fibonacci g => lift .fibonacci (Fibonacci.source.next rolls g)
    | .listed l => lift .listed (Listed.source.next rolls l)
  peek
    | .fibonacci g => lift .fibonacci (Fibonacci.source.peek g)
    | .listed l => lift .listed (Listed.source.peek l)
  peekSeconds
    | .fibonacci g => lift .fibonacci (Fibonacci.source.peekSeconds g)
    | .listed l => lift .listed (Listed.source.peekSeconds l)

/-- A core inside layers, the outermost first. -/
structure Generator where
  layers : List Layer
  core : Core
deriving DecidableEq

namespace Generator

def lift {α : Type} (g : Generator) (answer : α × Core) : α × Generator :=
  (answer.1, { g with core := answer.2 })

def next (rolls : Rolls) (g : Generator) : Duration × Generator :=
  g.lift ((Core.source.within g.layers).next rolls g.core)

def peek (g : Generator) : Duration × Generator :=
  g.lift ((Core.source.within g.layers).peek g.core)

def peekSeconds (g : Generator) : UInt64 × Generator :=
  g.lift ((Core.source.within g.layers).peekSeconds g.core)

def source : Source Generator := ⟨next, peek, peekSeconds⟩

/-- The generator without its outermost layer, standing where it stood. -/
def inner (g : Generator) : Generator := { g with layers := g.layers.tail }

/-- The policy of the generator at the core, if it follows one. -/
def policy? (g : Generator) : Option Policy :=
  match g.core with
  | .fibonacci f => some f.policy
  | .listed _ => none

end Generator

end Reattempt.Backoff
