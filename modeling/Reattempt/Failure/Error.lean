import Reattempt.Failure.Outcome

/-!
# Errors

Errors of several origins are kept side by side: plain ones, with or without a
cause, texts, errors with a context in front, aggregates of other errors, and
failed attempts and campaigns. An aggregate is told as a list with one line for
each member, and counts its first member as its cause.
-/

namespace Reattempt

inductive Error where
  | plain (kind message : String)
  | caused (kind message : String) (cause : Error)
  | note (message : String)
  | wrapped (context : String) (source : Error)
  | aggregate (members : List Error) (critical : Option Nat)
  | attempt (retryable : Bool) (inner : Error)
  | defeat (inner : Error)
  | canceled
  | deadlineExceeded (deadline : Duration)
deriving Inhabited

namespace Error

/-- The first line of an aggregate. -/
def headline (count : Nat) : String :=
  if count = 1 then "1 error occurred:\n" else toString count ++ " errors occurred:\n"

/-- The lines of an aggregate whose members have these texts. -/
def listing (texts : List String) : String :=
  headline texts.length ++ String.join (texts.map fun t => "\t* " ++ t ++ "\n") ++ "\n"

mutual

def text : Error → String
  | .plain _ message => message
  | .caused _ message _ => message
  | .note message => message
  | .wrapped context source => context ++ ": " ++ source.text
  | .aggregate members _ => listing (texts members)
  | .attempt _ inner => inner.text
  | .defeat inner => inner.text
  | .canceled => CampaignFailure.canceledText
  | .deadlineExceeded d => CampaignFailure.deadlineText d

def texts : List Error → List String
  | [] => []
  | e :: es => e.text :: texts es

end

/-- The texts of the error's causes: its cause, the cause of that, and so on. -/
def causes : Error → List String
  | .caused _ _ cause => cause.text :: cause.causes
  | .wrapped _ source => source.text :: source.causes
  | .aggregate (first :: _) _ => first.text :: first.causes
  | .attempt _ inner => inner.causes
  | .defeat inner => inner.causes
  | _ => []

instance : Explained Error := ⟨text, causes⟩

/-- The kind of a plain error; other errors have none. -/
def kind : Error → String
  | .plain kind _ => kind
  | .caused kind _ _ => kind
  | _ => ""

def isAggregate : Error → Bool
  | .aggregate _ _ => true
  | _ => false

/-- An error with a context in front, if there is one. -/
def wrap (context : Option String) (e : Error) : Error :=
  context.elim e fun c => .wrapped c e

@[simp] theorem wrap_none : wrap none = id := rfl

@[simp] theorem wrap_some (c : String) : wrap (some c) = .wrapped c := rfl

theorem texts_eq_map (es : List Error) : texts es = es.map text := by
  induction es with
  | nil => rfl
  | cons e es ih => simp [texts, ih]

end Error

end Reattempt
