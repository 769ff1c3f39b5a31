import Reattempt.Failure.Error

/-!
# Aggregates of errors

An aggregate keeps errors in the order in which they were appended and marks at
most one of them as the critical one; the last mark counts. Appending an
aggregate appends its members, with its mark, instead of nesting it. Only an
aggregate at the top is taken apart: one inside another error is one member.
-/

namespace Reattempt

/-- Errors in order, with the position of the critical one. -/
structure Aggregate where
  members : List Error
  critical : Option Nat
deriving Inhabited

namespace Aggregate

def empty : Aggregate := ⟨[], none⟩

/-- An aggregate as an error. -/
def toError (a : Aggregate) : Error := .aggregate a.members a.critical

/-- Appends an error under a context, and marks it if it is critical. Of an appended
aggregate its own critical member is marked, or else, if it is critical, its first. -/
def push (a : Aggregate) (e : Error) (critical : Bool) (context : Option String) : Aggregate :=
  match e with
  | .aggregate [] _ => a
  | .aggregate members mark =>
    let marked := mark.or (if critical then some 0 else none)
    { members := a.members ++ members.map (Error.wrap context)
      critical := (marked.map (a.members.length + ·)).or a.critical }
  | e =>
    { members := a.members ++ [e.wrap context]
      critical := if critical then some a.members.length else a.critical }

def append (a : Aggregate) (e : Error) : Aggregate := a.push e false none

def appendCritical (a : Aggregate) (e : Error) : Aggregate := a.push e true none

def appendContext (a : Aggregate) (e : Error) (context : String) : Aggregate :=
  a.push e false (some context)

def appendCriticalContext (a : Aggregate) (e : Error) (context : String) : Aggregate :=
  a.push e true (some context)

/-- Appends the error of a result that is one. -/
def collect {α : Type} (a : Aggregate) : Except Error α → Aggregate
  | .ok _ => a
  | .error e => a.append e

def extend (a : Aggregate) (es : List Error) : Aggregate := es.foldl append a

/-- Nothing went wrong, or the errors that did. -/
def toResult (a : Aggregate) : Except Aggregate Unit :=
  if a.members.isEmpty then .ok () else .error a

def criticalMember? (a : Aggregate) : Option Error :=
  a.critical.bind fun i => a.members[i]?

/-- The texts of the members. -/
def list (a : Aggregate) : List String := a.members.map Error.text

/-- The text of the critical member, or nothing. -/
def criticalText (a : Aggregate) : String := (a.criticalMember?.map Error.text).getD ""

def text (a : Aggregate) : String := a.toError.text

def causes (a : Aggregate) : List String := a.toError.causes

theorem text_eq_listing (a : Aggregate) : a.text = Error.listing a.list := by
  simp [text, toError, Error.text, list, Error.texts_eq_map]

end Aggregate

end Reattempt
