import Reattempt.Json.Token

/-!
# Documents, as far as they go

Reading a document never fails. A text that stops being a document gives a
tree that is `broken` at that place, so whoever walks a tree in text order
meets either what the text says or the place where it says nothing, whichever
comes first. A document is well formed exactly if its tree is intact and no
lexeme is left over.
-/

namespace Reattempt.Json

mutual

/-- A value, or the place where one should be. -/
inductive Node where
  | null
  | bool (b : Bool)
  | number (n : Numeral)
  | string (s : Option String)
  | array (items : Items)
  | object (members : Members)
  | broken

/-- The rest of an array. -/
inductive Items where
  | closed
  | broken
  | item (value : Node) (rest : Items)

/-- The rest of an object. -/
inductive Members where
  | closed
  | broken
  | member (key : Option String) (value : Node) (rest : Members)

end

mutual

/-- No place in the tree is broken. -/
def Node.intact : Node → Bool
  | .array items => items.intact
  | .object members => members.intact
  | .broken => false
  | _ => true

def Items.intact : Items → Bool
  | .closed => true
  | .broken => false
  | .item value rest => value.intact && rest.intact

def Members.intact : Members → Bool
  | .closed => true
  | .broken => false
  | .member _ value rest => value.intact && rest.intact

end

mutual

/-- The value at the front of some lexemes, and the lexemes behind it. -/
def readNode : Nat → List Token → Node × List Token
  | 0, _ => (.broken, [])
  | _, [] => (.broken, [])
  | _, .null :: ts => (.null, ts)
  | _, .bool b :: ts => (.bool b, ts)
  | _, .number n :: ts => (.number n, ts)
  | _, .string s :: ts => (.string s, ts)
  | _, .arrayOpen :: .arrayClose :: ts => (.array .closed, ts)
  | _, .objectOpen :: .objectClose :: ts => (.object .closed, ts)
  | fuel + 1, .arrayOpen :: ts =>
    let (items, ts) := readItems fuel ts
    (.array items, ts)
  | fuel + 1, .objectOpen :: ts =>
    let (members, ts) := readMembers fuel ts
    (.object members, ts)
  | _, _ => (.broken, [])

/-- One or more values between commas, up to the closing bracket. -/
def readItems : Nat → List Token → Items × List Token
  | 0, _ => (.broken, [])
  | fuel + 1, ts =>
    match readNode fuel ts with
    | (value, .arrayClose :: ts) => (.item value .closed, ts)
    | (value, .comma :: ts) =>
      let (rest, ts) := readItems fuel ts
      (.item value rest, ts)
    | (value, _) => (.item value .broken, [])

/-- One or more keys with their values, up to the closing brace. -/
def readMembers : Nat → List Token → Members × List Token
  | 0, _ => (.broken, [])
  | fuel + 1, .string key :: .colon :: ts =>
    match readNode fuel ts with
    | (value, .objectClose :: ts) => (.member key value .closed, ts)
    | (value, .comma :: ts) =>
      let (rest, ts) := readMembers fuel ts
      (.member key value rest, ts)
    | (value, _) => (.member key value .broken, [])
  | _ + 1, .string key :: _ => (.member key .broken .broken, [])
  | _ + 1, _ => (.broken, [])

end

/-- A value with what the text holds behind it. -/
structure Document where
  root : Node
  leftover : Bool

/-- Each lexeme is taken at most once as a value, an item and a member. -/
def Document.ofTokens (ts : List Token) : Document :=
  let (root, rest) := readNode (2 * ts.length + 2) ts
  ⟨root, !rest.isEmpty⟩

def Document.read (text : String) : Document :=
  .ofTokens (Token.ofText text.toList)

end Reattempt.Json
