import Reattempt.Json.Node
import Reattempt.Json.Write

/-!
# The grammar of documents

A text is a document if it is put together by the rules of the grammar, which
do not say how a text is read. There may be blanks around every value and every
key, and inside empty brackets. A number may have a fraction and an exponent,
but no zero in front. A string may hold any characters, the control characters
only behind backslashes; it names a text unless a surrogate in it stands alone.
-/

namespace Reattempt.Json

open Text Token

/-! ## Numbers -/

/-- Digits that stand before a point or alone. -/
structure Token.Whole (ds : List Char) : Prop where
  digits : ∀ c ∈ ds, c.isDigit = true
  ne_nil : ds ≠ []
  /-- A zero stands alone. -/
  alone : ∀ cs, ds = '0' :: cs → cs = []

/-- The digits behind a point, if there is one. -/
inductive FractionText : List Char → List Char → Prop where
  | missing : FractionText [] []
  | digits {ds : List Char} (hds : ∀ c ∈ ds, c.isDigit = true) (hne : ds ≠ []) :
    FractionText ('.' :: ds) ds

/-- The sign of an exponent; true for a minus. -/
inductive SignText : List Char → Bool → Prop where
  | missing : SignText [] false
  | plus : SignText ['+'] false
  | minus : SignText ['-'] true

/-- An exponent, if there is one. -/
inductive ExponentText : List Char → Option Int → Prop where
  | missing : ExponentText [] none
  | digits {mark : Char} {sign ds : List Char} {negative : Bool} (hmark : mark = 'e' ∨ mark = 'E')
    (hsign : SignText sign negative) (hds : ∀ c ∈ ds, c.isDigit = true) (hne : ds ≠ []) :
    ExponentText (mark :: (sign ++ ds))
      (some (if negative then -(Digits.toNat ds : Int) else Digits.toNat ds))

inductive NumberText : List Char → Numeral → Prop where
  | mk (negative : Bool) {ws fraction fs exponent : List Char} {e : Option Int} (hws : Whole ws)
    (hfraction : FractionText fraction fs) (hexponent : ExponentText exponent e) :
    NumberText ((if negative then ['-'] else []) ++ (ws ++ (fraction ++ exponent)))
      ⟨negative, Digits.toNat (ws ++ fs), fs.length, e.getD 0, fs.isEmpty && e.isNone⟩

/-! ## Strings -/

/-- What stands between the quotes of a string. -/
inductive PiecesText : List Char → List Piece → Prop where
  | nil : PiecesText [] []
  | char {c : Char} {cs : List Char} {ps : List Piece} (hc : ¬ c.toNat < 32) (hquote : c ≠ '"')
    (hslash : c ≠ '\\') (h : PiecesText cs ps) : PiecesText (c :: cs) (.char c :: ps)
  | letter {l c : Char} {cs : List Char} {ps : List Piece} (hl : letter? l = some c)
    (h : PiecesText cs ps) : PiecesText ('\\' :: l :: cs) (.char c :: ps)
  | unit {a b c d : Char} {i j k l : Nat} {cs : List Char} {ps : List Piece}
    (ha : hexValue? a = some i) (hb : hexValue? b = some j) (hc : hexValue? c = some k)
    (hd : hexValue? d = some l) (h : PiecesText cs ps) :
    PiecesText ('\\' :: 'u' :: a :: b :: c :: d :: cs)
      (.unit (4096 * i + 256 * j + 16 * k + l) :: ps)

inductive StringText : List Char → Option String → Prop where
  | mk {cs : List Char} {ps : List Piece} (h : PiecesText cs ps) :
    StringText ('"' :: cs ++ ['"']) ((characters? ps).map String.ofList)

/-! ## Values -/

def Items.ofList : List Node → Items
  | [] => .closed
  | n :: ns => .item n (.ofList ns)

def Members.ofList : List (Option String × Node) → Members
  | [] => .closed
  | (key, n) :: ms => .member key n (.ofList ms)

/-- Members whose keys all name texts. -/
def Members.ofFields (fields : List (String × Node)) : Members :=
  .ofList (fields.map fun (key, n) => (some key, n))

def Blank (cs : List Char) : Prop := ∀ c ∈ cs, isBlank c = true

/-- A key with blanks around it. -/
inductive KeyText : List Char → Option String → Prop where
  | mk {bs cs bs' : List Char} {key : Option String} (hbs : Blank bs) (h : StringText cs key)
    (hbs' : Blank bs') : KeyText (bs ++ (cs ++ bs')) key

/-- An item of an array and its text. -/
structure Element where
  text : List Char
  value : Node

/-- A member of an object and its text, on both sides of the colon. -/
structure Field where
  keyText : List Char
  key : Option String
  text : List Char
  value : Node

inductive ValueText : List Char → Node → Prop where
  | nullWord : ValueText ['n', 'u', 'l', 'l'] .null
  | trueWord : ValueText ['t', 'r', 'u', 'e'] (.bool true)
  | falseWord : ValueText ['f', 'a', 'l', 's', 'e'] (.bool false)
  | number {cs : List Char} {n : Numeral} (h : NumberText cs n) : ValueText cs (.number n)
  | string {cs : List Char} {s : Option String} (h : StringText cs s) : ValueText cs (.string s)
  | emptyArray {bs : List Char} (hbs : Blank bs) : ValueText ('[' :: (bs ++ [']'])) (.array .closed)
  | array (es : List Element) (hne : es ≠ []) (h : ∀ e ∈ es, ValueText e.text e.value) :
    ValueText (writeArray (es.map Element.text)) (.array (.ofList (es.map Element.value)))
  | emptyObject {bs : List Char} (hbs : Blank bs) :
    ValueText ('\x7b' :: (bs ++ ['\x7d'])) (.object .closed)
  | object (fs : List Field) (hne : fs ≠ []) (hkeys : ∀ f ∈ fs, KeyText f.keyText f.key)
    (h : ∀ f ∈ fs, ValueText f.text f.value) :
    ValueText ('\x7b' :: (separate (fs.map fun f => f.keyText ++ ':' :: f.text) ++ ['\x7d']))
      (.object (.ofList (fs.map fun f => (f.key, f.value))))
  | blank {bs cs bs' : List Char} {n : Node} (hbs : Blank bs) (h : ValueText cs n)
    (hbs' : Blank bs') : ValueText (bs ++ (cs ++ bs')) n

/-- A whole text is the document of a value. -/
def IsText (text : String) (n : Node) : Prop := ValueText text.toList n

/-! ## Intact trees -/

theorem Items.intact_ofList {ns : List Node} (h : ∀ n ∈ ns, n.intact = true) :
    (Items.ofList ns).intact = true := by
  induction ns with
  | nil => rfl
  | cons n ns ih =>
    rw [Items.ofList, Items.intact, h n List.mem_cons_self, Bool.true_and]
    exact ih fun m hm => h m (List.mem_cons_of_mem n hm)

theorem Members.intact_ofList_iff {ms : List (Option String × Node)} :
    (Members.ofList ms).intact = true ↔ ∀ m ∈ ms, m.2.intact = true := by
  induction ms with
  | nil => simp [Members.ofList, Members.intact]
  | cons m ms ih => simp [Members.ofList, Members.intact, ih]

/-- Nothing is broken in the value of a document. -/
theorem ValueText.intact {text : List Char} {n : Node} (h : ValueText text n) :
    n.intact = true := by
  induction h with
  | array es _ _ ih => exact Items.intact_ofList (by simpa using ih)
  | object fs _ _ _ ih => exact Members.intact_ofList_iff.mpr (by simpa using ih)
  | blank _ _ _ ih => exact ih
  | _ => rfl

/-! ## Blanks -/

theorem blank_nil : Blank [] := nofun

/-- The blanks behind a value belong to it. -/
theorem ValueText.behind {text bs : List Char} {n : Node} (h : ValueText text n) (hbs : Blank bs) :
    ValueText (text ++ bs) n :=
  .blank blank_nil h hbs

/-- So do the blanks before it. -/
theorem ValueText.before {text bs : List Char} {n : Node} (hbs : Blank bs) (h : ValueText text n) :
    ValueText (bs ++ text) n := by
  simpa using ValueText.blank hbs h blank_nil

end Reattempt.Json
