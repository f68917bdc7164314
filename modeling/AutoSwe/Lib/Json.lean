import Mathlib

/-!
# JSON documents

A document is what a JSON text denotes, with the fields of an object in some
order. `tokens` is its compact form before the tokens are written as text.
-/

/-- The texts that a float is written as: digits with a point or an exponent, or the
name of a value that is not finite. -/
def isFloatText (text : String) : Bool :=
  text = "NaN" || text = "Infinity" || text = "-Infinity" ||
    (text.toList.all fun c => c.isDigit || c = '.' || c = 'e' || c = '+' || c = '-') &&
      text.toList.any fun c => c = '.' || c = 'e'

/-- A float, by its shortest text that reads back as the float. -/
structure FloatText where
  text : String
  isFloat : isFloatText text = true
deriving DecidableEq

inductive Json
  | null
  | bool (value : Bool)
  | num (value : Int)
  | float (value : FloatText)
  | str (value : String)
  | arr (items : List Json)
  | obj (fields : List (String × Json))

namespace Json

def get? (document : Json) (key : String) : Option Json :=
  match document with
  | .obj fields => (fields.find? fun field => field.1 = key).map Prod.snd
  | _ => none

def ofOption (text : Option String) : Json :=
  match text with
  | some value => .str value
  | none => .null

/-! ## Tokens -/

inductive Token
  | null
  | bool (value : Bool)
  | num (value : Int)
  | float (value : FloatText)
  | str (value : String)
  | openArr
  | closeArr
  | openObj
  | closeObj
  | comma
  | colon
deriving DecidableEq

def head : Json → Token
  | .null => .null
  | .bool value => .bool value
  | .num value => .num value
  | .float value => .float value
  | .str value => .str value
  | .arr _ => .openArr
  | .obj _ => .openObj

mutual
def body : Json → List Token
  | .arr items => itemTokens items
  | .obj fields => fieldTokens fields
  | _ => []
def itemTokens : List Json → List Token
  | [] => [.closeArr]
  | item :: rest => item.head :: item.body ++ moreItems rest
def moreItems : List Json → List Token
  | [] => [.closeArr]
  | item :: rest => .comma :: item.head :: item.body ++ moreItems rest
def fieldTokens : List (String × Json) → List Token
  | [] => [.closeObj]
  | (key, value) :: rest => .str key :: .colon :: value.head :: value.body ++ moreFields rest
def moreFields : List (String × Json) → List Token
  | [] => [.closeObj]
  | (key, value) :: rest =>
    .comma :: .str key :: .colon :: value.head :: value.body ++ moreFields rest
end

def tokens (document : Json) : List Token := document.head :: document.body

theorem head_ne_closeArr (document : Json) : document.head ≠ .closeArr := by
  cases document <;> simp [head]

/-- Documents that start alike are equal, or both arrays, or both objects. -/
theorem cases_of_head {a b : Json} (h : a.head = b.head) :
    a = b ∨ (∃ xs ys, a = .arr xs ∧ b = .arr ys) ∨ ∃ fs gs, a = .obj fs ∧ b = .obj gs := by
  cases a <;> cases b <;> simp_all [head]

end Json
