import Songline.Number.Literal

set_option autoImplicit false

namespace Songline.Settings

def isNullWord (word : String) : Bool := ["~", "null", "Null", "NULL"].contains word

def boolOfWord? (word : String) : Option Bool :=
  if ["true", "True", "TRUE"].contains word then some true
  else if ["false", "False", "FALSE"].contains word then some false
  else none

/-- A whole number without a sign: to base 16, 8 or 2 with a mark, or to base 10 without a zero in
front. -/
def natOfChars? : List Char → Option Nat
  | '0' :: 'x' :: ds => Literal.digits? 16 ds
  | '0' :: 'o' :: ds => Literal.digits? 8 ds
  | '0' :: 'b' :: ds => Literal.digits? 2 ds
  | '0' :: _ :: _ => none
  | ds => Literal.digits? 10 ds

def countOfWord? (word : String) : Option UInt64 :=
  ((natOfChars? (Literal.dropPlus word.toList)).filter (· < UInt64.size)).map UInt64.ofNat

/-- The numbers below which a whole number has to be, without a sign and after a minus: what 128
bits hold. -/
def integerBounds : Nat × Nat := (Nat.pow 2 128, Nat.pow 2 127 + 1)

/-- A whole number of 128 bits, with a sign or without. -/
def integerOfWord? (word : String) : Option Int :=
  match word.toList with
  | '-' :: ds => ((natOfChars? ds).filter (· < integerBounds.2)).map fun n => -(n : Int)
  | cs => ((natOfChars? (Literal.dropPlus cs)).filter (· < integerBounds.1)).map fun n => (n : Int)

/-- Whether a word has digits only, after a sign if there is one, and a zero in front of others. -/
def hasLeadingZero (word : String) : Bool :=
  let (_, ds) := Literal.takeSign word.toList
  ds.length > 1 && ds.head? = some '0' && ds.all Char.isDigit

/-- A double: a decimal number that is finite in doubles, or a word for what is none. -/
def floatOfWord? (word : String) : Option Float :=
  let unsigned := String.ofList (Literal.dropPlus word.toList)
  if [".inf", ".Inf", ".INF"].contains unsigned then some (1.0 / 0.0)
  else if ["-.inf", "-.Inf", "-.INF"].contains word then some (-1.0 / 0.0)
  else if [".nan", ".NaN", ".NAN"].contains word then some (0.0 / 0.0)
  else if word ≠ unsigned && ["+", "-"].contains (String.ofList (unsigned.toList.take 1)) then none
  else ((Literal.decimal? unsigned.toList).map Literal.toFloat).filter Float.isFinite

end Songline.Settings
