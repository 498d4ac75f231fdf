import LeafWeb.Lib.Gather
import LeafWeb.Lib.Text
import Mathlib.Algebra.Order.Ring.Rat

namespace LeafWeb.Campaign

open Lib

inductive Failure
  | invalid (message : String)
  | secret
  | conflict (code : String)
  | missing
  | unavailable

def isUpper (c : Char) : Bool := 'A' ≤ c && c ≤ 'Z'

def isDigit (c : Char) : Bool := '0' ≤ c && c ≤ '9'

def isAlphanum (c : Char) : Bool := isUpper c || ('a' ≤ c && c ≤ 'z') || isDigit c

/-- A private key in PEM form. What stands between its two dashed parts has no dash, so that the
longest run of its characters is the one that matches. -/
def startsPem (cs : List Char) : Bool :=
  let within (c : Char) : Bool := isUpper c || isDigit c || c = ' '
  let rest := cs.drop 11
  cs.take 11 = "-----BEGIN ".toList &&
    ("PRIVATE KEY".toList.reverse.isPrefixOf (rest.takeWhile within).reverse) &&
    "-----".toList.isPrefixOf (rest.dropWhile within)

def startsToken (cs : List Char) : Bool :=
  let within (c : Char) : Bool := isAlphanum c || c = '_' || c = '-'
  let rest := cs.drop 3
  cs.take 3 = "eyJ".toList && 10 ≤ (rest.takeWhile within).length &&
    ".eyJ".toList.isPrefixOf (rest.dropWhile within)

def startsKeyBlob (cs : List Char) : Bool :=
  cs.take 4 = "AAAA".toList && 20 ≤ ((cs.drop 4).takeWhile fun c => isAlphanum c || c = '+' || c = '/').length

/-- `_SECRET_VALUE_RE` is found in the text. -/
def secretText (s : String) : Bool :=
  s.toList.tails.any fun rest => startsPem rest || startsToken rest || startsKeyBlob rest

def _secret (value : String) : Except Failure Unit := refuse (secretText value = true) .secret

def _text (value name : String) (maximum : ℕ) : Except Failure Unit := do
  _secret value
  refuse (¬ (1 ≤ value.length ∧ value.length ≤ maximum) ∨ '\x00' ∈ value.toList)
    (.invalid (name ++ " must contain 1 to " ++ toString maximum ++ " characters"))

def isHex (length : ℕ) (s : String) : Bool :=
  s.length = length && s.toList.all fun c => isDigit c || ('a' ≤ c && c ≤ 'f')

end LeafWeb.Campaign
