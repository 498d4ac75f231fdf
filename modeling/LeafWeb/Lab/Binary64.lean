import LeafWeb.Lib.NumberText
import LeafWeb.Lib.ShortestDecimal

/-! Finite binary64 numbers as `lab_canonical.py` and `JSON.stringify` write them. -/

namespace LeafWeb.Lab

open Lib Nat

structure Binary64 where
  negative : Bool
  significand : ℕ
  exponent : ℤ
  normal : Normal 53 (-1074) significand exponent
  finite : exponent ≤ 971

def Binary64.magnitude (x : Binary64) : ℚ := x.significand * 2 ^ x.exponent

def Binary64.value (x : Binary64) : ℚ := if x.negative then -x.magnitude else x.magnitude

def float64 : ℚ → ℚ := nearest 53 (-1074)

def exponentField (power : ℤ) : List Char :=
  let digits := toDigits 10 power.natAbs
  (if 0 ≤ power then '+' else '-') :: (if digits.length < 2 then '0' :: digits else digits)

def formatParts (p : ℕ) (x : ℚ) : List Char × List Char × List Char :=
  let r := rounded p x
  let digits := toDigits 10 r.1
  let power := r.2 - 1
  if -4 ≤ power ∧ power < p then
    if 0 ≤ power then (digits.take r.2.toNat, stripEnd (digits.drop r.2.toNat), [])
    else (['0'], stripEnd (zeros (-r.2).toNat ++ digits), [])
  else (digits.take 1, stripEnd (digits.drop 1), exponentField power)

def formatText (p : ℕ) (x : ℚ) : List Char :=
  let parts := formatParts p x
  assemble parts.1 parts.2.1 parts.2.2

def format (p : ℕ) (x : Binary64) : List Char := (if x.negative then ['-'] else []) ++ formatText p x.magnitude

def float : List Char → ℚ
  | '-' :: t => -float64 (textValue t)
  | t => float64 (textValue t)

def serverLayout (digits : List Char) (position : ℤ) : List Char :=
  if 0 < position ∧ position ≤ 21 then
    if digits.length ≤ position then digits ++ zeros (position.toNat - digits.length)
    else digits.take position.toNat ++ '.' :: digits.drop position.toNat
  else if -6 < position ∧ position ≤ 0 then '0' :: '.' :: zeros (-position).toNat ++ digits
  else
    let power := position - 1
    digits.take 1 ++ (if 1 < digits.length then '.' :: digits.drop 1 else []) ++ 'e' :: signed power

def rewrite (text : List Char) : List Char :=
  let sign := if text.head? = some '-' then ['-'] else []
  let body := text.dropWhile (· = '-')
  let digits := wholeText body ++ fractionText body
  let position := (wholeText body).length + intText (exponentText body)
  let leading := digits.length - (digits.dropWhile (· = '0')).length
  sign ++ serverLayout (stripEnd (digits.dropWhile (· = '0'))) (position - leading)

def serverNumber (x : Binary64) : Option (List Char) :=
  if x.value = 0 then some ['0']
  else ((List.range 17).find? fun i => float (format (i + 1) x) = x.value).map fun i =>
    rewrite (format (i + 1) x)

def readsBack (x : Binary64) (q : ℚ) : Bool := float64 q = x.magnitude

def browserNumber (x : Binary64) : Option (List Char) :=
  if x.value = 0 then some ['0']
  else (shortest (readsBack x) x.magnitude 17).map fun d =>
    (if x.negative then ['-'] else []) ++ layout (toDigits 10 d.2.1) d.2.2

end LeafWeb.Lab
