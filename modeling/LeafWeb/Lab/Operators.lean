import LeafWeb.Lab.Canonical
import LeafWeb.Lib.ComparisonSort

/-! The operators of Lab blocks, as `lab_ops.py` and `ops.js` run them. `none` is a refusal; within a result
it is JavaScript's `undefined`. -/

namespace LeafWeb.Lab

open Lib

def maxRows : ℕ := 5000

inductive Operator where
  | constant | identity | field | select | filter | sort | take | count | sum | mean | min | max
  | add | subtract | multiply | divide | latest | window | collect

def Operator.name : Operator → String
  | constant => "constant"
  | identity => "identity"
  | field => "field"
  | select => "select"
  | filter => "filter"
  | sort => "sort"
  | take => "take"
  | count => "count"
  | sum => "sum"
  | mean => "mean"
  | min => "min"
  | max => "max"
  | add => "add"
  | subtract => "subtract"
  | multiply => "multiply"
  | divide => "divide"
  | latest => "latest"
  | window => "window"
  | collect => "collect"

def Operator.id (o : Operator) : Text := units o.name

/-- Binary64 arithmetic, which the two sides share. A result that is not finite is none. -/
structure Arithmetic where
  (add subtract multiply divide : Binary64 → Binary64 → Option Binary64)
  average : Binary64 → ℕ → Binary64
  ofCount : ℕ → Binary64

def Binary64.zero : Binary64 where
  negative := false
  significand := 0
  exponent := -1074
  normal := ⟨by norm_num, le_rfl, .inr rfl⟩
  finite := by norm_num

def entry (fields : List (Text × Json)) (key : String) : Option Json := fields.lookup (units key)

def splitDots (path : Text) : List Text := path.splitOn 0x2e

def refusedKeys : List Text := [units "__proto__", units "prototype", units "constructor"]

namespace Server

def operatorIds : List Operator :=
  [.constant, .identity, .field, .select, .filter, .sort, .take, .count, .sum, .mean, .min, .max,
    .add, .subtract, .multiply, .divide, .latest, .window, .collect]

def rows : Option Json → Option (List Json)
  | some (.array items) => some items
  | _ => none

def number : Option Json → Option Binary64
  | some (.number x) => some x
  | _ => none

def count : Option Json → Option ℕ
  | none => some maxRows
  | some value => do
    let result ← number (some value)
    if 0 ≤ result.value ∧ result.value ≤ maxRows ∧ result.value.den = 1 then
      some result.value.num.toNat
    else none

def truthy : Option Json → Bool
  | none | some .null | some (.bool false) => false
  | some (.number x) => x.value ≠ 0
  | some (.text s) => s ≠ []
  | some _ => true

def isDecimal (u : UInt16) : Bool := 0x30 ≤ u.toNat && u.toNat ≤ 0x39

/-- `int(key)` -/
def int (key : Text) : ℕ := key.foldl (fun n u => 10 * n + (u.toNat - 0x30)) 0

def isIndex (key : Text) (length : ℕ) : Bool :=
  key ≠ [] && key.all isDecimal && (key = [0x30] || key.head? ≠ some 0x30) && key.length ≤ 10 && int key < length

variable (arithmetic : Arithmetic)

def follow : Json → List Text → Option Json
  | value, [] => some value
  | value, key :: keys =>
    if key ∈ refusedKeys then none
    else match value with
      | .object fields =>
        match fields.lookup key with
        | some child => follow child keys
        | none => some .null
      | .array items =>
        if key = units "length" then follow (.number (arithmetic.ofCount items.length)) keys
        else if isIndex key items.length then follow (items.getD (int key) .null) keys
        else some .null
      | _ => some .null

/-- A missing value is no container, and every path has a key. -/
def field (value path : Option Json) : Option Json :=
  match path with
  | some (.text path) =>
    if path = [] then none else follow arithmetic (value.getD .null) (splitDots path)
  | _ => none

/-- Data of one document is never the same object twice, so `is` tells values apart by what they
are. -/
def same : Json → Option Json → Bool
  | .null, some .null => true
  | .number x, some (.number y) => x.value = y.value
  | .text s, some (.text t) => s = t
  | .bool a, some (.bool b) => a = b
  | _, _ => false

def compare (a : Json) (b : Option Json) : Option Ordering :=
  if same a b then some .eq
  else match a, b with
    | .null, _ => some .lt
    | _, some .null => some .gt
    | .number x, some (.number y) => some (if x.value < y.value then .lt else .gt)
    | .text s, some (.text t) => some (if lexLe (utf16be t) (utf16be s) then .gt else .lt)
    | .bool a, some (.bool b) => some (if !a && b then .lt else .gt)
    | _, _ => none

def predicate (value : Json) (settings : List (Text × Json)) : Option Bool := do
  let selected ← field arithmetic (some value) (entry settings "field")
  let comparison := if truthy (entry settings "comparison") then entry settings "comparison"
    else some (.text (units "eq"))
  let target := entry settings "value"
  match comparison with
  | some (.text name) =>
    if name = units "eq" ∨ name = units "ne" then do
      let left ← canonicalText selected
      let right ← target.bind canonicalText
      return if name = units "eq" then left = right else left ≠ right
    else if name = units "gt" then (compare selected target).map fun o => o = .gt
    else if name = units "gte" then (compare selected target).map fun o => o ≠ .lt
    else if name = units "lt" then (compare selected target).map fun o => o = .lt
    else if name = units "lte" then (compare selected target).map fun o => o ≠ .gt
    else none
  | _ => none

def direction : Option Json → Option Bool
  | none => some false
  | some (.text name) =>
    if name = units "asc" then some false else if name = units "desc" then some true else none
  | some _ => none

def measure (settings : List (Text × Json)) (row : Json) : Option Binary64 :=
  let path := entry settings "field"
  if truthy path then (field arithmetic (some row) path).bind fun v => number (some v)
  else number (some row)

def keyLess (x y : Binary64) : Bool := x.value < y.value || (x.value = y.value && x.negative && !y.negative)

def minOf (first : Binary64) (rest : List Binary64) : Binary64 :=
  rest.foldl (fun best x => if keyLess x best then x else best) first

def maxOf (first : Binary64) (rest : List Binary64) : Binary64 :=
  rest.foldl (fun best x => if keyLess best x then x else best) first

def total (settings : List (Text × Json)) (values : List Json) : Option Binary64 :=
  values.foldlM (fun sum row => (measure arithmetic settings row).bind (arithmetic.add sum)) .zero

def extreme (pick : Binary64 → List Binary64 → Binary64) : List Binary64 → Json
  | [] => .null
  | x :: xs => .number (pick x xs)

def binary (f : Binary64 → Binary64 → Option Binary64) (input : List (Text × Json)) : Option (Option Json) := do
  let left ← number (entry input "value")
  let right ← number (entry input "auxiliary")
  let result ← f left right
  return some (.number result)

def runOperator (sort : StableSort) (id : Text) (input settings : List (Text × Json)) : Option (Option Json) := do
  let operator ← operatorIds.find? fun o => o.id = id
  let value := entry input "value"
  match operator with
  | .constant => return entry settings "value"
  | .identity => return value
  | .field => return some (← field arithmetic value (entry settings "field"))
  | .select =>
    let selected ← (← rows value).mapM fun row =>
      field arithmetic (some row) (entry settings "field")
    return some (.array selected)
  | .filter =>
    let kept ← (← rows value).filterM fun row => predicate arithmetic row settings
    return some (.array kept)
  | .sort =>
    let down ← direction (entry settings "direction")
    let values ← rows value
    let sorted ← sort.sort (fun a b => do
      let left ← field arithmetic (some a) (entry settings "field")
      let right ← field arithmetic (some b) (entry settings "field")
      (compare left (some right)).map fun o => if down then o.swap else o) values
    return some (.array sorted)
  | .take | .collect =>
    let values ← rows value
    let size ← count (entry settings "count")
    return some (.array (values.take size))
  | .window =>
    let size ← count (entry settings "count")
    if size = 0 then return some (.array [])
    else
      let values ← rows value
      return some (.array (values.drop (values.length - size)))
  | .count => return some (.number (arithmetic.ofCount (← rows value).length))
  | .latest => return some ((← rows value).getLastD .null)
  | .sum => return some (.number (← total arithmetic settings (← rows value)))
  | .mean =>
    let values ← rows value
    if values = [] then return some .null
    else
      return some (.number (arithmetic.average (← total arithmetic settings values) values.length))
  | .min => return some (extreme minOf (← (← rows value).mapM (measure arithmetic settings)))
  | .max => return some (extreme maxOf (← (← rows value).mapM (measure arithmetic settings)))
  | .add => binary arithmetic.add input
  | .subtract => binary arithmetic.subtract input
  | .multiply => binary arithmetic.multiply input
  | .divide => binary arithmetic.divide input

end Server

namespace Browser

def operatorIds : List Operator :=
  [.constant, .identity, .field, .select, .filter, .sort, .take, .count, .sum, .mean, .min, .max,
    .add, .subtract, .multiply, .divide, .latest, .window, .collect]

def rows : Option Json → Option (List Json)
  | some (.array items) => some items
  | _ => none

def number : Option Json → Option Binary64
  | some (.number x) => some x
  | _ => none

def isSafeInteger (x : Binary64) : Bool := x.value.den = 1 && x.value.num.natAbs < 2 ^ 53

def count (value : Option Json) (fallback : ℕ) : Option ℕ :=
  match value with
  | none => some fallback
  | some (.number x) =>
    if isSafeInteger x ∧ 0 ≤ x.value ∧ x.value ≤ maxRows then some x.value.num.toNat else none
  | some _ => none

def truthy : Option Json → Bool
  | none | some .null => false
  | some (.bool b) => b
  | some (.number x) => x.value ≠ 0
  | some (.text s) => s ≠ []
  | some (.array _) | some (.object _) => true

def indexText (i : ℕ) : Text := (Nat.toDigits 10 i).map fun c => UInt16.ofNat c.toNat

variable (arithmetic : Arithmetic)

/-- The own properties of an array are its length and the texts of its positions. -/
def own : Json → Text → Option Json
  | .object fields, key => fields.lookup key
  | .array items, key =>
    if key = units "length" then some (.number (arithmetic.ofCount items.length))
    else ((List.range items.length).find? fun i => indexText i = key).bind fun i => items[i]?
  | _, _ => none

def follow : Json → List Text → Option Json
  | value, [] => some value
  | value, key :: keys =>
    if key ∈ refusedKeys then none
    else match own arithmetic value key with
      | none => some .null
      | some child => follow child keys

def field (value path : Option Json) : Option Json :=
  match path with
  | some (.text path) =>
    if path = [] then none else follow arithmetic (value.getD .null) (splitDots path)
  | _ => none

inductive TypeName where
  | undefined | object | boolean | number | string
deriving DecidableEq

def typeof : Option Json → TypeName
  | none => .undefined
  | some (.bool _) => .boolean
  | some (.number _) => .number
  | some (.text _) => .string
  | some .null | some (.array _) | some (.object _) => .object

/-- `===`, on values of different documents. -/
def strictEqual : Option Json → Option Json → Bool
  | none, none => true
  | some .null, some .null => true
  | some (.bool a), some (.bool b) => a = b
  | some (.number x), some (.number y) => x.value = y.value
  | some (.text s), some (.text t) => s = t
  | _, _ => false

def less : Option Json → Option Json → Bool
  | some (.bool a), some (.bool b) => !a && b
  | some (.number x), some (.number y) => x.value < y.value
  | some (.text s), some (.text t) => !lexLe (t.map UInt16.toNat) (s.map UInt16.toNat)
  | _, _ => false

def compare (a b : Option Json) : Option Ordering :=
  if strictEqual a b then some .eq
  else if strictEqual a (some .null) then some .lt
  else if strictEqual b (some .null) then some .gt
  else if typeof a ≠ typeof b ∨ typeof a ∉ [TypeName.number, .string, .boolean] then none
  else some (if less a b then .lt else .gt)

def predicate (value : Json) (settings : List (Text × Json)) : Option Bool := do
  let selected ← field arithmetic (some value) (entry settings "field")
  let target := entry settings "value"
  let equal : Option Bool := do
    let left ← canonicalJSON selected
    let right ← target.bind canonicalJSON
    return left = right
  match if truthy (entry settings "comparison") then entry settings "comparison"
    else some (.text (units "eq")) with
  | some (.text name) =>
    if name = units "eq" then equal
    else if name = units "ne" then equal.map not
    else if name = units "gt" then (compare selected target).map fun o => o = .gt
    else if name = units "gte" then (compare selected target).map fun o => o = .gt ∨ o = .eq
    else if name = units "lt" then (compare selected target).map fun o => o = .lt
    else if name = units "lte" then (compare selected target).map fun o => o = .lt ∨ o = .eq
    else none
  | _ => none

def direction : Option Json → Option Bool
  | none => some false
  | some (.text name) =>
    if name ∈ [units "asc", units "desc"] then some (name = units "desc") else none
  | some _ => none

def measure (settings : List (Text × Json)) (row : Json) : Option Binary64 :=
  let path := entry settings "field"
  if truthy path then do number (some (← field arithmetic (some row) path)) else number (some row)

def sum (settings : List (Text × Json)) (values : List Json) : Option Binary64 :=
  values.foldlM (fun sum row => do arithmetic.add sum (← measure arithmetic settings row)) .zero

def mathMin (first : Binary64) (rest : List Binary64) : Binary64 :=
  rest.foldl (fun lowest x =>
    if x.value = 0 ∧ x.negative ∧ lowest.value = 0 ∧ !lowest.negative then x
    else if x.value < lowest.value then x else lowest) first

def mathMax (first : Binary64) (rest : List Binary64) : Binary64 :=
  rest.foldl (fun highest x =>
    if x.value = 0 ∧ !x.negative ∧ highest.value = 0 ∧ highest.negative then x
    else if highest.value < x.value then x else highest) first

def extreme (pick : Binary64 → List Binary64 → Binary64) : List Binary64 → Json
  | [] => .null
  | x :: xs => .number (pick x xs)

def binary (f : Binary64 → Binary64 → Option Binary64) (input : List (Text × Json)) : Option (Option Json) := do
  let result ← f (← number (entry input "value")) (← number (entry input "auxiliary"))
  return some (.number result)

def runOperator (sort : StableSort) (id : Text) (input settings : List (Text × Json)) : Option (Option Json) := do
  let operator ← operatorIds.find? fun o => o.id = id
  let value := entry input "value"
  match operator with
  | .constant => return entry settings "value"
  | .identity => return value
  | .field => return some (← field arithmetic value (entry settings "field"))
  | .select =>
    let selected ← (← rows value).mapM fun row =>
      field arithmetic (some row) (entry settings "field")
    return some (.array selected)
  | .filter =>
    let kept ← (← rows value).filterM fun row => predicate arithmetic row settings
    return some (.array kept)
  | .sort =>
    let down ← direction (entry settings "direction")
    let sorted ← sort.sort (fun a b => do
      let left ← field arithmetic (some a) (entry settings "field")
      let right ← field arithmetic (some b) (entry settings "field")
      (compare (some left) (some right)).map fun o => if down then o.swap else o) (← rows value)
    return some (.array sorted)
  | .take => return some (.array ((← rows value).take (← count (entry settings "count") maxRows)))
  | .count => return some (.number (arithmetic.ofCount (← rows value).length))
  | .sum => return some (.number (← sum arithmetic settings (← rows value)))
  | .mean =>
    let values ← rows value
    if values.length ≠ 0 then
      return some (.number (arithmetic.average (← sum arithmetic settings values) values.length))
    else return some .null
  | .min => return some (extreme mathMin (← (← rows value).mapM (measure arithmetic settings)))
  | .max => return some (extreme mathMax (← (← rows value).mapM (measure arithmetic settings)))
  | .add => binary arithmetic.add input
  | .subtract => binary arithmetic.subtract input
  | .multiply => binary arithmetic.multiply input
  | .divide => binary arithmetic.divide input
  | .latest => return some ((← rows value).getLastD .null)
  | .window =>
    let size ← count (entry settings "count") maxRows
    if size = 0 then return some (.array [])
    else
      let values ← rows value
      return some (.array (values.drop (values.length - size)))
  | .collect =>
    return some (.array ((← rows value).take (← count (entry settings "count") maxRows)))

end Browser

end LeafWeb.Lab
