import Mathlib.Data.List.Sort
import Mathlib.Data.String.Basic
import Mathlib.Tactic.Common

/-!
# JSON values and `json.dumps`

JSON values as Python decodes them (an object is an association list in insertion
order), and the text `json.dumps` writes for them with `ensure_ascii` on:
`render` keeps the order of the fields, `canonical` is the compact form with
`sort_keys=True`, and `renderIndent` is `indent=2`.
-/

namespace Vellum

/-- Characters of number tokens; none of them ends an item. -/
def numChar (c : Char) : Bool :=
  c.isDigit || c ∈ ['-', '+', '.', 'e', 'I', 'n', 'f', 'i', 't', 'y', 'N', 'a']

/-- What the text of a float looks like: it starts as a number or as `NaN`/`Infinity`
and holds some character that no integer's text has. -/
def floatText (l : List Char) : Bool :=
  l.all numChar && l.any (fun c => !(c.isDigit || c = '-')) &&
    l.head?.any (fun c => c.isDigit || c = '-' || c = 'I' || c = 'N')

/-- A float, by the text `float.__repr__` gives it. -/
structure PyFloat where
  text : List Char
  wf : floatText text = true
deriving DecidableEq

/-- A decoded JSON value. -/
inductive Json where
  | null
  | bool (b : Bool)
  | int (i : ℤ)
  | float (f : PyFloat)
  | str (s : String)
  | arr (items : List Json)
  | obj (fields : List (String × Json))

namespace Json

/-- **Induction on a JSON value**, with the hypothesis for every item of an array and every
field of an object. -/
@[elab_as_elim, induction_eliminator]
theorem ind {motive : Json → Prop} (null : motive null) (bool : ∀ b, motive (bool b))
    (int : ∀ i, motive (int i)) (float : ∀ f, motive (float f)) (str : ∀ s, motive (str s))
    (arr : ∀ l, (∀ j ∈ l, motive j) → motive (arr l))
    (obj : ∀ l, (∀ f ∈ l, motive f.2) → motive (obj l)) (j : Json) : motive j :=
  @Json.rec motive (fun l => ∀ j ∈ l, motive j) (fun l => ∀ f ∈ l, motive f.2) (fun f => motive f.2)
    null bool int float str arr obj (by simp) (fun _ _ h hs => List.forall_mem_cons.2 ⟨h, hs⟩)
    (by simp) (fun _ _ h hs => List.forall_mem_cons.2 ⟨h, hs⟩) (fun _ _ h => h) j

/-! ## Strings -/

/-- Four lowercase hexadecimal digits. -/
def hex4 (n : ℕ) : List Char :=
  [Nat.digitChar (n / 4096 % 16), Nat.digitChar (n / 256 % 16), Nat.digitChar (n / 16 % 16),
    Nat.digitChar (n % 16)]

/-- A `\uXXXX` escape. -/
def escapeUnit (u : ℕ) : List Char := '\\' :: 'u' :: hex4 u

/-- The two UTF-16 code units of a code point from `0x10000` on. -/
def highSurrogate (n : ℕ) : ℕ := 0xd800 + (n - 0x10000) / 0x400

def lowSurrogate (n : ℕ) : ℕ := 0xdc00 + (n - 0x10000) % 0x400

/-- `ensure_ascii`: printable ASCII stays, the rest is escaped by UTF-16 code units. -/
def escapeChar (c : Char) : List Char :=
  if c = '"' then ['\\', '"']
  else if c = '\\' then ['\\', '\\']
  else if c = '\n' then ['\\', 'n']
  else if c = '\r' then ['\\', 'r']
  else if c = '\t' then ['\\', 't']
  else if c = '\x0c' then ['\\', 'f']
  else if c = '\x08' then ['\\', 'b']
  else if 32 ≤ c.toNat ∧ c.toNat ≤ 126 then [c]
  else if c.toNat < 0x10000 then escapeUnit c.toNat
  else escapeUnit (highSurrogate c.toNat) ++ escapeUnit (lowSurrogate c.toNat)

/-- The body of a string literal. -/
def escape (s : List Char) : List Char := s.flatMap escapeChar

/-- A string literal. -/
def renderStr (s : String) : List Char := '"' :: (escape s.toList ++ ['"'])

/-! ## Values -/

/-- What follows the comma and the colon: nothing in the compact form, a blank by default. -/
structure Separators where
  afterComma : List Char
  afterColon : List Char

/-- `separators=(",", ":")`. -/
def Separators.compact : Separators := ⟨[], []⟩

/-- The default `separators=(", ", ": ")`. -/
def Separators.spaced : Separators := ⟨[' '], [' ']⟩

mutual

/-- `json.dumps` without `sort_keys`. -/
def render (p : Separators) : Json → List Char
  | null => "null".toList
  | bool true => "true".toList
  | bool false => "false".toList
  | int i => i.repr.toList
  | float f => f.text
  | str s => renderStr s
  | arr [] => ['[', ']']
  | arr (j :: js) => '[' :: (render p j ++ renderItems p js ++ [']'])
  | obj [] => ['\x7b', '\x7d']
  | obj ((k, v) :: fs) =>
    '\x7b' :: (renderStr k ++ ':' :: (p.afterColon ++ render p v) ++ renderFields p fs ++ ['\x7d'])

/-- The items after the first, each behind its comma. -/
def renderItems (p : Separators) : List Json → List Char
  | [] => []
  | j :: js => ',' :: (p.afterComma ++ render p j) ++ renderItems p js

/-- The fields after the first, each behind its comma. -/
def renderFields (p : Separators) : List (String × Json) → List Char
  | [] => []
  | (k, v) :: fs =>
    ',' :: (p.afterComma ++ renderStr k ++ ':' :: (p.afterColon ++ render p v)) ++ renderFields p fs

end

/-- Fields in key order; Python compares strings by code point, as `String` does. -/
def sortByKey (fs : List (String × Json)) : List (String × Json) :=
  fs.insertionSort fun a b => a.1 ≤ b.1

mutual

/-- `sort_keys=True`, at every depth. -/
def sortKeys : Json → Json
  | null => null
  | bool b => bool b
  | int i => int i
  | float f => float f
  | str s => str s
  | arr items => arr (sortItems items)
  | obj fields => obj (sortByKey (sortFields fields))

def sortItems : List Json → List Json
  | [] => []
  | j :: js => sortKeys j :: sortItems js

def sortFields : List (String × Json) → List (String × Json)
  | [] => []
  | (k, v) :: fs => (k, sortKeys v) :: sortFields fs

end

/-- `json.dumps(value, sort_keys=True, separators=(",", ":"))`. -/
def canonical (j : Json) : String := String.ofList (render .compact (sortKeys j))

/-- `json.dumps(value)`. -/
def dumps (j : Json) : String := String.ofList (render .spaced j)

/-- `json.dumps(value, sort_keys=True)`. -/
def dumpsSorted (j : Json) : String := String.ofList (render .spaced (sortKeys j))

/-- A line break and `n` blanks. -/
def newline (n : ℕ) : List Char := '\n' :: List.replicate n ' '

mutual

/-- `json.dumps(value, indent=2)` at indentation `n`: every item on a line of its own,
empty containers on the line they open. -/
def renderIndent (n : ℕ) : Json → List Char
  | null => "null".toList
  | bool true => "true".toList
  | bool false => "false".toList
  | int i => i.repr.toList
  | float f => f.text
  | str s => renderStr s
  | arr [] => ['[', ']']
  | arr (j :: js) =>
    '[' :: (newline (n + 2) ++ renderIndent (n + 2) j ++ renderIndentItems (n + 2) js ++ newline n ++ [']'])
  | obj [] => ['\x7b', '\x7d']
  | obj ((k, v) :: fs) =>
    '\x7b' :: (newline (n + 2) ++ renderStr k ++ ':' :: ' ' :: renderIndent (n + 2) v ++
      renderIndentFields (n + 2) fs ++ newline n ++ ['\x7d'])

def renderIndentItems (n : ℕ) : List Json → List Char
  | [] => []
  | j :: js => ',' :: (newline n ++ renderIndent n j) ++ renderIndentItems n js

def renderIndentFields (n : ℕ) : List (String × Json) → List Char
  | [] => []
  | (k, v) :: fs =>
    ',' :: (newline n ++ renderStr k ++ ':' :: ' ' :: renderIndent n v) ++ renderIndentFields n fs

end

/-- `json.dumps(value, sort_keys=True, indent=2)`. -/
def dumpsIndented (j : Json) : String := String.ofList (renderIndent 0 (sortKeys j))

/-! ## Optional values -/

/-- An integer or `null`. -/
def ofOptInt : Option ℤ → Json
  | none => null
  | some i => int i

/-- A string or `null`. -/
def ofOptStr : Option String → Json
  | none => null
  | some s => str s

/-! ## Reading a decoded value -/

/-- `value.get(key)` on a decoded value: absent keys and other values read as `None`. -/
def get? (j : Json) (key : String) : Option Json :=
  match j with
  | obj fields => fields.lookup key
  | _ => none

end Json

end Vellum
