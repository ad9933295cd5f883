import Vellum.Lib.PyText
import Vellum.Lib.PythonLiteral

/-!
# `json.loads`

The decoder of the standard library as a machine that reads one character at a time, with the open
containers on a stack. Texts are lists of code points, since an escape can denote a lone surrogate,
and of two fields with one key the last one counts. `float` is a parameter. The limit on nested
calls is left out.

* `Json.renderIndent` is for values this development builds; `PyJson.renderIndent` is the same
  `indent=2` for values that were read.
-/

namespace Vellum

/-- The names the decoder knows. -/
inductive JsonConstant where
  | null | true | false | nan | infinity | negInfinity
deriving DecidableEq

/-- A value as `json.loads` gives it, a finite float by its `repr`. -/
inductive PyJson where
  | const (k : JsonConstant)
  | int (i : ℤ)
  | float (text : List Char)
  | str (s : List ℕ)
  | arr (items : List PyJson)
  | obj (fields : List (List ℕ × PyJson))

namespace PyJson

open PySource

/-! ## Numerals -/

/-- How far a numeral has been read: `-`, `0`, `12`, `1.`, `1.5`, `1e`, `1e+`, `1e5`. The exponent
remembers whether a fraction stands before it. -/
inductive Numeral where
  | minus | zero | int | point | frac
  | exp (fraction : Bool)
  | expSign (fraction : Bool)
  | expDigits
deriving DecidableEq

namespace Numeral

def start (c : Char) : Option Numeral :=
  if c = '-' then some minus else if c = '0' then some zero else if c.isDigit then some int else none

def next (st : Numeral) (c : Char) : Option Numeral :=
  match st with
  | minus => if c = '0' then some zero else if c.isDigit then some int else none
  | zero => if c = '.' then some point else if c = 'e' ∨ c = 'E' then some (exp false) else none
  | int =>
    if c.isDigit then some int
    else if c = '.' then some point
    else if c = 'e' ∨ c = 'E' then some (exp false)
    else none
  | point => if c.isDigit then some frac else none
  | frac => if c.isDigit then some frac else if c = 'e' ∨ c = 'E' then some (exp true) else none
  | exp fraction =>
    if c.isDigit then some expDigits else if c = '+' ∨ c = '-' then some (expSign fraction) else none
  | expSign _ => if c.isDigit then some expDigits else none
  | expDigits => if c.isDigit then some expDigits else none

/-- What a whole text reads to. -/
def ofText : List Char → Option Numeral
  | [] => none
  | c :: cs => (start c).bind fun st => cs.foldlM next st

end Numeral

/-- A numeral with a fraction or an exponent. -/
def floatNumeral (text : List Char) : Bool :=
  Numeral.ofText text = some .frac ∨ Numeral.ofText text = some .expDigits

/-- `int(numeral)` of a sign and digits. -/
def intOf (text : List Char) : ℤ :=
  let n := Nat.ofDigitChars 10 (text.filter Char.isDigit) 0
  if text.head? = some '-' then -(n : ℤ) else n

/-- More digits than `int` reads. -/
def tooLong (text : List Char) : Bool := maxStrDigits < (text.filter Char.isDigit).length

/-- `float(numeral)`: a `repr` that reads back as the same float, or an infinity. -/
structure FloatReader where
  read : List Char → PyJson
  reads : ∀ text, floatNumeral text = true →
    read text = const .infinity ∨ read text = const .negInfinity ∨
      ∃ repr, read text = float repr ∧ floatNumeral repr = true ∧ read repr = float repr

/-! ## The machine -/

/-- `JSONDecodeError`, or the `ValueError` of `int`. -/
inductive LoadsError where
  | decodeError
  | valueError
deriving DecidableEq

/-- Within a string: after a backslash, or after `\u` and some of its digits. -/
inductive Escape where
  | no
  | backslash
  | hex (digits value : ℕ)

/-- An open container that waits for a value. -/
inductive Frame where
  | arr (items : List PyJson)
  | obj (fields : List (List ℕ × PyJson)) (key : List ℕ)

/-- What comes next. `close` says that the container may end here, `key` of a string that it is a key
after these fields; `after` holds a value that is complete. -/
inductive Mode where
  | value (close : Bool)
  | key (fields : List (List ℕ × PyJson)) (close : Bool)
  | colon (fields : List (List ℕ × PyJson)) (key : List ℕ)
  | str (key : Option (List (List ℕ × PyJson))) (read : List ℕ) (escape : Escape)
  | number (st : Numeral) (text : List Char)
  | literal (rest : List Char) (k : JsonConstant)
  | after (v : PyJson)

structure Machine where
  stack : List Frame
  mode : Mode

abbrev Step := Except LoadsError Machine

/-- `d[key] = value`. -/
def setField (fields : List (List ℕ × PyJson)) (key : List ℕ) (value : PyJson) : List (List ℕ × PyJson) :=
  if key ∈ fields.map Prod.fst then fields.map fun f => if f.1 = key then (key, value) else f
  else fields ++ [(key, value)]

def isHigh (n : ℕ) : Bool := 0xd800 ≤ n ∧ n < 0xdc00

def isLow (n : ℕ) : Bool := 0xdc00 ≤ n ∧ n < 0xe000

/-- One unit more; the text read so far stands in reverse, and two surrogates join. -/
def push (read : List ℕ) (u : ℕ) : List ℕ :=
  match read with
  | h :: rest => if isHigh h ∧ isLow u then Json.joinSurrogates h u :: rest else u :: h :: rest
  | [] => [u]

def blank (c : Char) : Bool := c = ' ' ∨ c = '\t' ∨ c = '\n' ∨ c = '\r'

/-- The rest of the name that begins with a character. -/
def nameFrom (c : Char) : Option (List Char × JsonConstant) :=
  if c = 'n' then some ("ull".toList, .null)
  else if c = 't' then some ("rue".toList, .true)
  else if c = 'f' then some ("alse".toList, .false)
  else if c = 'N' then some ("aN".toList, .nan)
  else if c = 'I' then some ("nfinity".toList, .infinity)
  else none

/-- The letters after a backslash, but for `u`. -/
def escapeLetters : List (Char × ℕ) :=
  [('"', 34), ('\\', 92), ('/', 47), ('b', 8), ('f', 12), ('n', 10), ('r', 13), ('t', 9)]

def valueStep (stack : List Frame) (close : Bool) (c : Char) : Step :=
  match Numeral.start c, nameFrom c with
  | some st, _ => .ok ⟨stack, .number st [c]⟩
  | none, some (rest, k) => .ok ⟨stack, .literal rest k⟩
  | none, none =>
    if blank c then .ok ⟨stack, .value close⟩
    else if c = '"' then .ok ⟨stack, .str none [] .no⟩
    else if c = '[' then .ok ⟨.arr [] :: stack, .value true⟩
    else if c = '\x7b' then .ok ⟨stack, .key [] true⟩
    else if close ∧ c = ']' then
      match stack with
      | .arr items :: stack => .ok ⟨stack, .after (arr items)⟩
      | _ => .error .decodeError
    else .error .decodeError

def keyStep (stack : List Frame) (fields : List (List ℕ × PyJson)) (close : Bool) (c : Char) : Step :=
  if blank c then .ok ⟨stack, .key fields close⟩
  else if c = '"' then .ok ⟨stack, .str (some fields) [] .no⟩
  else if close ∧ c = '\x7d' then .ok ⟨stack, .after (obj fields)⟩
  else .error .decodeError

def colonStep (stack : List Frame) (fields : List (List ℕ × PyJson)) (key : List ℕ) (c : Char) : Step :=
  if blank c then .ok ⟨stack, .colon fields key⟩
  else if c = ':' then .ok ⟨.obj fields key :: stack, .value false⟩
  else .error .decodeError

/-- Within a string; control characters are refused. -/
def strStep (stack : List Frame) (key : Option (List (List ℕ × PyJson))) (read : List ℕ) (escape : Escape)
    (c : Char) : Step :=
  match escape with
  | .no =>
    if c = '"' then
      match key with
      | none => .ok ⟨stack, .after (str read.reverse)⟩
      | some fields => .ok ⟨stack, .colon fields read.reverse⟩
    else if c = '\\' then .ok ⟨stack, .str key read .backslash⟩
    else if c.toNat < 32 then .error .decodeError
    else .ok ⟨stack, .str key (push read c.toNat) .no⟩
  | .backslash =>
    if c = 'u' then .ok ⟨stack, .str key read (.hex 0 0)⟩
    else
      match escapeLetters.lookup c with
      | some n => .ok ⟨stack, .str key (push read n) .no⟩
      | none => .error .decodeError
  | .hex digits value =>
    match hexDigit? c with
    | none => .error .decodeError
    | some d =>
      if digits < 3 then .ok ⟨stack, .str key read (.hex (digits + 1) (16 * value + d))⟩
      else .ok ⟨stack, .str key (push read (16 * value + d)) .no⟩

def literalStep (stack : List Frame) (rest : List Char) (k : JsonConstant) (c : Char) : Step :=
  match rest with
  | [] => .error .decodeError
  | d :: ds =>
    if c = d then
      if ds = [] then .ok ⟨stack, .after (const k)⟩ else .ok ⟨stack, .literal ds k⟩
    else .error .decodeError

/-- After a value: the next item, the end of the container, or nothing but blanks. -/
def afterStep (stack : List Frame) (v : PyJson) (c : Char) : Step :=
  if blank c then .ok ⟨stack, .after v⟩
  else
    match stack with
    | [] => .error .decodeError
    | .arr items :: stack =>
      if c = ',' then .ok ⟨.arr (items ++ [v]) :: stack, .value false⟩
      else if c = ']' then .ok ⟨stack, .after (arr (items ++ [v]))⟩
      else .error .decodeError
    | .obj fields key :: stack =>
      if c = ',' then .ok ⟨stack, .key (setField fields key v) false⟩
      else if c = '\x7d' then .ok ⟨stack, .after (obj (setField fields key v))⟩
      else .error .decodeError

/-- A numeral ends here. Where it breaks off, an integer before the break is converted first. -/
def numeralEnd (F : FloatReader) (st : Numeral) (text : List Char) : Except LoadsError PyJson :=
  match st with
  | .zero | .int => if tooLong text then .error .valueError else .ok (int (intOf text))
  | .frac | .expDigits => .ok (F.read text)
  | .minus | .exp true | .expSign true => .error .decodeError
  | .point | .exp false | .expSign false => .error (if tooLong text then .valueError else .decodeError)

def numberStep (F : FloatReader) (stack : List Frame) (st : Numeral) (text : List Char) (c : Char) : Step :=
  match st.next c with
  | some st' => .ok ⟨stack, .number st' (text ++ [c])⟩
  | none =>
    if st = .minus ∧ c = 'I' then .ok ⟨stack, .literal "nfinity".toList .negInfinity⟩
    else (numeralEnd F st text).bind fun v => afterStep stack v c

def step (F : FloatReader) (m : Machine) (c : Char) : Step :=
  match m.mode with
  | .value close => valueStep m.stack close c
  | .key fields close => keyStep m.stack fields close c
  | .colon fields key => colonStep m.stack fields key c
  | .str key read escape => strStep m.stack key read escape c
  | .number st text => numberStep F m.stack st text c
  | .literal rest k => literalStep m.stack rest k c
  | .after v => afterStep m.stack v c

def run (F : FloatReader) (m : Machine) (text : List Char) : Step := text.foldlM (step F) m

/-- The text ends here. -/
def finish (F : FloatReader) (m : Machine) : Except LoadsError PyJson :=
  match m.stack, m.mode with
  | [], .after v => .ok v
  | [], .number st text => numeralEnd F st text
  | _ :: _, .number st text => (numeralEnd F st text).bind fun _ => .error .decodeError
  | _, _ => .error .decodeError

/-- `json.loads(text)`. -/
def loads (F : FloatReader) (text : List Char) : Except LoadsError PyJson :=
  (run F ⟨[], .value false⟩ text).bind (finish F)

/-! ## `json.dumps(value, indent=2)` -/

def escapeCode (n : ℕ) : List Char :=
  if 0xd800 ≤ n ∧ n < 0xe000 then Json.escapeUnit n else Json.escapeChar (Char.ofNat n)

def renderStr (s : List ℕ) : List Char := '"' :: (s.flatMap escapeCode ++ ['"'])

def constantText : JsonConstant → List Char
  | .null => "null".toList
  | .true => "true".toList
  | .false => "false".toList
  | .nan => "NaN".toList
  | .infinity => "Infinity".toList
  | .negInfinity => "-Infinity".toList

mutual

/-- At indentation `n`: every item on a line of its own, empty containers on the line they open. -/
def renderIndent (n : ℕ) : PyJson → List Char
  | const k => constantText k
  | int i => i.repr.toList
  | float text => text
  | str s => renderStr s
  | arr [] => ['[', ']']
  | arr (j :: js) =>
    '[' :: (Json.newline (n + 2) ++ renderIndent (n + 2) j ++ renderIndentItems (n + 2) js ++ Json.newline n ++ [']'])
  | obj [] => ['\x7b', '\x7d']
  | obj ((k, v) :: fs) =>
    '\x7b' :: (Json.newline (n + 2) ++ renderStr k ++ ':' :: ' ' :: renderIndent (n + 2) v ++
      renderIndentFields (n + 2) fs ++ Json.newline n ++ ['\x7d'])

def renderIndentItems (n : ℕ) : List PyJson → List Char
  | [] => []
  | j :: js => ',' :: (Json.newline n ++ renderIndent n j) ++ renderIndentItems n js

def renderIndentFields (n : ℕ) : List (List ℕ × PyJson) → List Char
  | [] => []
  | (k, v) :: fs =>
    ',' :: (Json.newline n ++ renderStr k ++ ':' :: ' ' :: renderIndent n v) ++ renderIndentFields n fs

end

/-! ## Dicts of strings -/

/-- A text without surrogates, by its code points. -/
def ofString (s : String) : List ℕ := codes s.toList

/-- A dict of strings. -/
def ofStrings (d : List (String × String)) : PyJson := obj (d.map fun p => (ofString p.1, str (ofString p.2)))

/-- `value == d` for a dict of strings: the same keys, whatever their order. -/
def eqStrings (v : PyJson) (d : List (String × String)) : Bool :=
  match v with
  | obj fields => fields.length = d.length ∧ d.all fun p =>
      match fields.lookup (ofString p.1) with
      | some (str s) => s = ofString p.2
      | _ => false
  | _ => false

end PyJson

end Vellum
