import KnowledgeCompiler.Lib.Dict
import Mathlib.Data.List.Sort
import Std.Data.String.ToNat

namespace KnowledgeCompiler.Lib

-- A number with a fraction or an exponent keeps its spelling.
inductive Json
  | null
  | bool (value : Bool)
  | int (value : Int)
  | float (lexeme : List Char)
  | str (value : String)
  | arr (items : List Json)
  | obj (members : List (String × Json))

namespace Json

-- `type(value).__name__`
def typeName : Json → String
  | .null => "NoneType"
  | .bool _ => "bool"
  | .int _ => "int"
  | .float _ => "float"
  | .str _ => "str"
  | .arr _ => "list"
  | .obj _ => "dict"

-- `record.get(key)`
def get? (members : List (String × Json)) (key : String) : Option Json :=
  (members.find? (fun member => member.1 = key)).map Prod.snd

def escapeChar (c : Char) : List Char :=
  if c = '"' then ['\\', '"']
  else if c = '\\' then ['\\', '\\']
  else if c = '\n' then ['\\', 'n']
  else if c = '\r' then ['\\', 'r']
  else if c = '\t' then ['\\', 't']
  else if c.toNat = 0x0c then ['\\', 'f']
  else if c.toNat = 0x08 then ['\\', 'b']
  else if c.toNat < 0x20 then
    ['\\', 'u', '0', '0', Nat.digitChar (c.toNat / 16), Nat.digitChar (c.toNat % 16)]
  else [c]

def quote (value : String) : List Char := '"' :: value.toList.flatMap escapeChar ++ ['"']

-- Items and members are written each after a comma, and the first comma is dropped.
mutual
def text : Json → List Char
  | .null => "null".toList
  | .bool value => (if value then "true" else "false").toList
  | .int value => (toString value).toList
  | .float lexeme => lexeme
  | .str value => quote value
  | .arr items => '[' :: (textItems items).tail ++ [']']
  | .obj members => '{' :: (textMembers members).tail ++ ['}']

def textItems : List Json → List Char
  | [] => []
  | item :: rest => ',' :: (text item ++ textItems rest)

def textMembers : List (String × Json) → List Char
  | [] => []
  | (key, value) :: rest => ',' :: (quote key ++ ':' :: (text value ++ textMembers rest))
end

mutual
def sortKeys : Json → Json
  | .arr items => .arr (sortItems items)
  | .obj members =>
      .obj ((sortMembers members).insertionSort (fun first second => first.1 ≤ second.1))
  | value => value

def sortItems : List Json → List Json
  | [] => []
  | item :: rest => sortKeys item :: sortItems rest

def sortMembers : List (String × Json) → List (String × Json)
  | [] => []
  | (key, value) :: rest => (key, sortKeys value) :: sortMembers rest
end

-- `json.dumps(value, sort_keys=True, separators=(",", ":"), ensure_ascii=False)`
def dumps (value : Json) : List Char := text (sortKeys value)

-- What a string under way will be: a value, or the key of the next member.
inductive Role
  | value
  | key (members : List (String × Json))

-- A container whose next value is being read.
inductive Frame
  | item (items : List Json)
  | member (members : List (String × Json)) (key : String)

inductive Mode
  | value
  | firstItem
  | nextItem (items : List Json)
  | firstKey
  | key (members : List (String × Json))
  | colon (members : List (String × Json)) (key : String)
  | nextMember (members : List (String × Json))
  | string (role : Role) (taken : List Char)
  | escape (role : Role) (taken : List Char)
  | unicode (role : Role) (taken : List Char) (high : Option Nat) (digits : List Char)
  | highRead (role : Role) (taken : List Char) (high : Nat)
  | highEscape (role : Role) (taken : List Char) (high : Nat)
  | number (lexeme : List Char)
  | literal (rest : List Char) (value : Json)
  | done (value : Json)

structure State where
  mode : Mode
  stack : List Frame

def start : State := ⟨.value, []⟩

def isBlank (c : Char) : Bool := c = ' ' || c = '\t' || c = '\n' || c = '\r'

def isNumberChar (c : Char) : Bool :=
  c.isDigit || c = '-' || c = '+' || c = '.' || c = 'e' || c = 'E'

def hexValue (c : Char) : Option Nat :=
  if c.isDigit then some (c.toNat - 48)
  else if 'a' ≤ c ∧ c ≤ 'f' then some (c.toNat - 87)
  else if 'A' ≤ c ∧ c ≤ 'F' then some (c.toNat - 55)
  else none

-- A value has been read: it is the whole text, or it goes where the top frame says.
def settle (stack : List Frame) (value : Json) : State :=
  match stack with
  | [] => ⟨.done value, []⟩
  | .item items :: rest => ⟨.nextItem (items ++ [value]), rest⟩
  | .member members key :: rest => ⟨.nextMember (members ++ [(key, value)]), rest⟩

def closeString (role : Role) (taken : List Char) (stack : List Frame) : State :=
  match role with
  | .value => settle stack (.str (String.ofList taken))
  | .key members => ⟨.colon members (String.ofList taken), stack⟩

-- `(0|[1-9]\d*)`
def naturalPart (digits : List Char) : Option Nat :=
  if digits ≠ [] ∧ digits.all Char.isDigit ∧ (digits.head? = some '0' → digits = ['0']) then
    some (Nat.ofDigitChars 10 digits 0)
  else none

-- `(\.\d+)?([eE][-+]?\d+)?`
def isFloatTail (tail : List Char) : Bool :=
  let isDigits (digits : List Char) := digits ≠ [] && digits.all Char.isDigit
  let isExponent : List Char → Bool
    | [] => true
    | e :: sign :: digits =>
        (e = 'e' || e = 'E') &&
          if sign = '-' || sign = '+' then isDigits digits else isDigits (sign :: digits)
    | _ => false
  match tail with
  | '.' :: rest => isDigits (rest.takeWhile Char.isDigit) && isExponent (rest.dropWhile Char.isDigit)
  | rest => isExponent rest

def splitSign : List Char → Bool × List Char
  | '-' :: rest => (true, rest)
  | rest => (false, rest)

def parseNumber (lexeme : List Char) : Option Json :=
  let (negative, rest) := splitSign lexeme
  match naturalPart (rest.takeWhile Char.isDigit) with
  | none => none
  | some magnitude =>
      let tail := rest.dropWhile Char.isDigit
      if tail = [] then some (.int (if negative then -(magnitude : Int) else magnitude))
      else if isFloatTail tail then some (.float lexeme)
      else none

def startValue (stack : List Frame) (c : Char) : Option State :=
  if c = '{' then some ⟨.firstKey, stack⟩
  else if c = '[' then some ⟨.firstItem, stack⟩
  else if c = '"' then some ⟨.string .value [], stack⟩
  else if c.isDigit || c = '-' then some ⟨.number [c], stack⟩
  else if c = 't' then some ⟨.literal "rue".toList (.bool true), stack⟩
  else if c = 'f' then some ⟨.literal "alse".toList (.bool false), stack⟩
  else if c = 'n' then some ⟨.literal "ull".toList .null, stack⟩
  else if c = 'N' then some ⟨.literal "aN".toList (.float "NaN".toList), stack⟩
  else if c = 'I' then some ⟨.literal "nfinity".toList (.float "Infinity".toList), stack⟩
  else none

-- What may follow a value.
def afterValue (state : State) (c : Char) : Option State :=
  if isBlank c then some state
  else
    match state.mode with
    | .nextItem items =>
        if c = ',' then some ⟨.value, .item items :: state.stack⟩
        else if c = ']' then some (settle state.stack (.arr items))
        else none
    | .nextMember members =>
        if c = ',' then some ⟨.key members, state.stack⟩
        else if c = '}' then some (settle state.stack (.obj (Dict.ofPairs members).entries))
        else none
    | _ => none

def simpleEscape (c : Char) : Option Char :=
  if c = '"' ∨ c = '\\' ∨ c = '/' then some c
  else if c = 'n' then some '\n'
  else if c = 'r' then some '\r'
  else if c = 't' then some '\t'
  else if c = 'f' then some (Char.ofNat 0x0c)
  else if c = 'b' then some (Char.ofNat 0x08)
  else none

-- A surrogate without its partner is a character of a Python string and none of Lean's: one at the
-- end of the last private plane stands for it.
def lone (code : Nat) : Char := Char.ofNat (0x10f000 + (code - 0xd800))

def closeSingle (role : Role) (taken : List Char) (code : Nat) : Mode :=
  if 0xd800 ≤ code ∧ code ≤ 0xdbff then .highRead role taken code
  else if 0xdc00 ≤ code ∧ code ≤ 0xdfff then .string role (taken ++ [lone code])
  else .string role (taken ++ [Char.ofNat code])

-- Four hexadecimal digits have been read.
def closeUnicode (role : Role) (taken : List Char) (high : Option Nat) (code : Nat) : Mode :=
  match high with
  | some high =>
      if 0xdc00 ≤ code ∧ code ≤ 0xdfff then
        let combined := 0x10000 + (high - 0xd800) * 0x400 + (code - 0xdc00)
        .string role (taken ++ [Char.ofNat combined])
      else closeSingle role (taken ++ [lone high]) code
  | none => closeSingle role taken code

def hexNumber (digits : List Char) : Nat :=
  digits.foldl (fun number c => 16 * number + (hexValue c).getD 0) 0

def stepUnicode (role : Role) (taken : List Char) (high : Option Nat) (digits : List Char)
    (c : Char) : Option Mode :=
  if (hexValue c).isNone then none
  else if digits.length < 3 then some (.unicode role taken high (digits ++ [c]))
  else some (closeUnicode role taken high (hexNumber (digits ++ [c])))

def stepString (role : Role) (taken : List Char) (stack : List Frame) (c : Char) : Option State :=
  if c = '"' then some (closeString role taken stack)
  else if c = '\\' then some ⟨.escape role taken, stack⟩
  else if c.toNat < 0x20 then none
  else some ⟨.string role (taken ++ [c]), stack⟩

def stepEscape (role : Role) (taken : List Char) (stack : List Frame) (c : Char) : Option State :=
  if c = 'u' then some ⟨.unicode role taken none [], stack⟩
  else (simpleEscape c).map (fun found => ⟨.string role (taken ++ [found]), stack⟩)

def step (state : State) (c : Char) : Option State :=
  match state.mode with
  | .value => if isBlank c then some state else startValue state.stack c
  | .firstItem =>
      if isBlank c then some state
      else if c = ']' then some (settle state.stack (.arr []))
      else startValue (.item [] :: state.stack) c
  | .firstKey =>
      if isBlank c then some state
      else if c = '}' then some (settle state.stack (.obj []))
      else if c = '"' then some ⟨.string (.key []) [], state.stack⟩
      else none
  | .key members =>
      if isBlank c then some state
      else if c = '"' then some ⟨.string (.key members) [], state.stack⟩
      else none
  | .colon members key =>
      if isBlank c then some state
      else if c = ':' then some ⟨.value, .member members key :: state.stack⟩
      else none
  | .string role taken => stepString role taken state.stack c
  | .escape role taken => stepEscape role taken state.stack c
  | .unicode role taken high digits =>
      (stepUnicode role taken high digits c).map (fun mode => ⟨mode, state.stack⟩)
  | .highRead role taken high =>
      if c = '\\' then some ⟨.highEscape role taken high, state.stack⟩
      else stepString role (taken ++ [lone high]) state.stack c
  | .highEscape role taken high =>
      if c = 'u' then some ⟨.unicode role taken (some high) [], state.stack⟩
      else stepEscape role (taken ++ [lone high]) state.stack c
  | .number lexeme =>
      if isNumberChar c then some ⟨.number (lexeme ++ [c]), state.stack⟩
      else if lexeme = ['-'] ∧ c = 'I' then
        some ⟨.literal "nfinity".toList (.float "-Infinity".toList), state.stack⟩
      else (parseNumber lexeme).bind (fun value => afterValue (settle state.stack value) c)
  | .literal rest value =>
      match rest with
      | [] => none
      | expected :: more =>
          if c ≠ expected then none
          else if more = [] then some (settle state.stack value)
          else some ⟨.literal more value, state.stack⟩
  | .nextItem _ | .nextMember _ | .done _ => afterValue state c

def run (state : State) (text : List Char) : Option State := text.foldlM step state

def finish (state : State) : Option Json :=
  match state.mode with
  | .done value => some value
  | .number lexeme => if state.stack.isEmpty then parseNumber lexeme else none
  | _ => none

-- `json.loads`
def loads (text : List Char) : Option Json := (run start text).bind finish

end Json

end KnowledgeCompiler.Lib
