import CallgentApi.Event.Engine

/-!
# The answers of a language model

What the model writes is cut out of the text around it, repaired, parsed and
compared with an example of the value that is asked for.
-/

namespace CallgentApi
namespace Agents

open Js Event

/-! ## Code fences -/

/-- `[\w\s]`. -/
def isWordOrSpace (c : Char) : Bool :=
  c.isAlphanum || c == '_' || isSpace c

/-- `[\w\s]*$` where a line may end at every line end: the longest match. -/
def matchTail : Text -> Option Nat
  | [] => some 0
  | c :: rest =>
      match if isWordOrSpace c then matchTail rest else none with
      | some n => some (n + 1)
      | none => if isLineEnd c then some 0 else none

/-- Three backticks and what may follow them, from the start of a line. -/
def matchFence (s : Text) : Option Nat :=
  if startsWith s "```".toList then (matchTail (s.drop 3)).map (3 + ·)
  else none

/-- The same after space, which may break lines. -/
def matchIndentedFence (s : Text) : Option Nat :=
  let space := (s.takeWhile isSpace).length
  (matchFence (s.drop space)).map (space + ·)

/-- The pieces with a character put before the first. -/
def consPiece (c : Char) : List Text -> List Text
  | [] => [[c]]
  | piece :: rest => (c :: piece) :: rest

/-- `s.split(fence)` for a fence that stands at the start of a line and is
never empty; `skip` characters belong to the last match. -/
def splitFences (fence : Text -> Option Nat) (atStart : Bool) (skip : Nat) :
    Text -> List Text
  | [] => [[]]
  | c :: rest =>
      match skip with
      | n + 1 => splitFences fence (isLineEnd c) n rest
      | 0 =>
          match if atStart then fence (c :: rest) else none with
          | some n => [] :: splitFences fence (isLineEnd c) (n - 1) rest
          | none => consPiece c (splitFences fence (isLineEnd c) 0 rest)

/-! ## `Utils.toJSON` -/

/-- How far the text reaches up to the bracket that closes the first of
`count` open ones. -/
def enclosed (opening closing : Char) (count : Nat) : Text -> Option Nat
  | [] => none
  | c :: rest =>
      if c = opening then
        (enclosed opening closing (count + 1) rest).map (· + 1)
      else if c = closing then
        if count = 1 then some 1
        else (enclosed opening closing (count - 1) rest).map (· + 1)
      else (enclosed opening closing count rest).map (· + 1)

/-- The JSON parser, and the package that repairs texts for it. -/
structure JsonReader where
  jsonrepair : Text -> Except Thrown Text
  parse : Text -> Except Thrown Json

def bool (b : Bool) : Text :=
  if b then "true".toList else "false".toList

/-- Repairs and parses; an error names the text. -/
def readJson (reader : JsonReader) (txt : Text) (isArray : Bool) (str : Text) :
    Except Thrown Value :=
  match reader.jsonrepair str >>= reader.parse with
  | .ok value => .ok (some value)
  | .error e =>
      .error (.plain ("(".toList ++ e.message ++ "): toJSON(".toList ++ txt ++
        ", ".toList ++ bool isArray ++ ")".toList))

/-- The last code block, or the text from the first bracket to the one that
closes it. -/
def toJSON (reader : JsonReader) (txt : Text) (isArray : Bool) :
    Except Thrown Value :=
  if txt.isEmpty then .ok none
  else if toLowerCase (trim txt) = "null".toList then .ok (some .null)
  else
    let pcs := splitFences matchFence true 0 txt
    if 2 < pcs.length then
      readJson reader txt isArray (pcs.getD (pcs.length - 2) [])
    else
      let opening := if isArray then '[' else '{'
      let closing := if isArray then ']' else '}'
      match txt.dropWhile fun c => c != opening with
      | [] => .ok none
      | first :: rest =>
          match enclosed opening closing 1 rest with
          | none =>
              .error (.plain ("Cannot parse to JSON, brackets".toList ++
                [opening, closing] ++ " not enclosed: toJSON(".toList ++ txt ++
                ", ".toList ++ bool isArray ++ ")".toList))
          | some n => readJson reader txt isArray (first :: rest.take n)

/-! ## `LLMService._checkJsonType` -/

/-- `typeof v`. -/
def typeOf : Json -> Text
  | .null => "object".toList
  | .bool _ => "boolean".toList
  | .num _ => "number".toList
  | .str _ => "string".toList
  | .arr _ => "object".toList
  | .obj _ => "object".toList

/-- `Array.isArray(v)`. -/
def isArray : Json -> Bool
  | .arr _ => true
  | _ => false

/-- Reading or converting a value that the language refuses. -/
def refuses (what : String) : Thrown :=
  .typeError what.toList

/-- The properties that every object has from its prototype. -/
def objectPrototype : List Text :=
  ["constructor", "__defineGetter__", "__defineSetter__", "hasOwnProperty",
    "__lookupGetter__", "__lookupSetter__", "isPrototypeOf",
    "propertyIsEnumerable", "toString", "valueOf",
    "toLocaleString"].map String.toList

/-- Something stands under the name in every object. -/
def isInherited (key : Text) : Bool :=
  key == "__proto__".toList || objectPrototype.contains key

/-- Those that every array has beside the properties of an object. -/
def arrayPrototype : List Text :=
  ["at", "concat", "copyWithin", "fill", "find", "findIndex",
    "findLast", "findLastIndex", "lastIndexOf", "pop", "push", "reverse",
    "shift", "unshift", "slice", "sort", "splice", "includes", "indexOf",
    "join", "keys", "entries", "values", "forEach", "filter", "flat",
    "flatMap", "map", "every", "some", "reduce", "reduceRight", "toReversed",
    "toSorted", "toSpliced", "with"].map String.toList

/-- The elements of an array or a text as properties. -/
def indexed (items : List Json) : List (Text × Json) :=
  (items.zipIdx).map fun item => (decimal item.2, item.1)

def characters (s : Text) : List Json :=
  s.map fun c => .str [c]

/-- `Object.entries(v)`. -/
def entriesOf : Value -> Except Thrown (List (Text × Json))
  | some (.obj fields) => .ok fields
  | some (.arr items) => .ok (indexed items)
  | some (.str s) => .ok (indexed (characters s))
  | some (.bool _) => .ok []
  | some (.num _) => .ok []
  | some .null => .error (refuses "Cannot convert undefined or null to object")
  | none => .error (refuses "Cannot convert undefined or null to object")

/-- A property of a value: missing, a value, or a function of its
prototype. -/
inductive Property where
  | missing
  | own (value : Json)
  | inherited

/-- `v[key]`, with `key in v` when the property is not missing. -/
def propertyOf (v : Value) (key : Text) : Except Thrown Property :=
  match v with
  | some (.obj fields) =>
      match fields.lookup key with
      | some value => .ok (.own value)
      | none =>
          .ok (if key = "__proto__".toList then .own (.obj [])
            else if objectPrototype.contains key then .inherited
            else .missing)
  | some (.arr items) =>
      match (indexed items).lookup key with
      | some value => .ok (.own value)
      | none =>
          .ok (if key = "__proto__".toList then .own (.arr [])
            else if key = "length".toList then
              .own (.num (.ofInt items.length))
            else if (arrayPrototype ++ objectPrototype).contains key then
              .inherited
            else .missing)
  | _ =>
      .error (refuses "Cannot use 'in' operator to search for a property")

/-- A property of the example against the value; an empty key stands for the
first property. -/
def checkProperty (v : Value) (key : Text) (type : Json) :
    Except Thrown Unit := do
  if !type.truthy then return
  let wrong (got : Text) : Thrown :=
    .plain ("Value type of json key=".toList ++ key ++
      " should match example value: ".toList ++ type.stringify ++
      ", got: ".toList ++ got ++ "\x7d".toList)
  if key.isEmpty then
    match (← entriesOf v).head? with
    | none => return
    | some (_, value) =>
        if value.truthy &&
            (typeOf value != typeOf type || isArray type != isArray value) then
          throw (wrong value.stringify)
  else
    match ← propertyOf v key with
    | .missing =>
        throw (.plain ("Json key=".toList ++ key ++ " is missing".toList))
    | .inherited => throw (wrong "undefined".toList)
    | .own value =>
        if value.truthy &&
            (typeOf value != typeOf type || isArray type != isArray value) then
          throw (wrong value.stringify)

/-- `for (const v of a)`. -/
def iterate : Value -> Except Thrown (List Json)
  | some (.arr items) => .ok items
  | some (.str s) => .ok (characters s)
  | _ => .error (refuses "a is not iterable")

def checkJsonType (parseSchema : Json) (val : Value) : Except Thrown Unit := do
  match parseSchema with
  | .arr examples =>
      let entries ← entriesOf examples.head?
      for v in ← iterate val do
        for (key, type) in entries do
          checkProperty (some v) key type
  | _ =>
      let entries ← entriesOf (some parseSchema)
      for (key, type) in entries do
        checkProperty val key type

/-! ## `LLMService._parseResultSchema` -/

inductive ParseType where
  | json
  | codeBlock
deriving DecidableEq

/-- `parseSchema.length`, where it is a number above zero. -/
def lengthOf : Json -> Option Nat
  | .arr items => if items.isEmpty then none else some items.length
  | .str s => if s.isEmpty then none else some s.length
  | .obj fields =>
      match fields.lookup "length".toList with
      | some (.num n) => (parseDigits n.text).filter fun size => size != 0
      | _ => none
  | _ => none

/-- `~~n / 2`. -/
def half (n : Nat) : Text :=
  decimal (n / 2 : Nat) ++ if n % 2 = 0 then [] else ".5".toList

/-- The last `size` code blocks. -/
def codeBlocks (size : Nat) (llmResult : Text) : Except Thrown (List Json) :=
  let split := splitFences matchIndentedFence true 0 llmResult
  if split.length < 2 * size + 1 then
    .error (.plain (decimal size ++ " code blocks expected, got: ".toList ++
      half split.length))
  else
    .ok ((List.range size).map fun k =>
      .str (trim (split.getD (split.length - 2 * (size - k)) [])))

/-- What is made of an answer; without an example it is the answer itself. -/
def parseResultSchema (reader : JsonReader) (parseSchema : Value)
    (parseType : ParseType) (llmResult : Option Text) :
    Except Thrown Value := do
  match parseSchema.filter Json.truthy with
  | none => return llmResult.map .str
  | some schema =>
      match truthy llmResult with
      | none => throw (.plain "LLM result must not empty".toList)
      | some answer =>
          match parseType with
          | .json =>
              let ret ← toJSON reader answer (isArray schema)
              checkJsonType schema ret
              return ret
          | .codeBlock =>
              match lengthOf schema with
              | none =>
                  throw (.plain ("for parseType=\"codeBlock\", parseSchema " ++
                    "must be array").toList)
              | some size => return some (.arr (← codeBlocks size answer))

end Agents
end CallgentApi
