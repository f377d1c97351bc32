/-
JSON values, the accessors over a tool call's argument object, and the
response builder.

A number is held as the value its `as_f64()` reading has: the exact
rational of that double. The cast to `i64` truncates toward zero and
saturates, as the language's float-to-integer cast does.

The two parameters that carry JSON inside a string are parsed by the
JSON library; the parsers are fields of `JsonText`, and the handlers take
one.
-/
import Mathlib.Algebra.Order.Ring.Int
import Mathlib.Data.Rat.Defs

namespace DebugMcp

-- ============================================================== values

/-- A JSON value. An object lists its members with their keys in
ascending order. -/
inductive Json
  | null
  | bool (b : Bool)
  | num (q : Rat)
  | str (s : String)
  | arr (xs : List Json)
  | obj (members : List (String × Json))

/-- An object under construction: members in ascending order of key. -/
abbrev JsonMap := List (String × Json)

namespace JsonMap

/-- The value stored under `key`. -/
def get? (m : JsonMap) (key : String) : Option Json :=
  (m.find? fun kv => kv.1 == key).map Prod.snd

/-- Insert, replacing what the key held. -/
def insert : JsonMap → String → Json → JsonMap
  | [], key, v => [(key, v)]
  | (k, w) :: m, key, v =>
      if key == k then (k, v) :: m
      else if key < k then (key, v) :: (k, w) :: m
      else (k, w) :: insert m key v

/-- What an insert leaves under a key. -/
theorem get?_insert (m : JsonMap) (key key' : String)
    (v : Json) : (m.insert key v).get? key'
      = if key = key' then some v else m.get? key' := by
  unfold JsonMap.get?
  induction m with
  | nil => by_cases h : key = key' <;> simp [JsonMap.insert, h]
  | cons kw m ih =>
      obtain ⟨k, w⟩ := kw
      unfold JsonMap.insert
      by_cases hk : key = k
      · subst hk
        by_cases h : key = key' <;> simp [h]
      · rw [if_neg (by simpa using hk)]
        by_cases hlt : key < k
        · rw [if_pos hlt]
          by_cases h : key = key' <;> simp [h]
        · rw [if_neg hlt]
          by_cases h : k = key'
          · subst h
            simp [hk]
          · simpa [h] using ih

end JsonMap

/-- The least and greatest `i64`. -/
def i64Min : Int := -(2 ^ 63)

@[inherit_doc i64Min]
def i64Max : Int := 2 ^ 63 - 1

/-- The cast of a double to `i64`: toward zero, saturating. -/
def f64ToI64 (q : Rat) : Int :=
  max i64Min (min i64Max (Int.tdiv q.num q.den))

namespace Json

/-- `as_f64()`: only a number coerces. -/
def asF64 : Json → Option Rat
  | num q => some q
  | _ => none

/-- `as_str()`. -/
def asStr : Json → Option String
  | str s => some s
  | _ => none

/-- `is_null()`. -/
def isNull : Json → Bool
  | null => true
  | _ => false

/-- An integer value. -/
def int (n : Int) : Json := num n

/-- The type name used in the `env` element error. -/
def typeName : Json → String
  | null => "null"
  | bool _ => "bool"
  | num _ => "number"
  | str _ => "string"
  | arr _ => "array"
  | obj _ => "object"

end Json

-- =========================================================== arguments

/-- The JSON library's parsers, used on the string parameters. The error
is the parser's own message. -/
structure JsonText where
  stringVec : String → Except String (List String)
  object : String → Except String JsonMap

/-- The argument object of a tool call. -/
structure Args where
  map : JsonMap

namespace Args

/-- The raw value for `key`. -/
def getRaw (args : Args) (key : String) : Option Json := args.map.get? key

/-- Wrap a validation detail with the required-parameter prefix. -/
def missingRequired (detail : String) : String :=
  s!"missing required parameter: {detail}"

/-- The detail of an absent key. -/
def notFound (key : String) : String :=
  s!"required argument \"{key}\" not found"

/-- The detail of a value of the wrong type. -/
def notOfType (key ty : String) : String :=
  s!"argument \"{key}\" is not of type {ty}"

/-- A required string parameter. -/
def requireString (args : Args) (key : String) : Except String String :=
  match args.getRaw key with
  | none => .error (missingRequired (notFound key))
  | some (.str s) => .ok s
  | some _ => .error (missingRequired (notOfType key "string"))

/-- A required integer parameter: a number, truncated. -/
def requireInt (args : Args) (key : String) : Except String Int :=
  match args.getRaw key with
  | none => .error (missingRequired (notFound key))
  | some v =>
      match v.asF64 with
      | some f => .ok (f64ToI64 f)
      | none => .error (missingRequired (notOfType key "int"))

/-- An optional string parameter with a fallback. -/
def getString (args : Args) (key default : String) : String :=
  match args.getRaw key with
  | some (.str s) => s
  | _ => default

/-- An optional boolean parameter with a fallback. -/
def getBool (args : Args) (key : String) (default : Bool) : Bool :=
  match args.getRaw key with
  | some (.bool b) => b
  | _ => default

/-- An explicit `thread_id`: absent, null and non-numeric values fall
back; a number must be positive once truncated. -/
def explicitPositiveThreadId (args : Args) :
    Except String (Option Int) :=
  match (args.getRaw "thread_id").filter (fun v => !v.isNull) with
  | some raw =>
      match raw.asF64 with
      | some f =>
          if f64ToI64 f ≤ 0 then
            .error "'thread_id' must be a positive integer"
          else .ok (some (f64ToI64 f))
      | none => .ok none
  | none => .ok none

/-- A required integer parameter that must be positive. -/
def requirePositiveInt (args : Args) (key : String) :
    Except String Int :=
  match args.requireInt key with
  | .error e => .error e
  | .ok value =>
      if value ≤ 0 then .error s!"'{key}' must be a positive integer"
      else .ok value

/-- A JSON array of strings passed as a string parameter. -/
def parseJsonArray (args : Args) (text : JsonText) (key : String) :
    Except String (List String) :=
  match args.getRaw key with
  | none | some .null => .ok []
  | some (.str s) =>
      match text.stringVec s with
      | .ok v => .ok v
      | .error e => .error s!"failed to parse '{key}' as JSON array: {e}"
  | some _ =>
      .error (s!"'{key}' must be a JSON array string, e.g. "
        ++ "'[\"--flag\", \"value\"]'")

/-- The members of an object as string pairs; the first one that is not
a string is an error. -/
def stringMembers (key : String) :
    JsonMap → Except String (List (String × String))
  | [] => .ok []
  | (k, .str val) :: rest =>
      match stringMembers key rest with
      | .ok out => .ok ((k, val) :: out)
      | .error e => .error e
  | (_, other) :: _ =>
      .error (s!"failed to parse '{key}' as JSON object: cannot "
        ++ s!"unmarshal {other.typeName} into Go value of type string")

/-- A JSON object of strings passed as a string parameter. -/
def parseJsonObject (args : Args) (text : JsonText) (key : String) :
    Except String (List (String × String)) :=
  match args.getRaw key with
  | none | some .null => .ok []
  | some (.str s) =>
      match text.object s with
      | .ok m => stringMembers key m
      | .error e => .error s!"failed to parse '{key}' as JSON object: {e}"
  | some _ =>
      .error (s!"'{key}' must be a JSON object string, e.g. "
        ++ "'\x7b\"KEY\": \"value\"\x7d'")

end Args

-- =========================================================== responses

/-- What a tool handler returns. -/
inductive ToolOutcome
  | json (v : Json)
  | text (s : String)
  | error (s : String)

/-- A tool error. -/
def ToolOutcome.isError : ToolOutcome → Bool
  | error _ => true
  | _ => false

/-- The response object under construction. -/
structure RespBuilder where
  map : JsonMap

namespace RespBuilder

/-- An empty builder. -/
def new : RespBuilder := ⟨[]⟩

/-- Insert `key => value`. -/
def set (b : RespBuilder) (key : String) (value : Json) : RespBuilder :=
  ⟨b.map.insert key value⟩

/-- Insert only when `cond` holds. -/
def setIf (b : RespBuilder) (cond : Bool) (key : String)
    (value : Json) : RespBuilder :=
  if cond then b.set key value else b

/-- Insert only when `value` is present. -/
def setOpt (b : RespBuilder) (key : String) (value : Option Json) :
    RespBuilder :=
  match value with
  | some v => b.set key v
  | none => b

/-- The finished object. -/
def build (b : RespBuilder) : Json := .obj b.map

/-- The finished object as a success outcome. -/
def intoOutcome (b : RespBuilder) : ToolOutcome := .json b.build

end RespBuilder

end DebugMcp
