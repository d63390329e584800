/-
# JSON texts

`serde_json::Value` and its compact text.  A `Map` of it is ordered by its keys;
`setField` keeps a list of fields that way, and `JsonValue.json` is the object
that the macro `json!` makes of its fields.  Numbers are integers.

A text says on one line whatever its strings say (`oneLine_render`): control
characters are escaped.
-/

import NightBridge.Data.SocketAddr
import NightBridge.Data.Text

namespace NightBridge.Data

inductive JsonValue
  | null
  | bool (b : Bool)
  | number (n : ℤ)
  | string (s : String)
  | array (items : List JsonValue)
  | object (fields : List (String × JsonValue))

namespace JsonValue

def setField (key : String) (value : JsonValue) : List (String × JsonValue) → List (String × JsonValue)
  | [] => [(key, value)]
  | (key', value') :: fields =>
    if key = key' then (key, value) :: fields
    else if key < key' then (key, value) :: (key', value') :: fields
    else (key', value') :: setField key value fields

/-- `json!` of an object. -/
def json (fields : List (String × JsonValue)) : JsonValue :=
  .object (fields.foldl (fun sorted (key, value) => setField key value sorted) [])

/-- `json!` of an option. -/
def ofOption {α : Type} (f : α → JsonValue) : Option α → JsonValue
  | none => .null
  | some a => f a

/-- Bytes, as an array of numbers. -/
def ofBytes (bytes : Bytes) : JsonValue := .array (bytes.map fun b => .number b.toNat)

/-! ### The text of a value -/

/-- A character in a string. -/
def escape (c : Char) : List Char :=
  if c = '"' then ['\\', '"']
  else if c = '\\' then ['\\', '\\']
  else if c.toNat = 8 then ['\\', 'b']
  else if c.toNat = 9 then ['\\', 't']
  else if c.toNat = 10 then ['\\', 'n']
  else if c.toNat = 12 then ['\\', 'f']
  else if c.toNat = 13 then ['\\', 'r']
  else if c.toNat < 32 then ['\\', 'u', '0', '0', hexDigit (c.toNat / 16), hexDigit (c.toNat % 16)]
  else [c]

def quote (s : String) : List Char := '"' :: s.toList.flatMap escape ++ ['"']

def renderNumber : ℤ → List Char
  | .ofNat n => decimal n
  | .negSucc n => '-' :: decimal (n + 1)

mutual

/-- `Value::to_string`. -/
def render : JsonValue → List Char
  | .null => ['n', 'u', 'l', 'l']
  | .bool true => ['t', 'r', 'u', 'e']
  | .bool false => ['f', 'a', 'l', 's', 'e']
  | .number n => renderNumber n
  | .string s => quote s
  | .array items => '[' :: renderItems items ++ [']']
  | .object fields => '\x7b' :: renderFields fields ++ ['\x7d']

def renderItems : List JsonValue → List Char
  | [] => []
  | [value] => render value
  | value :: items => render value ++ ',' :: renderItems items

def renderFields : List (String × JsonValue) → List Char
  | [] => []
  | [(key, value)] => quote key ++ ':' :: render value
  | (key, value) :: fields => quote key ++ ':' :: render value ++ ',' :: renderFields fields

end

/-- `serde_json::to_vec`. -/
def bytes (value : JsonValue) : Bytes := (render value).flatMap String.utf8EncodeChar

example : String.ofList (render (json [("size", .number (-3)), ("name", .string "a\nb")])) =
    "\x7b\"name\":\"a\\nb\",\"size\":-3\x7d" := by decide +kernel

/-! ### One line -/

def OneLine (cs : List Char) : Prop := ∀ c ∈ cs, c ≠ '\n' ∧ c ≠ '\r'

theorem oneLine_nil : OneLine [] := fun _ hc => absurd hc List.not_mem_nil

theorem OneLine.append {cs ds : List Char} (hcs : OneLine cs) (hds : OneLine ds) : OneLine (cs ++ ds) :=
  fun c hc => (List.mem_append.mp hc).elim (hcs c) (hds c)

theorem OneLine.cons {c : Char} {cs : List Char} (hc : c ≠ '\n' ∧ c ≠ '\r') (hcs : OneLine cs) :
    OneLine (c :: cs) :=
  List.forall_mem_cons.mpr ⟨hc, hcs⟩

instance (cs : List Char) : Decidable (OneLine cs) := List.decidableBAll _ cs

theorem oneLine_escape (c : Char) : OneLine (escape c) := by
  have hdigit : ∀ n < 16, hexDigit n ≠ '\n' ∧ hexDigit n ≠ '\r' := by decide
  unfold escape
  split_ifs with _ _ _ _ hnewline _ hreturn hcontrol
  · decide
  · decide
  · decide
  · decide
  · decide
  · decide
  · decide
  · have hfront : OneLine ['\\', 'u', '0', '0'] := by decide
    exact hfront.append (.cons (hdigit _ (by omega)) (.cons (hdigit _ (by omega)) oneLine_nil))
  · refine .cons ⟨?_, ?_⟩ oneLine_nil
    · rintro rfl
      exact hnewline rfl
    · rintro rfl
      exact hreturn rfl

theorem oneLine_quote (s : String) : OneLine (quote s) := by
  refine (OneLine.cons (by decide) fun c hc => ?_).append (by decide)
  obtain ⟨c', -, hc⟩ := List.mem_flatMap.mp hc
  exact oneLine_escape c' c hc

theorem oneLine_decimal (n : ℕ) : OneLine (decimal n) := fun _ hc =>
  ⟨fun h => not_mem_decimal (by decide) n (h ▸ hc), fun h => not_mem_decimal (by decide) n (h ▸ hc)⟩

theorem oneLine_renderNumber : ∀ n, OneLine (renderNumber n)
  | .ofNat n => oneLine_decimal n
  | .negSucc n => .cons (by decide) (oneLine_decimal (n + 1))

mutual

/-- **The text of a value is one line.** -/
theorem oneLine_render : ∀ value, OneLine (render value)
  | .null => by rw [render]; decide
  | .bool true => by rw [render]; decide
  | .bool false => by rw [render]; decide
  | .number n => by rw [render]; exact oneLine_renderNumber n
  | .string s => by rw [render]; exact oneLine_quote s
  | .array items => by
    rw [render]
    exact (OneLine.cons (by decide) (oneLine_renderItems items)).append (by decide)
  | .object fields => by
    rw [render]
    exact (OneLine.cons (by decide) (oneLine_renderFields fields)).append (by decide)

theorem oneLine_renderItems : ∀ items, OneLine (renderItems items)
  | [] => by rw [renderItems]; decide
  | [value] => by rw [renderItems]; exact oneLine_render value
  | value :: item :: items => by
    rw [renderItems]
    · exact (oneLine_render value).append (.cons (by decide) (oneLine_renderItems (item :: items)))
    · simp

theorem oneLine_renderFields : ∀ fields, OneLine (renderFields fields)
  | [] => by rw [renderFields]; decide
  | [(key, value)] => by
    rw [renderFields]
    exact (oneLine_quote key).append (.cons (by decide) (oneLine_render value))
  | (key, value) :: field :: fields => by
    rw [renderFields]
    · exact ((oneLine_quote key).append (.cons (by decide) (oneLine_render value))).append
        (.cons (by decide) (oneLine_renderFields (field :: fields)))
    · simp

end

theorem render_json (fields : List (String × JsonValue)) : ∃ cs, render (json fields) = '\x7b' :: cs := by
  rw [json, render]
  exact ⟨_, rfl⟩

end JsonValue
end NightBridge.Data
