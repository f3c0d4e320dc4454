import PredicateLang.Host.Fault
import PredicateLang.Number.Written
import PredicateLang.Value.Document

set_option autoImplicit false

namespace PredicateLang

/-- Mappings have their entries in ascending order of the keys, objects their fields in the order in which
they were declared, with their names as they are spelled there. The last four kinds have no direct
conversion. -/
inductive HostValue
  | integer (type : IntegerType) (i : Int)
  | double (x : Float)
  | single (x : Float32)
  | bool (b : Bool)
  | char (c : Char)
  | text (s : String)
  | unit
  | absent
  | present (inner : HostValue)
  | boxed (inner : HostValue)
  | sequence (items : List HostValue)
  | mapping (entries : List (String × HostValue))
  | object (fields : List (String × HostValue))
  -- Structures without fields that are declared without braces: the bare name, or parentheses behind it.
  | marker
  | emptyTuple
  -- A resource of the host that is known by its number.
  | handle (i : Int64)
  | value (v : Value)
  | document (json : Json)
  | keyed (entries : List (HostValue × HostValue))
  | variant (name : String) (inner : HostValue)
  | failing (reason : String)

def fitsInt64 (i : Int) : Bool := Int64.minValue.toInt ≤ i && i ≤ Int64.maxValue.toInt

def fitsUInt64 (i : Int) : Bool := 0 ≤ i && i < UInt64.size

mutual

def Json.settled : Json → Json
  -- The document where every record has its fields in ascending order; of two fields with one name
  -- the later stays.
  | .list items => .list (settledItems items)
  | .record fields => .record (Fields.ofList (settledFields fields))
  | .null => .null
  | .bool b => .bool b
  | .number n => .number n
  | .text s => .text s

def Json.settledItems : List Json → List Json
  | [] => []
  | item :: rest => item.settled :: settledItems rest

def Json.settledFields : List (String × Json) → List (String × Json)
  | [] => []
  | (name, content) :: rest => (name, content.settled) :: settledFields rest

end

def JsonNumber.toValue : JsonNumber → Except BridgeFault Value
  -- Whole numbers beyond the 64-bit integers become doubles.
  | .whole i => .ok (if fitsInt64 i then .int (Int64.ofInt i) else .double (Double.ofInt i))
  | .double x => if x.isFinite then .ok (.double x) else .error .null

mutual

def Json.toValue : Json → Except BridgeFault Value
  | .null => .error .null
  | .bool b => .ok (.bool b)
  | .number n => n.toValue
  | .text s => .ok (.string s)
  | .list items => (itemsToValues items).map .array
  | .record fields => (fieldsToValues fields).map .object

def Json.itemsToValues : List Json → Except BridgeFault (List Value)
  | [] => .ok []
  | item :: rest => do return (← item.toValue) :: (← itemsToValues rest)

def Json.fieldsToValues : List (String × Json) → Except BridgeFault (List (String × Value))
  | [] => .ok []
  | (name, content) :: rest => do return (name, ← content.toValue) :: (← fieldsToValues rest)

end

namespace HostValue

def integerToValue (type : IntegerType) (i : Int) : Except BridgeFault Value :=
  if fitsInt64 i then .ok (.int (Int64.ofInt i)) else .error (.exceedsInt64 type i)

-- What values without a direct conversion are refused with.
def indirect : BridgeFault := .refused "no direct conversion"

mutual

def toValue : HostValue → Except BridgeFault Value
  | .integer type i => integerToValue type i
  | .double x => .ok (.double x)
  | .single x => .ok (.double (Double.ofSingle x))
  | .bool b => .ok (.bool b)
  | .char c => .ok (.char c)
  | .text s => .ok (.string s)
  | .unit => .error .unit
  | .absent => .error .absent
  | .present inner => inner.toValue
  | .boxed inner => inner.toValue
  | .sequence items => (itemsToValues items).map .array
  | .mapping entries => (fieldsToValues entries).map .record
  | .object fields => (fieldsToValues fields).map .record
  | .marker => .ok (.record [])
  | .emptyTuple => .ok (.record [])
  | .handle i => .ok (.int i)
  | .value v => .ok v
  | .document json => json.settled.toValue
  | .keyed _ => .error indirect
  | .variant _ _ => .error indirect
  | .failing _ => .error indirect

def itemsToValues : List HostValue → Except BridgeFault (List Value)
  | [] => .ok []
  | item :: rest => do return (← item.toValue) :: (← itemsToValues rest)

def fieldsToValues : List (String × HostValue) → Except BridgeFault (List (String × Value))
  | [] => .ok []
  | (name, content) :: rest => do return (name, ← content.toValue) :: (← fieldsToValues rest)

end

def doubleKey (x : Float) : Except BridgeFault String :=
  if x.isFinite then .ok (NumberStyle.json.write x) else .error .keyNotFinite

def singleKey (x : Float32) : Except BridgeFault String :=
  if x.isFinite then .ok (NumberStyle.jsonSingle.writeSingle x) else .error .keyNotFinite

def boolKey (b : Bool) : String := if b then "true" else "false"

def documentKey : Json → Except BridgeFault String
  | .text s => .ok s
  | .bool b => .ok (boolKey b)
  | .number (.whole i) => .ok (toString i)
  | .number (.double x) => doubleKey x
  | _ => .error .keyNotText

def keyText : HostValue → Except BridgeFault String
  | .text s => .ok s
  | .char c => .ok c.toString
  | .bool b => .ok (boolKey b)
  | .integer _ i => .ok (toString i)
  | .handle i => .ok (toString i.toInt)
  | .double x => doubleKey x
  | .single x => singleKey x
  | .boxed inner => inner.keyText
  | .document json => documentKey json
  | .failing reason => .error (.refused reason)
  | _ => .error .keyNotText

def integerToJson (i : Int) : Except BridgeFault Json :=
  if fitsInt64 i || fitsUInt64 i then .ok (.ofInt i) else .error .numberOutOfRange

-- The mark of a raw name, as of `r#type`, is no part of the name in a document.
def writtenName (declared : String) : String :=
  match declared.toList with
  | 'r' :: '#' :: plain => String.ofList plain
  | _ => declared

def renamed {α : Type} (fields : List (String × α)) : List (String × α) :=
  fields.map fun field => (writtenName field.1, field.2)

mutual

def toJson : HostValue → Except BridgeFault Json
  | .integer _ i => integerToJson i
  | .double x => .ok (.number (.double x))
  | .single x => .ok (.number (.double (Double.ofSingle x)))
  | .bool b => .ok (.bool b)
  | .char c => .ok (.text c.toString)
  | .text s => .ok (.text s)
  | .unit => .ok .null
  | .absent => .ok .null
  | .present inner => inner.toJson
  | .boxed inner => inner.toJson
  | .sequence items => (itemsToJson items).map .list
  | .mapping entries => (fieldsToJson entries).map .record
  | .object fields => (fieldsToJson fields).map fun written => .record (renamed written)
  | .marker => .ok .null
  | .emptyTuple => .ok (.list [])
  | .handle i => .ok (.ofInt i.toInt)
  | .value v => .ok v.toJson
  | .document json => .ok json
  | .keyed entries => (entriesToJson entries).map .record
  | .variant name inner => inner.toJson.map (.tagged name)
  | .failing reason => .error (.refused reason)

def itemsToJson : List HostValue → Except BridgeFault (List Json)
  | [] => .ok []
  | item :: rest => do return (← item.toJson) :: (← itemsToJson rest)

def fieldsToJson : List (String × HostValue) → Except BridgeFault (List (String × Json))
  | [] => .ok []
  | (name, content) :: rest => do return (name, ← content.toJson) :: (← fieldsToJson rest)

def entriesToJson : List (HostValue × HostValue) → Except BridgeFault (List (String × Json))
  | [] => .ok []
  | (key, content) :: rest => do
      return (← key.keyText, ← content.toJson) :: (← entriesToJson rest)

end

def reflect (host : HostValue) : Except BridgeFault Value := do
  (← host.toJson).settled.toValue

end HostValue

end PredicateLang
