import BuildNotice.Calendar
import BuildNotice.Event
import BuildNotice.Log.Description
import BuildNotice.Log.Request
import BuildNotice.Settings

/-! A line is written when its level is as grave as the settings ask for, and only then is the clock read. -/

namespace BuildNotice.Log

open Value (Fields)

abbrev Clock := List Float

namespace Clock

def read : Clock → Float × Clock
  | [] => (0, [])
  | [x] => (x, [x])
  | x :: y :: rest => (x, y :: rest)

end Clock

inductive Item where
  | data (v : Value)
  | failure (f : Failure)

structure Logger where
  bindings : Fields

namespace Logger

def isErrorKey (key : String) : Bool :=
  key == "err" || key == "error"

/-- Serializers are kept in a record, which knows these names like every record: what it holds under
them cannot be called with a value alone. -/
def uncallableNames : List String :=
  ["__proto__", "__defineGetter__", "__defineSetter__", "hasOwnProperty", "propertyIsEnumerable",
    "valueOf", "toLocaleString"]

/-- Under these names the record of serializers looks for an accessor and finds none. -/
def accessorNames : List String := ["__lookupGetter__", "__lookupSetter__"]

/-- Under these names a value is written as it is, not as JSON. -/
def garblingNames : List String := ["constructor", "toString"]

def hasText : Item → Bool
  | .data v => v.print?.isSome
  | .failure (.thrown v) => v.print?.isSome
  | .failure _ => true

def itemValue (key : String) : Item → Value
  | .data v =>
    if isErrorKey key then Description.ofValue v
    else if key = "isPrototypeOf" then .bool false
    else v
  | .failure f =>
    if isErrorKey key then Description.ofFailure f
    else if key = "isPrototypeOf" then .bool false
    else Description.plain f

def unbound : List String := ["level", "serializers", "formatters", "customLevels"]

def bound (key : String) (v : Value) : Fields :=
  if unbound.contains key || !Value.Json.isShown v then [] else [(key, itemValue key (.data v))]

def create (bindings : Fields) : Logger :=
  ⟨bindings.flatMap fun (key, v) => bound key v⟩

def refusesBinding (key : String) (v : Value) : Bool :=
  key == "hasOwnProperty" ||
    (Value.Json.isShown v && ((uncallableNames ++ accessorNames).contains key ||
      (key == "constructor" && v.print?.isNone)))

def make (bindings : Fields) : Except Failure Logger :=
  if bindings.any fun (key, v) => refusesBinding key v then .error .wrongKind
  else .ok (create bindings)

def default : Logger := create []

def ofComponent (c : Component) : Logger := create [("component", .text c.name)]

def isEnabled (s : Settings) (level : Level) : Bool :=
  level != .silent && s.level.weight ≤ level.weight

def label (level : Level) : String :=
  String.ofList (level.name.toList.map Char.toUpper)

def isGiven : Item → Bool
  | .data v => Value.Json.isShown v
  | .failure (.thrown v) => Value.Json.isShown v
  | .failure _ => true

def isTold (key : String) (item : Item) : Bool :=
  isGiven item && !accessorNames.contains key

def fieldsOf (items : List (String × Item)) : Fields :=
  (items.filter fun (key, item) => isTold key item).map fun (key, item) => (key, itemValue key item)

def refuses (key : String) (item : Item) : Bool :=
  isGiven item && (uncallableNames.contains key ||
    (("constructor" :: accessorNames).contains key && !hasText item))

def isTruthy : Item → Bool
  | .data v => v.isTruthy
  | .failure (.thrown v) => v.isTruthy
  | .failure _ => true

def itemMessage : Item → Value
  | .data v => v.own "message"
  | .failure f => Description.message f

def messageOf (items : List (String × Item)) (message : Value) : Value :=
  match message, Record.get? "err" items with
  | .undefined, some item => if isTruthy item then itemMessage item else .undefined
  | message, _ => message

def messageFields : Value → Fields
  | .undefined => []
  | v => [("msg", v)]

def plainValue : Item → Value
  | .data v => v
  | .failure f => Description.plain f

def plainly (items : List (String × Item)) : Value :=
  Value.ofFields (items.map fun (key, item) => (key, plainValue item))

def told (items : List (String × Item)) : List (String × Item) :=
  if Request.isRequest (plainly items) then
    [("req", .data (Request.summary (plainly items)))]
  else items

/-- The names of bindings are written as they are: one that JSON would escape spoils the line. -/
def isUnescaped (key : String) : Bool :=
  key.toList.all fun c => Value.Json.escape c == [c]

def isGarbled (fields : Fields) : Bool :=
  garblingNames.any fun key => Record.has key fields

def garbles (l : Logger) (fields : Fields) : Bool :=
  l.bindings.any (fun f => !isUnescaped f.1) || isGarbled (l.bindings ++ fields)

/-- One line, as it reads. Of a name that is told twice the last telling counts, and a line that need
not be JSON is read as telling nothing. -/
def line (l : Logger) (level : Level) (time : String) (items : List (String × Item))
    (message : Value) : Fields :=
  if l.garbles (fieldsOf items) then []
  else Record.ofList ([("level", .text (label level)), ("time", .text time)] ++ l.bindings ++
    fieldsOf items ++ messageFields (messageOf items message))

def write (s : Settings) (l : Logger) (level : Level) (items : List (String × Item))
    (message : Value) (clock : Clock) : Except Failure (List Fields × Clock) :=
  if isEnabled s level then
    let (now, clock) := clock.read
    match Calendar.textOf? now with
    | some time =>
      if (told items).any fun (key, item) => refuses key item then .error .wrongKind
      else .ok ([l.line level time (told items) message], clock)
    | none => .error (.error .outOfRange "Invalid time value")
  else .ok ([], clock)

def writeValue (s : Settings) (l : Logger) (level : Level) (v message : Value) (clock : Clock) :
    Except Failure (List Fields × Clock) :=
  let shown := match v, message with
    | .undefined, m => m
    | .null, .undefined => .null
    | .null, m => m
    | v, _ => v
  l.write s level [] shown clock

end Logger

end BuildNotice.Log
