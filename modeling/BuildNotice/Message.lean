
namespace BuildNotice

inductive MessageType where
  | plain
  | html
  deriving DecidableEq

namespace MessageType

def all : List MessageType := [.plain, .html]

def name : MessageType → String
  | .plain => "plain"
  | .html => "html"

def ofName? (name : String) : Option MessageType :=
  all.find? fun t => t.name == name

def escapes (t : MessageType) : Bool :=
  t == .html

theorem ofName?_name (t : MessageType) : ofName? t.name = some t := by
  cases t <;> decide

end MessageType

structure Message where
  body : String
  type : MessageType
  subject : Option String

end BuildNotice
