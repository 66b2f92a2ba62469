import BuildNotice.Template.Position

namespace BuildNotice.Template

structure Strip where
  before : Bool
  after : Bool
  deriving DecidableEq

def Strip.none : Strip := ⟨false, false⟩

inductive OutputMark where
  | escaped
  | unescaped
  | decorator
  deriving DecidableEq

inductive Token where
  | content (text : String)
  | comment (strip : Strip)
  | rawOpen
  | rawClose
  | rawEnd (name : String)
  | blockOpen (strip decorator : Bool)
  | partialOpen (strip : Bool)
  | partialBlockOpen (strip : Bool)
  | endOpen (strip : Bool)
  | inverse (strip : Strip)
  | inverseOpen (strip : Bool)
  | chainOpen (strip : Bool)
  | outputOpen (strip : Bool) (mark : OutputMark)
  | tripleOpen (strip : Bool)
  | tripleClose (strip : Bool)
  | close (strip : Bool)
  | groupOpen
  | groupClose
  | equals
  | name (text : String)
  | separator (text : String)
  | string (text : String)
  | number (value : Float)
  | boolean (value : Bool)
  | undefined
  | null
  | at
  | paramsOpen
  | paramsClose
  | stray
  | unrecognized
  | finish

structure Placed where
  token : Token
  start : Position
  since : Nat

end BuildNotice.Template
