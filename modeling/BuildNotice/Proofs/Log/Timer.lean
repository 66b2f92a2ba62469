import BuildNotice.Log.Timer
import BuildNotice.Proofs.Decimal.Whole
import BuildNotice.Proofs.Record

namespace BuildNotice

open Value (Fields)

namespace Calendar

open Decimal Float.Model Float.Model.UnpackedFloat

end Calendar

namespace Log

namespace Logger

variable {s : Settings} {key : String} {items : List (String × Item)} {item : Item}

end Logger

namespace Timer

open Logger

def given (context : Value) : Fields := Record.ofList context.spread

section Items

variable {t : Timer} {duration : Float} {context : Value} {extra : List (String × Item)}
  {key : String}

def isRefused (context : Value) : Bool :=
  !Request.isRequest (Value.ofFields (given context)) &&
    (given context).any fun f => refuses f.1 (.data f.2)

end Items

section Finish

variable {t : Timer} {s : Settings} {level : Level} {message time : String}
  {extra : List (String × Item)} {context : Value} {clock : Clock}

end Finish

/-- How a timer of an operation ends that took `duration`, where a line is written if it is `asked`
for: the line is stamped by the clock, which is read again for it, and tells the operation and its
duration, unless the context says otherwise or is taken for a request, or the line is no JSON. -/
structure Ends (asked : Prop) (l : Logger) (operation : String) (duration : Float)
    (context : Value) (clock : Clock) (result : Except Failure Timed) : Prop where
  silent : ¬asked → result = .ok ⟨duration, [], clock⟩
  written : asked → (Calendar.textOf? clock.read.1).isSome = true → isRefused context = false →
    ∃ line, result = .ok ⟨duration, [line], clock.read.2⟩ ∧
      (Record.has "operation" (given context) = false →
        Record.has "duration" (given context) = false →
        Request.isRequest (Value.ofFields (given context)) = false →
        l.garbles (given context) = false →
        Record.get? "operation" line = some (.text operation) ∧
          Record.get? "duration" line = some (.number duration))
  refused : asked → (Calendar.textOf? clock.read.1).isSome = true → isRefused context = true →
    result = .error .wrongKind
  undated : asked → Calendar.textOf? clock.read.1 = none →
    result = .error (.error .outOfRange "Invalid time value")

end Timer

end Log

end BuildNotice
