import BuildNotice.Log.Logger

namespace BuildNotice.Log

open Value (Fields)

structure Timer where
  operation : Value
  logger : Logger
  started : Float

structure Timed where
  duration : Float
  lines : List Fields
  clock : Clock

namespace Timer

def start (operation : Value) (logger : Logger) (clock : Clock) : Timer × Clock :=
  let (now, clock) := clock.read
  (⟨operation, logger, now⟩, clock)

def data (fields : Fields) : List (String × Item) :=
  fields.map fun (key, v) => (key, .data v)

def items (t : Timer) (duration : Float) (extra : List (String × Item)) (context : Value) :
    List (String × Item) :=
  Record.merge ([("operation", .data t.operation), ("duration", .data (.number duration))] ++ extra)
    (data context.spread)

def finish (t : Timer) (s : Settings) (level : Level) (message : String)
    (extra : List (String × Item)) (context : Value) (clock : Clock) : Except Failure Timed := do
  let (now, clock) := clock.read
  let duration := now - t.started
  let (lines, clock) ←
    t.logger.write s level (t.items duration extra context) (.text message) clock
  .ok ⟨duration, lines, clock⟩

def done (t : Timer) (s : Settings) (context : Value) (clock : Clock) : Except Failure Timed :=
  t.finish s .debug "Operation completed" [] context clock

def failed (t : Timer) (s : Settings) (f : Failure) (context : Value) (clock : Clock) :
    Except Failure Timed :=
  t.finish s .error "Operation failed" [("err", .failure f)] context clock

end Timer

end BuildNotice.Log
