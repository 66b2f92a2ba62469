import BuildNotice.Failure

namespace BuildNotice.Build

def withSlash (base : String) : String :=
  if base.toList.getLast? = some '/' then base else base ++ "/"

def link (base builder number : String) : String :=
  withSlash base ++ "#/builders/" ++ builder ++ "/builds/" ++ number

def linkOf (base builder number : Value) : Except Failure String :=
  match base, builder.print?, number.print? with
  | .text b, some i, some n => .ok (link b i n)
  | _, _, _ => .error .wrongKind

end BuildNotice.Build
