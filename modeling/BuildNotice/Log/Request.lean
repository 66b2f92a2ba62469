import BuildNotice.Value.Member

/-! Whatever has a method, headers and a socket is logged as a request, by a summary. -/

namespace BuildNotice.Log.Request

def isRequest (v : Value) : Bool :=
  (v.own "method").isTruthy && (v.own "headers").isTruthy && (v.own "socket").isTruthy

def orElse (v w : Value) : Value :=
  if v.isTruthy then v else w

def idOf (v : Value) : Value :=
  let info := v.own "info"
  orElse (v.own "id") (if info.isTruthy then info.own "id" else .undefined)

def urlOf (v : Value) : Value :=
  let url := v.own "url"
  let address := match v.own "path" with
    | .text s => .text s
    | _ => if url.isTruthy then orElse (url.own "path") url else .undefined
  orElse (v.own "originalUrl") address

def optional (v : Value) (key : String) : Value.Fields :=
  if (v.own key).isTruthy then [(key, v.own key)] else []

def summary (v : Value) : Value :=
  let connection := orElse (v.own "info") (v.own "socket")
  Value.ofFields ([("id", idOf v), ("method", v.own "method"), ("url", urlOf v)] ++
    optional v "query" ++ optional v "params" ++
    [("headers", v.own "headers"), ("remoteAddress", connection.own "remoteAddress"),
      ("remotePort", connection.own "remotePort")])

end BuildNotice.Log.Request
