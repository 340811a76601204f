import MediaServer.Ref.Candidate
import MediaServer.Ref.Roommgr

/-!
# Messages as bytes (`roommgr.go`)

Both transports hand the bytes of a message to `roommgr.HandleMessage`, which
reads them with `CreateJSONParser` and goes on with whatever that returned: on
an error the map is nil, and every field of it reads as the empty text.

What `json.Unmarshal` makes of the bytes is a parameter, `none` where it
returns an error of its own (no JSON, or a number that no `float64` can hold).
-/

namespace MediaServer.Ref

open MediaServer.Lib

/-- The map that the handler goes on with. -/
def parsedOrNil (unmarshal : List UInt8 → Option Json) (msg : List UInt8) :
    JsonParser :=
  ((unmarshal msg).bind createJSONParser).getD []

/-- `roommgr.HandleMessage`. -/
def Pod.mgrHandleBytes (unmarshal : List UInt8 → Option Json) (env : Env)
    (msg : List UInt8) (p : Pod) : Pod :=
  p.mgrHandleMessage env (parsedOrNil unmarshal msg)

end MediaServer.Ref
