import RtmpEndpoint.Amf0.Value

/-!
# Connection information

What a client says about itself in the command object of `connect`.
-/

namespace RtmpEndpoint

structure ConnectionInformation where
  app : String
  tcUrl : Option String
  flashVersion : Option String
  objectEncoding : Binary64
  /-- Every property of the command object. -/
  properties : Amf0.Properties
  deriving Repr

namespace ConnectionInformation

/-- The name without a slash at its end. -/
def trimApp (app : String) : String :=
  match app.toList.reverse with
  | '/' :: rest => String.ofList rest.reverse
  | _ => app

/-- There is none without an app name. -/
def ofCommandObject? (object : Amf0.Value) : Option ConnectionInformation := do
  let properties ← object.asObject?
  let app ← (← properties.get? "app").asText?
  let text (name : String) : Option String := (properties.get? name).bind (·.asText?)
  return {
    app := trimApp app
    tcUrl := text "tcUrl"
    flashVersion := text "flashVer"
    objectEncoding := ((properties.get? "objectEncoding").bind (·.asNumber?)).getD .zero
    properties }

end ConnectionInformation

end RtmpEndpoint
