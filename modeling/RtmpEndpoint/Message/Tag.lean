/-!
# Message type tags

Every message carries a one byte tag. The tags of the protocol have names; any other byte is a tag
as well, only without a meaning to this endpoint.
-/

namespace RtmpEndpoint.Message

structure Tag where
  id : UInt8
  deriving DecidableEq, Repr, Inhabited

namespace Tag

@[match_pattern] abbrev setChunkSize : Tag := ⟨1⟩
@[match_pattern] abbrev abort : Tag := ⟨2⟩
@[match_pattern] abbrev acknowledgement : Tag := ⟨3⟩
@[match_pattern] abbrev userControl : Tag := ⟨4⟩
@[match_pattern] abbrev windowAcknowledgementSize : Tag := ⟨5⟩
@[match_pattern] abbrev setPeerBandwidth : Tag := ⟨6⟩
@[match_pattern] abbrev audio : Tag := ⟨8⟩
@[match_pattern] abbrev video : Tag := ⟨9⟩
@[match_pattern] abbrev amf3Data : Tag := ⟨15⟩
@[match_pattern] abbrev amf3SharedObject : Tag := ⟨16⟩
@[match_pattern] abbrev amf3Command : Tag := ⟨17⟩
@[match_pattern] abbrev amf0Data : Tag := ⟨18⟩
@[match_pattern] abbrev amf0SharedObject : Tag := ⟨19⟩
@[match_pattern] abbrev amf0Command : Tag := ⟨20⟩
@[match_pattern] abbrev aggregate : Tag := ⟨22⟩

/-- The tags with a name. -/
def named : List (Tag × String) :=
  [(setChunkSize, "SetChunkSize"), (abort, "Abort"), (acknowledgement, "Acknowledgement"),
    (userControl, "UserControl"), (windowAcknowledgementSize, "WindowAcknowledgementSize"),
    (setPeerBandwidth, "SetPeerBandwidth"), (audio, "Audio"), (video, "Video"),
    (amf3Data, "Amf3Data"), (amf3SharedObject, "Amf3SharedObject"), (amf3Command, "Amf3Command"),
    (amf0Data, "Amf0Data"), (amf0SharedObject, "Amf0SharedObject"), (amf0Command, "Amf0Command"),
    (aggregate, "Aggregate")]

def isNamed (tag : Tag) : Bool := named.any (·.1 == tag)

/-- The name, or the number of a tag without one. -/
def name (tag : Tag) : String :=
  match named.find? (·.1 == tag) with
  | some (_, name) => name
  | none => "Other(" ++ toString tag.id.toNat ++ ")"

/-- Protocol control messages configure the connection itself. -/
def isProtocolControl (tag : Tag) : Bool :=
  tag == setChunkSize || tag == abort || tag == acknowledgement
    || tag == windowAcknowledgementSize || tag == setPeerBandwidth

end Tag

end RtmpEndpoint.Message
