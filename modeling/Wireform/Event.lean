import Wireform.Context

/-!
# Events

What a serializer, a registry and a dispatcher report about their work, in the
order in which it happens. An event is data; `level`, `message` and `fields` are
what a log shows of it.
-/

namespace Wireform

/-- Something worth reporting. -/
inductive Event
  | builtSerializer (resolvers transforms : Nat) (cache : Bool)
  | resetCache
  /-- A codec was resolved afresh, to be remembered at the site if there is one. -/
  | resolvedCodec (type : String) (site : Option Site)
  /-- An aggregate was entered, with so many others around it. -/
  | descending (type : String) (depth : Nat)
  | registeredPacket (id type : String)
  | compressedFrame (raw compressed : Nat)
  | noHandlers (packet : String)
  | dispatchedPacket (packet : String) (handlers : Nat)
deriving DecidableEq, Repr

namespace Event

/-- How important an event is. -/
def level : Event → String
  | .builtSerializer _ _ _ => "DEBUG"
  | .resetCache => "DEBUG"
  | .registeredPacket _ _ => "DEBUG"
  | .compressedFrame _ _ => "DEBUG"
  | .resolvedCodec _ _ => "TRACE"
  | .descending _ _ => "TRACE"
  | .noHandlers _ => "TRACE"
  | .dispatchedPacket _ _ => "TRACE"

/-- What happened. -/
def message : Event → String
  | .builtSerializer _ _ _ => "built serializer"
  | .resetCache => "reset codec cache"
  | .resolvedCodec _ _ => "resolved codec"
  | .descending _ _ => "descending"
  | .registeredPacket _ _ => "registered packet"
  | .compressedFrame _ _ => "compressed frame"
  | .noHandlers _ => "no handlers"
  | .dispatchedPacket _ _ => "dispatched packet"

/-- The particulars of an event by name. Sites and compressed sizes are not shown. -/
def fields : Event → List (String × String)
  | .builtSerializer resolvers transforms cache =>
      [("resolvers", toString resolvers), ("transforms", toString transforms),
        ("cache", toString cache)]
  | .resetCache => []
  | .resolvedCodec type _ => [("ty", type)]
  | .descending type depth => [("ty", type), ("depth", toString depth)]
  | .registeredPacket id type => [("id", id), ("ty", type)]
  | .compressedFrame raw _ => [("raw", toString raw)]
  | .noHandlers packet => [("packet", packet)]
  | .dispatchedPacket packet handlers => [("packet", packet), ("handlers", toString handlers)]

end Event

end Wireform
