import Wireform.Catalogue
import Wireform.Packet.Name

/-!
# Packet identifiers of the catalogue

Most packets go by the name that their type gives them. A few say otherwise, some
of them to be as short or as long as an identifier can be.
-/

namespace Wireform.Catalogue

/-- The identifiers that types choose for themselves. -/
def chosen : List (String × String) :=
  [ ("Pong", "PONG"), ("Scoreboard", "scores"), ("EmptyId", ""),
    ("LongId", String.ofList (List.replicate 65536 'i')),
    ("MaxId", String.ofList (List.replicate 32767 'é' ++ ['x'])),
    ("UnicodeId", "ключ 🔑") ]

/-- The identifier of a packet type. -/
def packetId (packet : Ty) : String :=
  match chosen.find? (fun choice => type choice.1 = packet) with
  | some choice => choice.2
  | none => Packet.defaultId packet.name

end Wireform.Catalogue
