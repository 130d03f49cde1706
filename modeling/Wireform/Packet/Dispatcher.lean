import Wireform.Packet.Registry

/-!
# Dispatchers

A dispatcher keeps handlers by packet type. Dispatching a packet runs the handlers
of its type in the order in which they were added, each on what the one before it
left, and reports how many there are. Packets without handlers are ignored.
-/

namespace Wireform.Packet

/-- What is done with a packet. -/
abbrev Handler (σ : Type) := Value → σ → σ

/-- Handlers by packet type, each type's in the order they were added. -/
structure Dispatcher (σ : Type) where
  handlers : List (Ty × List (Handler σ)) := []

namespace Dispatcher

variable {σ : Type}

/-- The handlers of a type, if any was ever added. -/
def find? (dispatcher : Dispatcher σ) (type : Ty) : Option (List (Handler σ)) :=
  (dispatcher.handlers.find? fun entry => entry.1 = type).map Prod.snd

/-- Handlers by type with one more for a type. -/
def extend (type : Ty) (handler : Handler σ) :
    List (Ty × List (Handler σ)) → List (Ty × List (Handler σ))
  | [] => [(type, [handler])]
  | entry :: rest =>
      if entry.1 = type then (type, entry.2 ++ [handler]) :: rest
      else entry :: extend type handler rest

/-- Adds a handler for a type. It does nothing to a packet of any other type. -/
def on (dispatcher : Dispatcher σ) (type : Ty) (handler : Handler σ) : Dispatcher σ where
  handlers := extend type
    (fun packet context => if packet.type = type then handler packet context else context)
    dispatcher.handlers

/-- Runs the handlers of a type on a packet that goes by a name, and reports how
    many they are. -/
def invoke (dispatcher : Dispatcher σ) (type : Ty) (name : String) (packet : Value)
    (context : σ) : Nat × σ × Event :=
  match dispatcher.find? type with
  | none => (0, context, .noHandlers name)
  | some handlers =>
      (handlers.length, handlers.foldl (fun context handler => handler packet context) context,
        .dispatchedPacket name handlers.length)

/-- Runs the handlers of a packet's type. -/
def dispatch (dispatcher : Dispatcher σ) (packet : Value) (context : σ) : Nat × σ × Event :=
  dispatcher.invoke packet.type packet.type.name packet context

/-- Runs the handlers of the type that a frame claims. -/
def dispatchFrame (dispatcher : Dispatcher σ) (frame : Frame) (context : σ) : Nat × σ × Event :=
  dispatcher.invoke frame.type frame.id frame.value context

/-- How many handlers a type has. -/
def count (dispatcher : Dispatcher σ) (type : Ty) : Nat :=
  ((dispatcher.find? type).map List.length).getD 0

/-- Whether no handler was added since the last clearing. -/
def isEmpty (dispatcher : Dispatcher σ) : Bool := dispatcher.handlers.isEmpty

/-- Removes every handler. -/
def clear (_ : Dispatcher σ) : Dispatcher σ := {}

end Dispatcher

end Wireform.Packet
