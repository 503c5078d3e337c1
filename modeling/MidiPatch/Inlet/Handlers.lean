import MidiPatch.Message.Text

/-!
# Handlers of one input

A message goes to the handler of its kind, or to the fallthrough handler when that kind has none,
and then to the catch-all handler. A handler is any value; `HandlerTable.calls` says which ones hear
a message, and what hearing it means is up to whoever holds the table.
-/

namespace MidiPatch

/-- Names the input a message came from. -/
structure SourceId where
  number : UInt8
  deriving DecidableEq, Repr

def SourceId.text (s : SourceId) : String := s!"src{s.number.toNat}"

/-- One handler hearing one message. -/
structure Call (η : Type) where
  handler : η
  source : SourceId
  message : Message
  deriving DecidableEq, Repr

structure HandlerTable (η : Type) where
  ofKind : Kind → Option η := fun _ => none
  catchAll : Option η := none
  fallthrough : Option η := none

namespace HandlerTable

variable {η : Type}

def register (t : HandlerTable η) (k : Kind) (h : η) : HandlerTable η :=
  { t with ofKind := fun k' => if k' = k then some h else t.ofKind k' }

def unregister (t : HandlerTable η) (k : Kind) : HandlerTable η :=
  { t with ofKind := fun k' => if k' = k then none else t.ofKind k' }

def has (t : HandlerTable η) (k : Kind) : Bool := (t.ofKind k).isSome

def registerCatchAll (t : HandlerTable η) (h : η) : HandlerTable η :=
  { t with catchAll := some h }

def registerFallthrough (t : HandlerTable η) (h : η) : HandlerTable η :=
  { t with fallthrough := some h }

/-- The handlers that hear a message, in the order they hear it. -/
def hearers (t : HandlerTable η) (m : Message) : List η :=
  ((t.ofKind m.kind).or t.fallthrough).toList ++ t.catchAll.toList

/-- The calls a message from `source` causes. -/
def calls (t : HandlerTable η) (source : SourceId) (m : Message) : List (Call η) :=
  (t.hearers m).map fun h => { handler := h, source := source, message := m }

def kinds (t : HandlerTable η) : List Kind := Kind.all.filter t.has

def text (t : HandlerTable η) : String :=
  let kinds := ", ".intercalate (t.kinds.map Kind.text)
  s!"Dispatcher \x7b kinds: [{kinds}], catch_all: {t.catchAll.isSome}, " ++
    s!"fallthrough: {t.fallthrough.isSome} \x7d"

end HandlerTable

end MidiPatch
