/-
Memories of events: what a log keeps to be asked about later. A memory
keeps the events that came in last, up to its capacity and in their
order; when it is full the oldest one gives way.
-/
import LayeredLexer.Log.Event

namespace LayeredLexer.Log

/-- The events that are kept, the oldest first. -/
structure Memory where
  events : List Event := []
deriving DecidableEq, Repr

namespace Memory

/-- The most events that a memory keeps. -/
def capacity : Nat := 1000

/-- Keeps one more event. -/
def record (memory : Memory) (event : Event) : Memory :=
  ⟨memory.events.drop (memory.events.length + 1 - capacity) ++ [event]⟩

-- ============================================================ queries

def count (memory : Memory) : Nat := memory.events.length

def errors (memory : Memory) : List Event := memory.events.filter Event.isError

def withCode (memory : Memory) (code : Code) : List Event :=
  memory.events.filter fun event => event.code == code

def inCategory (memory : Memory) (category : String) : List Event :=
  memory.events.filter fun event => event.code.category == category

/-- Whether an error of a code is kept. -/
def hasError (memory : Memory) (code : Code) : Bool :=
  memory.events.any fun event => event.isError && event.code == code

/-- Whether a success of a code is kept. -/
def hasSuccess (memory : Memory) (code : Code) : Bool :=
  memory.events.any fun event => event.isInfo && event.code == code

end Memory

end LayeredLexer.Log
