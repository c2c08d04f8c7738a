/-
Lines of output on the two channels of a program. Lines on one channel
keep their order; nothing is said about the order between the channels.
-/

namespace LayeredLexer

/-- Where a line goes: results, or complaints. -/
inductive Channel where
  | output
  | errors
deriving DecidableEq, Repr

/-- A text that is followed by a line end. -/
structure Line where
  channel : Channel
  text : String
deriving DecidableEq, Repr

/-- All that is written to a channel. -/
def Channel.textOf (channel : Channel) (lines : List Line) : String :=
  lines.foldl (fun out line => if line.channel = channel then out ++ line.text ++ "\n" else out) ""

end LayeredLexer
