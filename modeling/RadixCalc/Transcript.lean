/-!
# The transcript

The lines shown to the user, oldest first, of which only the last `Transcript.capacity` are kept.

* `Line`: a line of the transcript.
* `Transcript`: the lines, with their bound; `push` and `pushAll` add to its end.
-/

namespace RadixCalc

/-- A line of the transcript. -/
inductive Line where
  /-- What the user entered. -/
  | input (text : String)
  /-- A result. -/
  | output (text : String)
  /-- An incident met on the way to a result. -/
  | warning (text : String)
  /-- A fault. -/
  | error (text : String)
deriving DecidableEq, Repr

/-- The number of lines kept. -/
def Transcript.capacity : Nat := 500

/-- The lines shown to the user. -/
structure Transcript where
  lines : List Line
  bounded : lines.length ≤ Transcript.capacity

namespace Transcript

/-- The last lines of a list, as many as are kept. -/
def ofList (lines : List Line) : Transcript where
  lines := lines.drop (lines.length - capacity)
  bounded := by rw [List.length_drop]; omega

/-- No lines. -/
def empty : Transcript := ofList []

/-- The transcript with one more line at its end. -/
def push (t : Transcript) (l : Line) : Transcript := ofList (t.lines ++ [l])

/-- The transcript with more lines at its end. -/
def pushAll (t : Transcript) (ls : List Line) : Transcript := ls.foldl push t

/-- Of the lines before and the new one, the first goes when they are one too many. -/
theorem lines_push (t : Transcript) (l : Line) :
    (t.push l).lines = (t.lines ++ [l]).drop (t.lines.length + 1 - capacity) := by
  simp [push, ofList]

/-- The number of lines. -/
def size (t : Transcript) : Nat := t.lines.length

end Transcript

end RadixCalc
