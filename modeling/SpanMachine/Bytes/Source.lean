import SpanMachine.Bytes.Basic

/-!
# Text sources

A source hands out a text piece by piece. A source in memory is at its end when
nothing is left. A stream learns of its end only by asking for more than is left, so
that it may have handed out everything without knowing it. Reading a source to its
end gives the same bytes either way.
-/

namespace SpanMachine

/-- When a source counts as being at its end. -/
inductive EndRule where
  | nothingLeft
  | askedForMore

/-- A text on its way to a reader. -/
structure Source where
  endRule : EndRule
  path : Bytes
  unread : Bytes
  /-- A read has wanted more bytes than were left. -/
  exhausted : Bool := false

namespace Source

/-- The path of a text in memory that was given none. -/
def memoryPath : Bytes :=
  ascii "<string>"

/-- A text in memory. -/
def ofText (text path : Bytes) : Source :=
  ⟨.nothingLeft, path, text, false⟩

/-- An open stream with the given content. -/
def ofStream (content path : Bytes) : Source :=
  ⟨.askedForMore, path, content, false⟩

/-- The source knows that nothing is left. -/
def atEnd (source : Source) : Bool :=
  match source.endRule with
  | .nothingLeft => source.unread.isEmpty
  | .askedForMore => source.exhausted

/-- Takes at most the given number of bytes. -/
def read (source : Source) (limit : Nat) : Bytes × Source :=
  (source.unread.take limit,
    { source with
      unread := source.unread.drop limit
      exhausted := source.exhausted || decide (source.unread.length < limit) })

/-- The size of the pieces in which a source is drained. -/
def pieceSize : Nat :=
  4096

/-- Takes pieces until the source is at its end or hands out an empty one. -/
def drain (source : Source) : Bytes × Source :=
  if source.atEnd then
    ([], source)
  else
    let piece := (source.read pieceSize).1
    let left := (source.read pieceSize).2
    if piece = [] then
      ([], left)
    else
      let rest := left.drain
      (piece ++ rest.1, rest.2)
termination_by source.unread.length
decreasing_by
  all_goals
    have unread_ne_nil : source.unread ≠ [] := by
      intro unread_eq_nil
      simp_all [piece, read]
    have := List.length_pos_iff.mpr unread_ne_nil
    simp only [read, List.length_drop, pieceSize]
    omega

end Source

end SpanMachine
