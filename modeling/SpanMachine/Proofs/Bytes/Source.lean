import SpanMachine.Bytes.Source

/-!
# Draining a source

Whatever rule tells a source that it is at its end, a source that believes to be there has
nothing left. A stream believes so only after it was asked for more than it had, and then its
last bytes have been handed out. So draining stops at the end and not before it, and what it
hands out is all that was left.
-/

namespace SpanMachine

namespace Source

/-- A source from which too much was asked has nothing left. -/
def Honest (source : Source) : Prop :=
  source.exhausted = true → source.unread = []

theorem honest_ofStream (content path : Bytes) : (ofStream content path).Honest := by
  intro exhausted
  cases exhausted

theorem Honest.read {source : Source} (honest : source.Honest) (limit : Nat) :
    (source.read limit).2.Honest := by
  simp only [Honest, Source.read, Bool.or_eq_true, decide_eq_true_eq]
  rintro (exhausted | short)
  · rw [honest exhausted, List.drop_nil]
  · exact List.drop_of_length_le (Nat.le_of_lt short)

theorem Honest.unread_of_atEnd {source : Source} (honest : source.Honest)
    (at_end : source.atEnd = true) : source.unread = [] := by
  rw [atEnd] at at_end
  split at at_end
  · exact List.isEmpty_iff.mp at_end
  · exact honest at_end

/-- A piece is of a positive size, so it is empty only if nothing was left. -/
theorem unread_of_piece_eq_nil {source : Source} (empty : (source.read pieceSize).1 = []) :
    source.unread = [] := by
  rcases List.take_eq_nil_iff.mp empty with no_size | nothing_left
  · cases no_size
  · exact nothing_left

theorem Honest.drain_fst {source : Source} (honest : source.Honest) :
    source.drain.1 = source.unread := by
  fun_induction Source.drain source with
  | case1 source at_end => exact (honest.unread_of_atEnd at_end).symm
  | case2 source _ piece left empty => exact (unread_of_piece_eq_nil empty).symm
  | case3 source _ piece left _ rest ih =>
      have rest_eq : rest.1 = source.unread.drop pieceSize := ih (honest.read pieceSize)
      rw [rest_eq]
      exact List.take_append_drop pieceSize source.unread

end Source

end SpanMachine
