import SpanMachine.Proofs.Bytes.Source

/-!
# What sources deliver

A text in memory is at its end as soon as nothing is left, while a stream has to be asked for
more than it has. Draining therefore makes different reads on the two: a stream whose rest fills
its last piece needs one more read, which comes back empty. Yet what a read hands out is told by
the bytes that are left, and so is what draining hands out, as long as a source that believes to
be at its end has nothing left. Both kinds of sources are of this sort from the start on.

The same requests to a text in memory and to a stream with this content are therefore answered
with the same bytes. These are the content in order, as far as it was asked for.
-/

namespace SpanMachine

namespace Source

/-- What can be asked of a source. -/
inductive Request where
  | read (limit : Nat)
  | drain

/-- The bytes that a source hands out when asked, and the source afterwards. -/
def deliver (source : Source) : Request → Bytes × Source
  | .read limit => source.read limit
  | .drain => source.drain

/-- What is handed out for each of some requests. -/
def results (source : Source) : List Request → List Bytes
  | [] => []
  | request :: later => (source.deliver request).1 :: (source.deliver request).2.results later

/-- The source after some requests. -/
def after (source : Source) : List Request → Source
  | [] => source
  | request :: later => (source.deliver request).2.after later

/-- Draining with a limited number of rounds. There is no result if the rounds do not suffice. -/
def drainWithin (source : Source) : Nat → Option (Bytes × Source)
  | 0 => none
  | rounds + 1 =>
    if source.atEnd then
      some ([], source)
    else
      let piece := (source.read pieceSize).1
      let left := (source.read pieceSize).2
      if piece = [] then
        some ([], left)
      else
        (left.drainWithin rounds).map fun rest => (piece ++ rest.1, rest.2)

/-- How many of the bytes that are left a request takes. -/
def Request.amount (left : Nat) : Request → Nat
  | read limit => limit
  | drain => left

/-- What some requests take off a text, one after another. -/
def portions (text : Bytes) : List Request → List Bytes
  | [] => []
  | request :: later =>
    text.take (request.amount text.length) ::
      portions (text.drop (request.amount text.length)) later

/-! ## Draining -/

theorem honest_ofText (text path : Bytes) : (ofText text path).Honest := by
  intro exhausted
  cases exhausted

/-- A source that was asked for a piece and had nothing left is at its end. -/
theorem atEnd_read {source : Source} (nothing_left : source.unread = []) :
    (source.read pieceSize).2.atEnd = true := by
  rw [atEnd]
  split
  · simp [read, nothing_left]
  · simp [read, nothing_left, pieceSize]

theorem atEnd_drain (source : Source) : source.drain.2.atEnd = true := by
  fun_induction Source.drain source with
  | case1 source at_end => exact at_end
  | case2 source _ piece left empty => exact atEnd_read (unread_of_piece_eq_nil empty)
  | case3 source _ piece left _ rest ih => exact ih

theorem Honest.drain_snd {source : Source} (honest : source.Honest) : source.drain.2.Honest := by
  fun_induction Source.drain source with
  | case1 source at_end => exact honest
  | case2 source _ piece left empty => exact honest.read pieceSize
  | case3 source _ piece left _ rest ih => exact ih (honest.read pieceSize)

theorem Honest.unread_drain {source : Source} (honest : source.Honest) :
    source.drain.2.unread = [] :=
  honest.drain_snd.unread_of_atEnd (atEnd_drain source)

/-- Draining ends: after the rounds that cover what is left, one more finds the end. -/
theorem drainWithin_eq (source : Source) (rounds : Nat)
    (enough : source.unread.length ≤ rounds * pieceSize) :
    source.drainWithin (rounds + 1) = some source.drain := by
  fun_induction Source.drain source generalizing rounds with
  | case1 source at_end => simp only [drainWithin, at_end, if_true]
  | case2 source not_at_end piece left empty =>
      simp only [drainWithin, not_at_end]
      exact if_pos empty
  | case3 source not_at_end piece left not_empty rest ih =>
      cases rounds with
      | zero =>
          have nothing_left : source.unread = [] := by
            apply List.length_eq_zero_iff.mp
            omega
          exact absurd (List.take_eq_nil_iff.mpr (.inr nothing_left)) not_empty
      | succ rounds =>
          have fewer : left.unread.length ≤ rounds * pieceSize := by
            have dropped : left.unread.length = source.unread.length - pieceSize :=
              List.length_drop
            rw [dropped]
            rw [Nat.succ_mul] at enough
            omega
          rw [drainWithin]
          simp only [not_at_end]
          exact (if_neg not_empty).trans (congrArg _ (ih rounds fewer))

/-! ## Any requests -/

theorem Honest.deliver {source : Source} (honest : source.Honest) (request : Request) :
    (source.deliver request).2.Honest ∧
      (source.deliver request).1 = source.unread.take (request.amount source.unread.length) ∧
      (source.deliver request).2.unread =
        source.unread.drop (request.amount source.unread.length) := by
  cases request with
  | read limit => exact ⟨honest.read limit, rfl, rfl⟩
  | drain =>
      refine ⟨honest.drain_snd, ?_, ?_⟩
      · exact honest.drain_fst.trans List.take_length.symm
      · exact honest.unread_drain.trans List.drop_length.symm

theorem Honest.results_eq {source : Source} (honest : source.Honest) (requests : List Request) :
    source.results requests = portions source.unread requests := by
  induction requests generalizing source with
  | nil => rfl
  | cons request later ih =>
      rcases honest.deliver request with ⟨still_honest, handed_out, left⟩
      rw [results, portions, handed_out, ih still_honest, left]

theorem Honest.after {source : Source} (honest : source.Honest) (requests : List Request) :
    (source.after requests).Honest := by
  induction requests generalizing source with
  | nil => exact honest
  | cons request later ih => exact ih (honest.deliver request).1

/-- Nothing is lost, repeated or exchanged. -/
theorem Honest.flatten_results_append {source : Source} (honest : source.Honest)
    (requests : List Request) :
    (source.results requests).flatten ++ (source.after requests).unread = source.unread := by
  induction requests generalizing source with
  | nil => rfl
  | cons request later ih =>
      rcases honest.deliver request with ⟨still_honest, handed_out, left⟩
      rw [results, Source.after, List.flatten_cons, List.append_assoc, ih still_honest, handed_out,
        left, List.take_append_drop]

theorem after_append (source : Source) (first second : List Request) :
    source.after (first ++ second) = (source.after first).after second := by
  induction first generalizing source with
  | nil => rfl
  | cons request later ih => exact ih (source.deliver request).2

/--
A text in memory and a stream with the same content hand out the same bytes for the same
requests: the content in order, each read as much of it as was asked for or as there is left. On
either of them draining hands out exactly the bytes that are left, ends after a round for each
piece and one more, and leaves the source at its end. A source that is at its end has handed out
everything.
-/
theorem sources_deliver_alike (content textPath streamPath : Bytes) (requests : List Request) :
    (ofText content textPath).results requests = (ofStream content streamPath).results requests ∧
    ((ofText content textPath).results requests).flatten <+: content ∧
    ∀ source ∈ [ofText content textPath, ofStream content streamPath],
      source.results requests = portions content requests ∧
      (source.results requests).flatten ++ (source.after requests).drain.1 = content ∧
      (∀ rounds, (source.after requests).unread.length ≤ rounds * pieceSize →
        (source.after requests).drainWithin (rounds + 1) = some (source.after requests).drain) ∧
      (source.after (requests ++ [.drain])).atEnd = true ∧
      ((source.after requests).atEnd = true → (source.results requests).flatten = content) := by
  have memory_honest := honest_ofText content textPath
  have stream_honest := honest_ofStream content streamPath
  refine ⟨?_, ?_, ?_⟩
  · rw [memory_honest.results_eq, stream_honest.results_eq]
    rfl
  · exact ⟨_, memory_honest.flatten_results_append requests⟩
  · intro source source_mem
    have honest_and_full : source.Honest ∧ source.unread = content := by
      simp only [List.mem_cons, List.not_mem_nil, or_false] at source_mem
      rcases source_mem with rfl | rfl
      · exact ⟨memory_honest, rfl⟩
      · exact ⟨stream_honest, rfl⟩
    rcases honest_and_full with ⟨honest, full⟩
    have complete := honest.flatten_results_append requests
    rw [full] at complete
    refine ⟨?_, ?_, (source.after requests).drainWithin_eq, ?_, ?_⟩
    · rw [honest.results_eq, full]
    · rw [(honest.after requests).drain_fst, complete]
    · rw [after_append]
      exact atEnd_drain (source.after requests)
    · intro at_end
      rwa [(honest.after requests).unread_of_atEnd at_end, List.append_nil] at complete

/--
Two bytes that are read without asking for more: the text in memory is at its end, the stream
does not know it yet, and both have nothing to hand out when they are drained.
-/
theorem sources_deliver_alike_exact_fit :
    let memory := ofText [0x68, 0x69] memoryPath
    let stream := ofStream [0x68, 0x69] memoryPath
    let requests : List Request := [.read 0, .read 2]
    memory ∈ [memory, stream] ∧ stream ∈ [memory, stream] ∧
      (memory.after requests).atEnd = true ∧ (stream.after requests).atEnd = false ∧
      (memory.results requests).flatten = [0x68, 0x69] ∧
      (stream.results requests).flatten ++ (stream.after requests).drain.1 = [0x68, 0x69] ∧
      (stream.after requests).drainWithin 1 = some (stream.after requests).drain ∧
      (stream.after (requests ++ [.drain])).atEnd = true := by
  intro memory stream requests
  rcases sources_deliver_alike [0x68, 0x69] memoryPath memoryPath requests with ⟨-, -, delivered⟩
  have memory_mem : memory ∈ [memory, stream] := List.mem_cons_self
  have stream_mem : stream ∈ [memory, stream] := List.mem_cons_of_mem _ List.mem_cons_self
  have at_end : (memory.after requests).atEnd = true := by
    decide
  have not_at_end : (stream.after requests).atEnd = false := by
    decide
  rcases delivered memory memory_mem with ⟨-, -, -, -, all_of_memory⟩
  rcases delivered stream stream_mem with ⟨-, rest_of_stream, ends, at_end_then, -⟩
  exact ⟨memory_mem, stream_mem, at_end, not_at_end, all_of_memory at_end, rest_of_stream,
    ends 0 (by decide), at_end_then⟩

end Source

end SpanMachine
