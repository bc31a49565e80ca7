import Mathlib.Data.List.Induction
import SpanMachine.Proofs.Storage.Stacks
import SpanMachine.Storage.Queue

/-!
# Histories of the stacks and of the queue

All stacks live in one sorted store, and an access to one of them may create an entry there. Yet
each stack is a list of its own. One access changes at most the content of its own stack, and
what it answers is told by that content and by nothing else. So the replies to the accesses to
some stacks stay the same when the accesses to all others are left out, and the replies of a
single stack are those of the list of values that were pushed onto it and not popped since.

A stack exists as soon as it was pushed onto, popped or looked at. Asking for its content or its
size does not create it. Stack zero behaves as a stack that was never touched.

The queue is a list too: what has left it, followed by what is waiting, is what has come.
-/

namespace SpanMachine

namespace Stacks

/-- What can be asked of one stack. -/
inductive Access where
  | push (value : Fraction)
  | pop
  | top
  | topSign
  | find
  | size
  deriving DecidableEq

/-- What comes back from an access. -/
inductive Reply where
  | done
  | value (answer : Answer Fraction)
  | sign (answer : Answer Int)
  | found (content? : Option (List Fraction))
  | count (number : Nat)
  deriving DecidableEq

/-- The reply to an access to a stack, and the stacks after it. -/
def access (store : Stacks) (index : Nat) : Access → Reply × Stacks
  | .push value => (.done, store.push index value)
  | .pop => (.value (store.pop index).1, (store.pop index).2)
  | .top => (.value (store.top index).1, (store.top index).2)
  | .topSign => (.sign (store.topSign index).1, (store.topSign index).2)
  | .find => (.found (store.get? index), store)
  | .size => (.count (store.size index), store)

/-- The stacks after some accesses, each given with the number of its stack. -/
def after (store : Stacks) (requests : List (Nat × Access)) : Stacks :=
  requests.foldl (fun store request => (store.access request.1 request.2).2) store

/-- The replies to some accesses, each with the number of its stack. -/
def replies (store : Stacks) : List (Nat × Access) → List (Nat × Reply)
  | [] => []
  | (index, access) :: later =>
    (index, (store.access index access).1) :: replies (store.access index access).2 later

/-- The accesses to one stack. -/
def onStack (index : Nat) (requests : List (Nat × Access)) : List Access :=
  (requests.filter fun request => request.1 = index).map Prod.snd

namespace Access

/-- Whether the stack exists from this access on. -/
def creates : Access → Bool
  | push _ | pop | top | topSign => true
  | find | size => false

/-- The values of the stack after the access, top first. -/
def change (values : List Fraction) : Access → List Fraction
  | push value => value :: values
  | pop => values.tail
  | top | topSign | find | size => values

/-- The values that were pushed and not popped since, the last one first. -/
def pending (past : List Access) : List Fraction :=
  past.foldl change []

/-- What can be found of a stack: its values, once an access has created it. -/
def found? (past : List Access) : Option (List Fraction) :=
  if past.any creates then some (pending past) else none

/-- The reply of a single list of values to an access that comes after others. -/
def reply (past : List Access) : Access → Reply
  | push _ => .done
  | pop | top => .value (Fraction.orCurse (pending past).head?)
  | topSign => .sign ((Fraction.orCurse (pending past).head?).map Fraction.sign)
  | find => .found (found? past)
  | size => .count (pending past).length

end Access

/-! ## One access -/

theorem topSign_eq (store : Stacks) (index : Nat) :
    store.topSign index = ((store.top index).1.map Fraction.sign, (store.top index).2) :=
  rfl

/-- There is nothing in the place of stack zero that an access could change. -/
theorem access_zero_snd (store : Stacks) (access : Access) :
    (store.access 0 access).2 = store := by
  cases access with
  | push value => rfl
  | pop => rfl
  | top => rfl
  | topSign => rfl
  | find => rfl
  | size => rfl

theorem get?_access_self {index : Nat} (index_ne_zero : index ≠ 0) (store : Stacks)
    (access : Access) :
    (store.access index access).2.get? index =
      if access.creates then some (access.change (store.content index)) else store.get? index := by
  cases access with
  | push value => exact get?_push_self index_ne_zero store value
  | pop => exact get?_pop_self index_ne_zero store
  | top => exact get?_top_self index_ne_zero store
  | topSign => exact get?_top_self index_ne_zero store
  | find => rfl
  | size => rfl

theorem get?_access_of_ne {index other : Nat} (other_ne_index : other ≠ index) (store : Stacks)
    (access : Access) : (store.access index access).2.get? other = store.get? other := by
  cases access with
  | push value => exact get?_push_of_ne other_ne_index store value
  | pop => exact get?_pop_of_ne other_ne_index store
  | top => exact get?_top_of_ne other_ne_index store
  | topSign => exact get?_top_of_ne other_ne_index store
  | find => rfl
  | size => rfl

/-! ## Independence -/

section Independence

variable {one other : Stacks} {index : Nat}

/-- A reply is told by the stack that was asked. -/
theorem access_fst_congr (same : one.get? index = other.get? index) (access : Access) :
    (one.access index access).1 = (other.access index access).1 := by
  have same_content : one.content index = other.content index := by
    rw [content, same, content]
  cases access with
  | push value => rfl
  | pop => simp only [Stacks.access, pop_eq, peek?, same_content]
  | top => simp only [Stacks.access, top_eq, peek?, same_content]
  | topSign => simp only [Stacks.access, topSign_eq, top_eq, peek?, same_content]
  | find => simp only [Stacks.access, same]
  | size => simp only [Stacks.access, size, same_content]

/-- Where two stores agree on a stack, they do so after the same access to any stack. -/
theorem get?_access_congr (same : one.get? index = other.get? index) (target : Nat)
    (access : Access) :
    (one.access target access).2.get? index = (other.access target access).2.get? index := by
  by_cases here : index = target
  · subst here
    by_cases index_zero : index = 0
    · subst index_zero
      rw [access_zero_snd, access_zero_snd, same]
    · rw [get?_access_self index_zero, get?_access_self index_zero, content, same, content]
  · rw [get?_access_of_ne here, get?_access_of_ne here, same]

/-- The accesses to some stacks do not notice that those to the others are left out. -/
theorem filter_replies (kept : Nat → Bool) (requests : List (Nat × Access))
    (agree : ∀ index, kept index = true → one.get? index = other.get? index) :
    (one.replies requests).filter (fun reply => kept reply.1) =
      other.replies (requests.filter fun request => kept request.1) := by
  induction requests generalizing one other with
  | nil => rfl
  | cons request later ih =>
      rcases request with ⟨target, access⟩
      by_cases target_kept : kept target = true
      · have agree_after : ∀ index, kept index = true →
            (one.access target access).2.get? index =
              (other.access target access).2.get? index := by
          intro index index_kept
          exact get?_access_congr (agree index index_kept) target access
        simp only [replies, List.filter_cons, target_kept, if_true,
          access_fst_congr (agree target target_kept), ih agree_after]
      · have agree_after : ∀ index, kept index = true →
            (one.access target access).2.get? index = other.get? index := by
          intro index index_kept
          have index_ne_target : index ≠ target := by
            rintro rfl
            exact target_kept index_kept
          rw [get?_access_of_ne index_ne_target, agree index index_kept]
        simp only [replies, List.filter_cons, target_kept, ih agree_after]
        rfl

end Independence

/-! ## The list of a single stack -/

theorem after_append (store : Stacks) (past : List (Nat × Access)) (index : Nat)
    (access : Access) :
    store.after (past ++ [(index, access)]) = ((store.after past).access index access).2 := by
  rw [after, List.foldl_append]
  rfl

theorem replies_append (store : Stacks) (past : List (Nat × Access)) (index : Nat)
    (access : Access) :
    store.replies (past ++ [(index, access)]) =
      store.replies past ++ [(index, ((store.after past).access index access).1)] := by
  induction past generalizing store with
  | nil => rfl
  | cons request later ih =>
      simp only [List.cons_append, replies, ih]
      rfl

theorem onStack_append_self (index : Nat) (past : List (Nat × Access)) (access : Access) :
    onStack index (past ++ [(index, access)]) = onStack index past ++ [access] := by
  simp [onStack]

theorem onStack_append_of_ne {index other : Nat} (other_ne_index : other ≠ index)
    (past : List (Nat × Access)) (access : Access) :
    onStack other (past ++ [(index, access)]) = onStack other past := by
  simp [onStack, other_ne_index.symm]

namespace Access

theorem pending_append (past : List Access) (access : Access) :
    pending (past ++ [access]) = access.change (pending past) := by
  rw [pending, List.foldl_append]
  rfl

theorem change_of_not_creates {access : Access} (no_trace : ¬access.creates = true)
    (values : List Fraction) : access.change values = values := by
  cases access with
  | find => rfl
  | size => rfl
  | push | pop | top | topSign => exact absurd rfl no_trace

theorem pending_of_not_created {past : List Access} (never : ¬past.any creates = true) :
    pending past = [] := by
  induction past using List.reverseRecOn with
  | nil => rfl
  | append_singleton past access ih =>
      simp only [List.any_append, List.any_cons, List.any_nil, Bool.or_false, Bool.or_eq_true,
        not_or] at never
      rw [pending_append, change_of_not_creates never.2, ih never.1]

theorem getD_found? (past : List Access) : (found? past).getD [] = pending past := by
  rw [found?]
  split
  · rfl
  · rename_i never
    exact (pending_of_not_created never).symm

theorem found?_append (past : List Access) (access : Access) :
    found? (past ++ [access]) =
      if access.creates then some (access.change (pending past)) else found? past := by
  by_cases creates : access.creates = true
  · simp [found?, pending_append, creates]
  · simp [found?, pending_append, creates, change_of_not_creates creates]

end Access

/-- The stacks after some accesses are those that the accesses to each of them tell. -/
theorem get?_after (past : List (Nat × Access)) (index : Nat) :
    (after {} past).get? index =
      if index = 0 then none else Access.found? (onStack index past) := by
  induction past using List.reverseRecOn with
  | nil => simp [after, get?, onStack, Access.found?]
  | append_singleton past request ih =>
      rcases request with ⟨target, access⟩
      rw [after_append]
      by_cases here : index = target
      · subst here
        by_cases index_zero : index = 0
        · subst index_zero
          rw [access_zero_snd, ih, if_pos rfl, if_pos rfl]
        · rw [if_neg index_zero] at ih ⊢
          rw [get?_access_self index_zero, content, ih, Access.getD_found?, onStack_append_self,
            Access.found?_append]
      · rw [get?_access_of_ne here, ih, onStack_append_of_ne here]

theorem access_fst_of_get? {store : Stacks} {index : Nat} (index_ne_zero : index ≠ 0)
    {past : List Access} (told : store.get? index = Access.found? past) (access : Access) :
    (store.access index access).1 = access.reply past := by
  have same_content : store.content index = Access.pending past := by
    rw [content, told, Access.getD_found?]
  cases access with
  | push value => rfl
  | pop => simp [Stacks.access, Access.reply, pop_eq, peek?, index_ne_zero, same_content]
  | top => simp [Stacks.access, Access.reply, top_eq, peek?, index_ne_zero, same_content]
  | topSign =>
      simp [Stacks.access, Access.reply, topSign_eq, top_eq, peek?, index_ne_zero, same_content]
  | find => simp [Stacks.access, Access.reply, told]
  | size => simp [Stacks.access, Access.reply, size, same_content]

theorem access_zero_fst {store : Stacks} (absent : store.get? 0 = none) (access : Access) :
    (store.access 0 access).1 = access.reply [] := by
  cases access with
  | push value => rfl
  | pop => rfl
  | top => rfl
  | topSign => rfl
  | find => simp [Stacks.access, Access.reply, Access.found?, absent]
  | size => simp [Stacks.access, Access.reply, Access.pending, size, content, absent]

end Stacks

namespace Queue

/-- What can be asked of the queue. -/
inductive Access where
  | enqueue (value : Fraction)
  | dequeue
  deriving DecidableEq

/-- The queue after some accesses. -/
def after (queue : Queue) : List Access → Queue
  | [] => queue
  | .enqueue value :: later => (queue.enqueue value).after later
  | .dequeue :: later => queue.dequeue.2.after later

/-- The answers to the dequeues among some accesses. -/
def answers (queue : Queue) : List Access → List (Answer Fraction)
  | [] => []
  | .enqueue value :: later => (queue.enqueue value).answers later
  | .dequeue :: later => queue.dequeue.1 :: queue.dequeue.2.answers later

/-- The values that were dequeued without a curse. -/
def delivered (queue : Queue) (accesses : List Access) : List Fraction :=
  (queue.answers accesses).filterMap Answer.toOption

/-- The values that were enqueued. -/
def enqueued : List Access → List Fraction
  | [] => []
  | .enqueue value :: later => value :: enqueued later
  | .dequeue :: later => enqueued later

/-- Taking the next value moves it from those that wait to those that have left. -/
theorem toOption_dequeue (queue : Queue) :
    queue.dequeue.1.toOption.toList ++ queue.dequeue.2.items = queue.items := by
  rcases queue with ⟨items⟩
  cases items with
  | nil => rfl
  | cons front rest => rfl

theorem delivered_append_items (queue : Queue) (accesses : List Access) :
    queue.delivered accesses ++ (queue.after accesses).items =
      queue.items ++ enqueued accesses := by
  induction accesses generalizing queue with
  | nil => simp [delivered, answers, after, enqueued]
  | cons access later ih =>
      cases access with
      | enqueue value =>
          have moved := ih (queue.enqueue value)
          simp only [items_enqueue, List.append_assoc, List.singleton_append] at moved
          exact moved
      | dequeue =>
          have moved := ih queue.dequeue.2
          have split_answers : queue.delivered (.dequeue :: later) =
              queue.dequeue.1.toOption.toList ++ queue.dequeue.2.delivered later := by
            simp only [delivered, answers, List.filterMap_cons]
            cases queue.dequeue.1.toOption <;> rfl
          rw [split_answers, after, enqueued, List.append_assoc, moved, ← List.append_assoc,
            toOption_dequeue]

theorem answers_append_dequeue (queue : Queue) (past : List Access) :
    queue.answers (past ++ [.dequeue]) = queue.answers past ++ [(queue.after past).dequeue.1] := by
  induction past generalizing queue with
  | nil => rfl
  | cons access later ih =>
      cases access with
      | enqueue value => exact ih (queue.enqueue value)
      | dequeue =>
          rw [List.cons_append, answers, ih]
          rfl

theorem dequeue_of_items_nil {queue : Queue} (empty : queue.items = []) :
    queue.dequeue.1 = ⟨.zero, true⟩ := by
  simp [dequeue, empty, Fraction.curse]

theorem cursed_dequeue_iff (queue : Queue) :
    queue.dequeue.1.cursed = true ↔ queue.items = [] := by
  rcases queue with ⟨items⟩
  cases items <;> simp [dequeue, Fraction.curse]

end Queue

/--
Leaving out the accesses to some stacks does not change the replies of the others. A stack other
than stack zero replies as the list of the values that were pushed onto it and not popped since,
and it is there exactly if some access has created it. The stacks that are there are listed in
increasing order. Stack zero replies as if it had never been touched, and no access to it leaves
a trace. Values leave the queue in the order in which they came, and a dequeue is cursed exactly
if all that came have left.
-/
theorem stacks_and_queue_are_lists :
    (∀ (requests : List (Nat × Stacks.Access)) (kept : Nat → Bool),
      (Stacks.replies {} requests).filter (fun reply => kept reply.1) =
        Stacks.replies {} (requests.filter fun request => kept request.1)) ∧
    (∀ (past : List (Nat × Stacks.Access)) (index : Nat) (access : Stacks.Access), index ≠ 0 →
      Stacks.replies {} (past ++ [(index, access)]) =
        Stacks.replies {} past ++ [(index, access.reply (Stacks.onStack index past))]) ∧
    (∀ past : List (Nat × Stacks.Access),
      ((Stacks.after {} past).entries.Pairwise fun first second => first.1 < second.1) ∧
      ∀ index values, (index, values) ∈ (Stacks.after {} past).entries ↔
        index ≠ 0 ∧ Stacks.Access.found? (Stacks.onStack index past) = some values) ∧
    (∀ (past : List (Nat × Stacks.Access)) (access : Stacks.Access),
      Stacks.replies {} (past ++ [(0, access)]) =
          Stacks.replies {} past ++ [(0, access.reply [])] ∧
        Stacks.after {} (past ++ [(0, access)]) = Stacks.after {} past) ∧
    (∀ accesses : List Queue.Access,
      Queue.delivered {} accesses ++ (Queue.after {} accesses).items = Queue.enqueued accesses) ∧
    ∀ past : List Queue.Access, ∃ answer : Answer Fraction,
      Queue.answers {} (past ++ [.dequeue]) = Queue.answers {} past ++ [answer] ∧
        (answer.cursed = true ↔
          (Queue.delivered {} past).length = (Queue.enqueued past).length) ∧
        (answer.cursed = true → answer.value = .zero) := by
  refine ⟨?_, ?_, ?_, ?_, ?_, ?_⟩
  · intro requests kept
    exact Stacks.filter_replies kept requests (fun _ _ => rfl)
  · intro past index access index_ne_zero
    have told := Stacks.get?_after past index
    rw [if_neg index_ne_zero] at told
    rw [Stacks.replies_append, Stacks.access_fst_of_get? index_ne_zero told]
  · intro past
    refine ⟨(Stacks.after {} past).increasing, ?_⟩
    intro index values
    rw [Stacks.mem_entries_iff, Stacks.get?_after, Option.ite_none_left_eq_some]
  · intro past access
    have absent : (Stacks.after {} past).get? 0 = none := Stacks.get?_after past 0
    rw [Stacks.replies_append, Stacks.access_zero_fst absent, Stacks.after_append,
      Stacks.access_zero_snd]
    exact ⟨rfl, rfl⟩
  · intro accesses
    exact Queue.delivered_append_items {} accesses
  · intro past
    refine ⟨_, Queue.answers_append_dequeue {} past, ?_, ?_⟩
    · have lengths := congrArg List.length (Queue.delivered_append_items {} past)
      simp only [List.length_append, List.nil_append] at lengths
      rw [Queue.cursed_dequeue_iff, ← List.length_eq_zero_iff]
      omega
    · intro cursed
      rw [Queue.dequeue_of_items_nil ((Queue.cursed_dequeue_iff _).mp cursed)]

/--
Accesses to two distant stacks and to stack zero in turn. The first stack gives back what was
pushed onto it, the other one exists since it was popped, and a queue is emptied once too often.
-/
theorem stacks_and_queue_are_lists_interleaved :
    let half : Fraction := ⟨1, 2⟩
    let past : List (Nat × Stacks.Access) :=
      [(7, .push half), (0xFFFFFFFFFFFFFFFF, .find), (0, .push half), (0xFFFFFFFFFFFFFFFF, .pop),
        (7, .push .zero), (0, .pop), (7, .pop)]
    7 ≠ 0 ∧ 0xFFFFFFFFFFFFFFFF ≠ 0 ∧
      Stacks.replies {} (past ++ [(7, .top)]) =
        Stacks.replies {} past ++ [(7, .value ⟨half, false⟩)] ∧
      Stacks.replies {} (past ++ [(0xFFFFFFFFFFFFFFFF, .find)]) =
        Stacks.replies {} past ++ [(0xFFFFFFFFFFFFFFFF, .found (some []))] ∧
      (7, [half]) ∈ (Stacks.after {} past).entries ∧
      ∃ answer : Answer Fraction,
        Queue.answers {} [.enqueue half, .dequeue, .dequeue] =
          Queue.answers {} [.enqueue half, .dequeue] ++ [answer] ∧ answer.cursed = true := by
  intro half past
  rcases stacks_and_queue_are_lists with ⟨-, replied, listed, -, -, dequeued⟩
  rcases dequeued [.enqueue half, .dequeue] with ⟨answer, answered, cursed_iff, -⟩
  refine ⟨by decide, by decide, replied past 7 .top (by decide),
    replied past 0xFFFFFFFFFFFFFFFF .find (by decide), ?_, answer, answered, cursed_iff.mpr rfl⟩
  exact ((listed past).2 7 [half]).mpr ⟨by decide, by decide⟩

end SpanMachine
