import SpanMachine.Proofs.Listing.Faults
import SpanMachine.Proofs.Listing.Reading

/-!
# Which fault is reported, and where

Reading stops at the first row with a fault, since the draft covers the rows above it and so
these are well formed. Looking up the names stops at the first statement whose label is
missing. It belongs to the first jump in the listing that leads nowhere, as the statements
have the order of their rows.

Every error points at tokens of its line. An error that is found while a line is read has
its tokens at hand. The token of a label that is looked up later was kept in the statement,
and the invariant for it is that it is the last token of the line the statement comes from.
-/

namespace SpanMachine

namespace Listing

end Listing

/-- The line of an error, and the tokens at its two ends. -/
structure ListingError.Points (error : ListingError) (line : Nat) (tokens : List Token)
    (start stop : Nat) : Prop where
  line : error.line = line
  ordered : start ≤ stop
  first : ∃ token, tokens[start]? = some token ∧ error.firstColumn = token.column
  last : ∃ token, tokens[stop]? = some token ∧ error.lastColumn = token.lastColumn

theorem Token.points_error {tokens : List Token} {index : Nat} {token : Token}
    (token_at : tokens[index]? = some token) (line : Nat) (fault : Fault) :
    (token.error line fault).Points line tokens index index :=
  ⟨rfl, Nat.le_refl _, ⟨token, token_at, rfl⟩, ⟨token, token_at, rfl⟩⟩

/-- Tokens further down are counted on from the ones above them. -/
theorem ListingError.Points.of_drop {error : ListingError} {line : Nat} {tokens : List Token}
    {count start stop : Nat} (points : error.Points line (tokens.drop count) start stop) :
    error.Points line tokens (count + start) (count + stop) := by
  rcases points with ⟨same_line, ordered, first, last⟩
  rw [List.getElem?_drop] at first last
  exact ⟨same_line, Nat.add_le_add_left ordered count, first, last⟩

theorem ListingError.Points.marks {error : ListingError} {number start stop : Nat} {line : Bytes}
    (points : error.Points number (Listing.tokens line) start stop) :
    Listing.Marks line start stop error.firstColumn error.lastColumn := by
  rcases points with ⟨-, ordered, ⟨first, first_at, first_eq⟩, ⟨last, last_at, last_eq⟩⟩
  rw [first_eq, last_eq]
  exact Listing.marks_tokens first_at last_at ordered

namespace Statement

open Listing

/-- Operands are read up to the first that is refused. -/
theorem exists_of_foldlM_addOperand_eq_error {statement : Statement} {operands : List Operand}
    {arguments : List Token} {error : ListingError}
    (same_length : arguments.length = operands.length)
    (failed : (operands.zip arguments).foldlM addOperand statement = .error error) :
    ∃ kinds operand rest earlier token later,
      operands = kinds ++ operand :: rest ∧ arguments = earlier ++ token :: later ∧
      List.Forall₂ (Accepts fun _ => True) kinds (earlier.map Token.text) ∧
      ¬Accepts (fun _ => True) operand token.text ∧
      error = token.error statement.line (.malformed operand token.text) := by
  induction operands generalizing arguments statement with
  | nil => cases failed
  | cons operand operands ih =>
      cases arguments with
      | nil => cases same_length
      | cons token arguments =>
          rw [List.zip_cons_cons, List.foldlM_cons] at failed
          by_cases accepted : Accepts (fun _ => True) operand token.text
          · rw [addOperand_of_accepts statement accepted] at failed
            rcases ih (Nat.succ.inj same_length) failed with
              ⟨kinds, refused_operand, rest, earlier, refused_token, later, rfl, rfl,
                earlier_accepted, refused, error_eq⟩
            rw [line_assign] at error_eq
            exact ⟨operand :: kinds, refused_operand, rest, token :: earlier, refused_token, later,
              rfl, rfl, .cons accepted earlier_accepted, refused, error_eq⟩
          · rw [addOperand_of_not_accepts statement accepted] at failed
            cases failed
            exact ⟨[], operand, operands, [], token, arguments, rfl, rfl, .nil, accepted, rfl⟩

/-- The label that a statement refers to is named by its last token. -/
theorem getLast?_of_reference {line : Nat} {head : Token} {arguments : List Token}
    {statement : Statement} {token : Token} (read : ofTokens line head arguments = .ok statement)
    (refers : statement.reference = some token) : arguments.getLast? = some token := by
  rcases exists_of_ofTokens_eq_ok read with ⟨opcode, -, accepted, rfl⟩
  have referred {earlier : Statement} {last : Token} (no_reference : earlier.reference = none)
      (refers : (earlier.assign .target last).reference = some token) : last = token := by
    rw [assign_target] at refers
    split at refers
    · exact Option.some.inj refers
    · exact absurd (no_reference.symm.trans refers) nofun
  rcases opcode.operands_cases with shape | shape | shape | shape | shape
  all_goals rw [shape] at accepted refers
  · cases accepted
    cases refers
  · rcases accepted with _ | ⟨-, ⟨⟩⟩
    simp at refers
  · rcases accepted with _ | ⟨-, ⟨⟩⟩
    exact congrArg some (referred rfl refers)
  · rcases accepted with _ | ⟨-, _ | ⟨-, ⟨⟩⟩⟩
    simp at refers
  · rcases accepted with _ | ⟨-, _ | ⟨-, ⟨⟩⟩⟩
    exact congrArg some (referred (reference_assign_span _ _) refers)

theorem getElem?_length_cons (head : Token) (arguments : List Token) :
    (head :: arguments)[arguments.length]? = some (arguments.getLastD head) := by
  rw [List.getLastD_eq_getLast?, ← List.getLast?_cons, List.getLast?_eq_getElem?]
  rfl

theorem bodyFault_of_ofTokens {line : Nat} {head : Token} {arguments : List Token}
    {error : ListingError} (failed : ofTokens line head arguments = .error error) :
    ∃ start stop, BodyFault (head.text :: arguments.map Token.text) error.fault start stop ∧
      error.Points line (head :: arguments) start stop := by
  cases named : Opcode.ofMnemonic? head.text with
  | none =>
      simp only [ofTokens, named] at failed
      cases failed
      refine ⟨0, 0, .unknownMnemonic ?_ _, Token.points_error rfl line _⟩
      intro opcode same_mnemonic
      rw [Opcode.ofMnemonic?_eq_some_iff.mpr same_mnemonic] at named
      cases named
  | some opcode =>
      have mnemonic := Opcode.ofMnemonic?_eq_some_iff.mp named
      rw [ofTokens_of_mnemonic line mnemonic] at failed
      rw [← mnemonic]
      split at failed
      · rename_i same_length
        rcases exists_of_foldlM_addOperand_eq_error same_length failed with
          ⟨kinds, operand, rest, earlier, token, later, shape, rfl, accepted, refused, rfl⟩
        have complete : (earlier.map Token.text ++ token.text :: later.map Token.text).length =
            opcode.operands.length := by
          rw [← same_length]
          simp
        have token_at : (head :: (earlier ++ token :: later))[earlier.length + 1]? =
            some token := by
          simp
        have faulty := BodyFault.malformed complete shape accepted refused
        rw [List.length_map] at faulty
        rw [List.map_append, List.map_cons]
        exact ⟨_, _, faulty, Token.points_error token_at line _⟩
      · rename_i other_length
        cases failed
        have differs : (arguments.map Token.text).length ≠ opcode.operands.length := by
          rw [List.length_map]
          exact other_length
        have faulty := BodyFault.operandCount differs
        rw [List.length_map] at faulty
        refine ⟨0, arguments.length, faulty, rfl, Nat.zero_le _, ⟨head, rfl, rfl⟩, ?_⟩
        exact ⟨_, getElem?_length_cons head arguments, rfl⟩

end Statement

namespace Draft

open Listing

theorem bodyTokens_eq_drop (tokens : List Token) :
    bodyTokens tokens = tokens.drop (bodyStart (tokens.map Token.text)) := by
  cases tokens with
  | nil => rfl
  | cons head rest =>
      simp only [bodyTokens, bodyStart, List.map_cons, nameOf]
      split <;> rfl

theorem bodyFault_of_addStatement {draft : Draft} {line : Nat} {tokens : List Token}
    {error : ListingError} (failed : draft.addStatement line (bodyTokens tokens) = .error error) :
    ∃ start stop, BodyFault (bodyOf (tokens.map Token.text)) error.fault start stop ∧
      error.Points line tokens (bodyStart (tokens.map Token.text) + start)
        (bodyStart (tokens.map Token.text) + stop) := by
  rw [← map_text_bodyTokens]
  cases body : bodyTokens tokens with
  | nil =>
      rw [body] at failed
      cases failed
  | cons head arguments =>
      rw [body, addStatement, bind_eq_error_iff] at failed
      rcases failed with failed | ⟨statement, -, returned⟩
      · rcases Statement.bodyFault_of_ofTokens failed with ⟨start, stop, faulty, points⟩
        refine ⟨start, stop, faulty, ?_⟩
        rw [← body, bodyTokens_eq_drop] at points
        exact points.of_drop
      · cases returned

theorem addLabel_eq_error {draft : Draft} {line : Nat} {token : Token} {error : ListingError}
    (failed : draft.addLabel line token = .error error) :
    (isLabelName token.text.dropLast = false ∧
        error = token.error line (.invalidLabel token.text.dropLast)) ∨
      (isLabelName token.text.dropLast = true ∧
        token.text.dropLast ∈ draft.labels.map Label.name ∧
        error = token.error line (.duplicateLabel token.text.dropLast)) := by
  simp only [addLabel, Bool.not_eq_true'] at failed
  split at failed
  · rename_i not_name
    cases failed
    exact Or.inl ⟨not_name, rfl⟩
  · rename_i is_name
    rw [Bool.not_eq_false] at is_name
    split at failed
    · rename_i defined
      cases failed
      exact Or.inr ⟨is_name, by simpa using defined, rfl⟩
    · cases failed

/-- A line is given up at its label, or else at its body. -/
theorem addLine_eq_error {draft : Draft} {line : Nat} {tokens : List Token}
    {error : ListingError} (failed : draft.addLine line tokens = .error error) :
    (∃ head, tokens[0]? = some head ∧ nameOf (tokens.map Token.text) = some head.text.dropLast ∧
        draft.addLabel line head = .error error) ∨
      ((∀ name, nameOf (tokens.map Token.text) = some name →
          isLabelName name = true ∧ name ∉ draft.labels.map Label.name) ∧
        ∃ other : Draft, other.addStatement line (bodyTokens tokens) = .error error) := by
  cases tokens with
  | nil => cases failed
  | cons head rest =>
      simp only [addLine] at failed
      simp only [List.map_cons, nameOf, bodyTokens]
      split at failed
      · rename_i labelled
        rw [bind_eq_error_iff] at failed
        rw [if_pos labelled, if_pos labelled]
        rcases failed with failed | ⟨next, added, failed⟩
        · exact Or.inl ⟨head, rfl, rfl, failed⟩
        · right
          refine ⟨?_, next, failed⟩
          rintro _ ⟨⟩
          rcases addLabel_eq_ok_iff.mp added with ⟨is_name, fresh, -⟩
          exact ⟨is_name, fresh⟩
      · rename_i unlabelled
        rw [if_neg unlabelled, if_neg unlabelled]
        right
        refine ⟨?_, draft, failed⟩
        intro name named
        cases named

theorem Covers.rowFault_of_addLine {rows : List (List Bytes)} {draft : Draft} {line : Nat}
    {tokens : List Token} {error : ListingError} (covers : Covers rows draft)
    (failed : draft.addLine line tokens = .error error) :
    ∃ start stop, RowFault (names rows) (tokens.map Token.text) error.fault start stop ∧
      error.Points line tokens start stop := by
  have labels_eq := covers.outlines.label_names
  rcases addLine_eq_error failed with ⟨head, head_at, named, failed⟩ | ⟨label_formed, _, failed⟩
  · rcases addLabel_eq_error failed with ⟨invalid, rfl⟩ | ⟨valid, twice, rfl⟩
    · exact ⟨0, 0, .invalidLabel named invalid, Token.points_error head_at line _⟩
    · rw [labels_eq] at twice
      exact ⟨0, 0, .duplicateLabel named valid twice, Token.points_error head_at line _⟩
  · rw [labels_eq] at label_formed
    rcases bodyFault_of_addStatement failed with ⟨start, stop, faulty, points⟩
    exact ⟨_, _, .body label_formed faulty, points⟩

theorem Covers.isFormed {rows : List (List Bytes)} {draft : Draft} (covers : Covers rows draft) :
    IsFormed (fun _ => True) rows := by
  refine ⟨?_, covers.names_formed, covers.names_distinct⟩
  intro entry entry_mem
  rcases exists_mem_right covers.outlines.items entry_mem with ⟨statement, -, spells⟩
  exact spells.isFormed_iff.mpr fun _ _ => trivial

/-- Reading stops at the first faulty row. -/
theorem Covers.rowFault_of_addLines {rows : List (List Bytes)} {draft : Draft}
    {texts : List Bytes} {error : ListingError} (covers : Covers rows draft)
    (failed : draft.addLines rows.length texts = .error error) :
    ∃ above text below start stop, texts = above ++ text :: below ∧
      IsFormed (fun _ => True) (rows ++ above.map words) ∧
      RowFault (names (rows ++ above.map words)) (words text) error.fault start stop ∧
      error.Points (rows.length + above.length) (tokens text) start stop := by
  induction texts generalizing rows draft with
  | nil => cases failed
  | cons text texts ih =>
      rw [Draft.addLines, bind_eq_error_iff] at failed
      rcases failed with failed | ⟨next, added, failed⟩
      · rcases covers.rowFault_of_addLine failed with ⟨start, stop, faulty, points⟩
        rw [map_text_tokens] at faulty
        refine ⟨[], text, texts, start, stop, rfl, ?_, ?_, points⟩
        · simpa using covers.isFormed
        · simpa using faulty
      · have covers_next := covers.addLine added
        rw [map_text_tokens] at covers_next
        rcases ih covers_next (by simpa using failed) with
          ⟨above, other, below, start, stop, rfl, formed, faulty, points⟩
        rw [List.append_assoc] at formed faulty
        refine ⟨text :: above, other, below, start, stop, rfl, formed, faulty, ?_⟩
        simpa [Nat.add_comm, Nat.add_left_comm] using points

/-- What refers to a label is the last token of its line. -/
def Anchored (texts : List Bytes) (draft : Draft) : Prop :=
  ∀ statement ∈ draft.statements, ∀ token, statement.reference = some token →
    ∃ text, texts[statement.line]? = some text ∧ (tokens text).getLast? = some token

theorem Anchored.addLine {texts : List Bytes} {draft result : Draft} {text : Bytes}
    (anchored : Anchored texts draft)
    (added : draft.addLine texts.length (tokens text) = .ok result) :
    Anchored (texts ++ [text]) result := by
  have keeps : ∀ statement ∈ draft.statements, ∀ token, statement.reference = some token →
      ∃ line, (texts ++ [text])[statement.line]? = some line ∧
        (tokens line).getLast? = some token := by
    intro statement statement_mem token refers
    rcases anchored statement statement_mem token refers with ⟨line, line_at, last⟩
    refine ⟨line, ?_, last⟩
    rw [List.getElem?_append_left (List.getElem?_eq_some_iff.mp line_at).1]
    exact line_at
  have stated := (addLine_eq_ok_iff.mp added).2
  cases body : bodyTokens (tokens text) with
  | nil =>
      rw [body] at stated
      cases stated
      exact keeps
  | cons head arguments =>
      rw [body, addStatement, bind_eq_ok_iff] at stated
      rcases stated with ⟨statement, read, returned⟩
      cases returned
      intro other other_mem token refers
      rcases List.mem_append.mp other_mem with other_mem | other_mem
      · exact keeps other other_mem token refers
      · rw [List.mem_singleton] at other_mem
        subst other_mem
        have last := Statement.getLast?_of_reference read refers
        refine ⟨text, ?_, ?_⟩
        · rw [(Statement.spells_of_ofTokens read).line]
          simp
        · have body_last : (bodyTokens (tokens text)).getLast? = some token := by
            rw [body, List.getLast?_cons, last]
            rfl
          rw [bodyTokens_eq_drop, List.getLast?_drop] at body_last
          split at body_last
          · cases body_last
          · exact body_last

theorem Anchored.addLines {texts more : List Bytes} {draft result : Draft}
    (anchored : Anchored texts draft) (added : draft.addLines texts.length more = .ok result) :
    Anchored (texts ++ more) result := by
  induction more generalizing texts draft with
  | nil =>
      cases added
      simpa using anchored
  | cons text more ih =>
      rw [Draft.addLines, bind_eq_ok_iff] at added
      rcases added with ⟨next, first, rest⟩
      have anchored_rest := ih (anchored.addLine first) (by simpa using rest)
      simpa using anchored_rest

theorem faultAt_of_addLines {texts : List Bytes} {error : ListingError}
    (failed : Draft.addLines {} 0 texts = .error error) :
    ∃ text start stop, texts[error.line]? = some text ∧
      FaultAt (texts.map words) error.line error.fault start stop ∧
      (∀ above < error.line, ∀ fault start stop,
        ¬FaultAt (texts.map words) above fault start stop) ∧
      error.Points error.line (tokens text) start stop := by
  rcases covers_nil.rowFault_of_addLines failed with
    ⟨above, text, below, start, stop, rfl, formed, faulty, points⟩
  rw [List.length_nil, Nat.zero_add] at points
  rw [List.nil_append] at formed faulty
  rw [points.line]
  have rows_above : ((above ++ text :: below).map words).take above.length = above.map words := by
    rw [List.map_append, List.take_left' (List.length_map _)]
  refine ⟨text, start, stop, by simp, ⟨words text, by simp, ?_⟩, ?_, points⟩
  · rw [rows_above]
    exact faulty
  · intro index is_above fault start stop faulty
    have faulty_above := faulty.take is_above
    rw [rows_above] at faulty_above
    exact formed.not_faultAt _ _ _ _ faulty_above

end Draft

namespace Listing

/-- A listing without faulty rows is well formed but for the names that its jumps lead to. -/
theorem isFormed_iff_not_faultAt (texts : List Bytes) :
    IsFormed (fun _ => True) (texts.map words) ↔
      ∀ index fault start stop, ¬FaultAt (texts.map words) index fault start stop := by
  constructor
  · intro formed
    exact formed.not_faultAt
  · intro no_faults
    cases added : Draft.addLines {} 0 texts with
    | ok draft => exact (Draft.covers_nil.addLines added).isFormed
    | error error =>
        rcases Draft.faultAt_of_addLines added with ⟨-, start, stop, -, faulty, -⟩
        exact absurd faulty (no_faults _ _ _ _)

end Listing

namespace Program

open Listing

end Program

end SpanMachine
