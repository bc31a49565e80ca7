import Mathlib.Data.List.Induction
import SpanMachine.Command.Settings
import SpanMachine.Proofs.Listing.Statements

/-!
# Where the operands stand

The arguments of a command line are units and operands. A unit is a dash with letters behind it,
together with the argument after it if the last letter takes its value from there. What a unit
asks for is a list of requests, and reading it means to carry these out one after the other,
until one of them fails. An operand is kept for later and changes no setting. So the outcome
depends on the requests and on the operands, but not on how units and operands are mixed.

The settings after requests that do not fail can be told from the list of requests: how often a
flag occurs, and which value was given last. This is the invariant of carrying them out.
-/

namespace SpanMachine

namespace Choice

/-- No two options share a letter. -/
theorem ofLetter?_letter (choice : Choice) : ofLetter? choice.letter = some choice := by
  rcases choice with flag | parameter
  · cases flag <;> rfl
  · cases parameter <;> rfl

theorem ofLetter?_eq_none {letter : UInt8} (no_option : ∀ choice : Choice, choice.letter ≠ letter) :
    ofLetter? letter = none := by
  apply List.find?_eq_none.mpr
  intro choice _
  simpa using no_option choice

end Choice

/-- One thing that an argument asks for. -/
inductive Request where
  | flag (chosen : Flag)
  | value (parameter : Parameter) (given : Bytes)
  /-- A letter that stands for no option. -/
  | unknown (letter : UInt8)
  deriving DecidableEq

namespace Request

/-- What is wrong with a request. -/
inductive Fails : Request → ArgumentFault → Prop where
  | unknownLetter (letter : UInt8) : Fails (.unknown letter) (.unknownLetter letter)
  | invalidStepLimit {given : Bytes} (not_word : ¬Listing.IsWord given) :
      Fails (.value .stepLimit given) (.invalidStepLimit given)
  | unknownBackend {given : Bytes} (no_range : ∀ range : Range, range.name ≠ given) :
      Fails (.value .backend given) (.unknownBackend given)

/-- None of the requests fails. -/
def Faultless (requests : List Request) : Prop :=
  ∀ request ∈ requests, ∀ fault, ¬request.Fails fault

/-- The value that a request gives to a parameter. -/
def valueOf? (parameter : Parameter) : Request → Option Bytes
  | .value other given => if other = parameter then some given else none
  | .flag _ | .unknown _ => none

/-- The value that a parameter was given last. -/
def lastValue? (parameter : Parameter) (requests : List Request) : Option Bytes :=
  (requests.filterMap (valueOf? parameter)).getLast?

theorem lastValue?_append (parameter : Parameter) (requests : List Request) (request : Request) :
    lastValue? parameter (requests ++ [request]) =
      (request.valueOf? parameter).or (lastValue? parameter requests) := by
  rw [lastValue?, List.filterMap_append, List.getLast?_append, lastValue?]
  cases given : request.valueOf? parameter <;> simp [given]

end Request

/--
The letters behind a dash, the argument after them if it is the value of the last letter, and
what they ask for. A letter that is no option hides the letters behind it.
-/
inductive Cluster : Bytes → Option Bytes → List Request → Prop where
  | nil : Cluster [] none []
  | flag (chosen : Flag) {letters : Bytes} {next : Option Bytes} {requests : List Request}
      (rest : Cluster letters next requests) :
      Cluster (chosen.letter :: letters) next (.flag chosen :: requests)
  | attached (parameter : Parameter) {given : Bytes} (nonempty : given ≠ []) :
      Cluster (parameter.letter :: given) none [.value parameter given]
  | detached (parameter : Parameter) (given : Bytes) :
      Cluster [parameter.letter] (some given) [.value parameter given]
  | unknown {letter : UInt8} (no_option : ∀ choice : Choice, choice.letter ≠ letter)
      (hidden : Bytes) : Cluster (letter :: hidden) none [.unknown letter]

/-- Any letters can stand behind a dash, but some of them need a value after them. -/
theorem Cluster.exists_requests (letters : Bytes) :
    (∃ requests, Cluster letters none requests) ∨
      ∀ value, ∃ requests, Cluster letters (some value) requests := by
  induction letters with
  | nil => exact Or.inl ⟨[], .nil⟩
  | cons letter rest ih =>
      by_cases known : ∃ choice : Choice, choice.letter = letter
      · rcases known with ⟨chosen | parameter, rfl⟩
        · rcases ih with ⟨requests, cluster⟩ | waits
          · exact Or.inl ⟨_, cluster.flag chosen⟩
          · right
            intro value
            rcases waits value with ⟨requests, cluster⟩
            exact ⟨_, cluster.flag chosen⟩
        · by_cases empty : rest = []
          · right
            intro value
            rw [empty]
            exact ⟨_, .detached parameter value⟩
          · exact Or.inl ⟨_, .attached parameter empty⟩
      · exact Or.inl ⟨_, .unknown (not_exists.mp known) rest⟩

/-- An argument that holds options, with the argument after it if that belongs to it. -/
structure OptionUnit where
  letters : Bytes
  next : Option Bytes
  requests : List Request
  cluster : Cluster letters next requests
  nonempty : letters ≠ []
  not_last : Byte.minus :: letters ≠ Settings.lastOption

namespace OptionUnit

/-- The arguments that make up a unit. -/
def arguments (unit : OptionUnit) : List Bytes :=
  (Byte.minus :: unit.letters) :: unit.next.toList

theorem exists_unit {letters : Bytes} (nonempty : letters ≠ [])
    (not_last : Byte.minus :: letters ≠ Settings.lastOption) :
    (∃ unit : OptionUnit, unit.arguments = [Byte.minus :: letters]) ∨
      ∀ value, ∃ unit : OptionUnit, unit.arguments = [Byte.minus :: letters, value] := by
  rcases Cluster.exists_requests letters with ⟨requests, cluster⟩ | waits
  · exact Or.inl ⟨⟨letters, none, requests, cluster, nonempty, not_last⟩, rfl⟩
  · right
    intro value
    rcases waits value with ⟨requests, cluster⟩
    exact ⟨⟨letters, some value, requests, cluster, nonempty, not_last⟩, rfl⟩

end OptionUnit

/-- An argument that does not begin with a dash, or is nothing else. -/
def IsOperand (argument : Bytes) : Prop :=
  argument.head? ≠ some Byte.minus ∨ argument = [Byte.minus]

/-- Units and operands mixed in some way that keeps the order of both. -/
inductive Mixed : List OptionUnit → List Bytes → List Bytes → Prop where
  | nil : Mixed [] [] []
  | unit (unit : OptionUnit) {units : List OptionUnit} {operands arguments : List Bytes}
      (rest : Mixed units operands arguments) :
      Mixed (unit :: units) operands (unit.arguments ++ arguments)
  | operand {operand : Bytes} (is_operand : IsOperand operand) {units : List OptionUnit}
      {operands arguments : List Bytes} (rest : Mixed units operands arguments) :
      Mixed units (operand :: operands) (operand :: arguments)

namespace Settings

/-- Carries out one request. -/
def apply (settings : Settings) : Request → Except Refusal Settings
  | .flag chosen => .ok (settings.enable chosen)
  | .value parameter given => settings.assign given parameter
  | .unknown letter => .error ⟨settings, .unknownLetter letter⟩

theorem readLetters_flag (settings : Settings) (chosen : Flag) (letters : Bytes) :
    settings.readLetters (chosen.letter :: letters) =
      (settings.enable chosen).readLetters letters := by
  have found : Choice.ofLetter? chosen.letter = some (.flag chosen) :=
    Choice.ofLetter?_letter (.flag chosen)
  simp only [readLetters, found]

theorem readLetters_parameter (settings : Settings) (parameter : Parameter) (given : Bytes) :
    settings.readLetters (parameter.letter :: given) =
      if given.isEmpty then .ok (settings, some parameter)
      else settings.assign given parameter >>= fun settings => .ok (settings, none) := by
  have found : Choice.ofLetter? parameter.letter = some (.parameter parameter) :=
    Choice.ofLetter?_letter (.parameter parameter)
  simp only [readLetters, found]
  rfl

/-- Letters, and the value of the last one if it follows, are read by carrying out requests. -/
theorem readLetters_bind {letters : Bytes} {next : Option Bytes} {requests : List Request}
    (cluster : Cluster letters next requests) (settings : Settings) (rest : List Bytes) :
    (settings.readLetters letters >>= fun read =>
      read.1.readArguments read.2 (next.toList ++ rest)) =
        requests.foldlM apply settings >>= fun settings => settings.readArguments none rest := by
  induction cluster generalizing settings with
  | nil => rfl
  | flag chosen _ ih =>
      -- The other letters are read with the settings that the flag has changed.
      rw [readLetters_flag, ih]
      rfl
  | @attached parameter given nonempty =>
      have not_empty : ¬given.isEmpty = true := by
        simpa using nonempty
      rw [readLetters_parameter, if_neg not_empty]
      cases assigned : settings.assign given parameter <;>
        simp [apply, assigned, bind, Except.bind, pure, Except.pure]
  | detached parameter given =>
      have waits : settings.readLetters [parameter.letter] = .ok (settings, some parameter) :=
        settings.readLetters_parameter parameter []
      rw [waits]
      cases assigned : settings.assign given parameter <;>
        simp [apply, readArguments, assigned, bind, Except.bind, pure, Except.pure]
  | unknown no_option hidden =>
      simp [readLetters, Choice.ofLetter?_eq_none no_option, apply, bind, Except.bind]

theorem readArguments_unit (settings : Settings) (unit : OptionUnit) (rest : List Bytes) :
    settings.readArguments none (unit.arguments ++ rest) =
      unit.requests.foldlM apply settings >>= fun settings => settings.readArguments none rest := by
  have letters_eq : letters? (Byte.minus :: unit.letters) = some unit.letters := by
    rcases List.exists_cons_of_ne_nil unit.nonempty with ⟨letter, letters, nonempty⟩
    rw [nonempty]
    rfl
  rw [← readLetters_bind unit.cluster, OptionUnit.arguments, List.cons_append, readArguments,
    if_neg unit.not_last, letters_eq]

theorem readArguments_operand (settings : Settings) {operand : Bytes}
    (is_operand : IsOperand operand) (rest : List Bytes) :
    settings.readArguments none (operand :: rest) =
      settings.readArguments none rest >>= fun read => .ok (read.1, operand :: read.2) := by
  have not_last : operand ≠ lastOption := by
    rintro rfl
    rcases is_operand with no_dash | single
    · exact no_dash rfl
    · cases single
  have no_letters : letters? operand = none := by
    rcases is_operand with no_dash | rfl
    · rcases operand with _ | ⟨first, _ | ⟨second, others⟩⟩
      · rfl
      · rfl
      · have not_minus : first ≠ Byte.minus := by
          simpa using no_dash
        exact if_neg not_minus
    · rfl
  rw [readArguments, if_neg not_last, no_letters]
  rfl

/-- Mixed arguments are read by carrying out the requests of the units; the operands remain. -/
theorem readArguments_mixed {units : List OptionUnit} {operands arguments : List Bytes}
    (mixed : Mixed units operands arguments) (settings : Settings) :
    settings.readArguments none arguments =
      (units.flatMap OptionUnit.requests).foldlM apply settings >>= fun settings =>
        .ok (settings, operands) := by
  induction mixed generalizing settings with
  | nil => rfl
  | unit unit rest ih =>
      rw [readArguments_unit, List.flatMap_cons, List.foldlM_append, bind_assoc]
      simp only [ih]
  | operand is_operand rest ih =>
      rw [readArguments_operand settings is_operand, ih, bind_assoc]
      rfl

/-- What settings are after requests that do not fail. -/
structure Follows (requests : List Request) (settings : Settings) : Prop where
  verbosity : settings.verbosity = requests.count (.flag .verbose)
  disassemble : settings.disassemble = true ↔ .flag .disassemble ∈ requests
  interpret : settings.interpret = true ↔ .flag .interpret ∈ requests
  trace : settings.trace = true ↔ .flag .trace ∈ requests
  output : settings.output = Request.lastValue? .output requests
  stepLimit : settings.stepLimit.toNat =
    (Request.lastValue? .stepLimit requests).elim 0 Decimal.value
  range : settings.range.name = (Request.lastValue? .backend requests).getD (ascii "bounded")

theorem follows_nil : Follows [] {} := by
  constructor <;> simp [Request.lastValue?, Range.name]

theorem apply_of_fails {request : Request} {fault : ArgumentFault} (fails : request.Fails fault)
    (settings : Settings) : settings.apply request = .error ⟨settings, fault⟩ := by
  cases fails with
  | unknownLetter letter => rfl
  | invalidStepLimit not_word =>
      simp only [apply, assign, Decimal.readWord?_of_not_isWord not_word]
  | @unknownBackend given no_range =>
      have no_name : Range.ofName? given = none := by
        apply List.find?_eq_none.mpr
        intro range _
        simpa using no_range range
      simp only [apply, assign, no_name]

variable {requests : List Request} {settings : Settings}

/-- The same after a flag. -/
theorem Follows.enable (follows : Follows requests settings) (chosen : Flag) :
    Follows (requests ++ [.flag chosen]) (settings.enable chosen) := by
  rcases follows with ⟨verbosity, disassemble, interpret, trace, output, stepLimit, range⟩
  cases chosen <;> constructor <;>
    simp [Settings.enable, Request.lastValue?_append, Request.valueOf?, *]

/-- The same after a value that is accepted. -/
theorem Follows.exists_assign (follows : Follows requests settings) {parameter : Parameter}
    {given : Bytes} (faultless : ∀ fault, ¬(Request.value parameter given).Fails fault) :
    ∃ result, settings.assign given parameter = .ok result ∧
      Follows (requests ++ [.value parameter given]) result := by
  rcases follows with ⟨verbosity, disassemble, interpret, trace, output, stepLimit, range⟩
  cases parameter with
  | output =>
      refine ⟨_, rfl, ?_⟩
      constructor <;> simp [Request.lastValue?_append, Request.valueOf?, *]
  | stepLimit =>
      have is_word : Listing.IsWord given := by
        by_contra not_word
        exact faultless _ (.invalidStepLimit not_word)
      have limit_eq : (UInt64.ofNat (Decimal.value given)).toNat = Decimal.value given :=
        UInt64.toNat_ofNat_of_lt' is_word.2
      refine ⟨{ settings with stepLimit := UInt64.ofNat (Decimal.value given) }, ?_, ?_⟩
      · simp only [assign, Decimal.readWord?_of_isWord is_word]
      · constructor <;> simp [Request.lastValue?_append, Request.valueOf?, *]
  | backend =>
      have named : ∃ chosen : Range, chosen.name = given := by
        by_contra no_range
        exact faultless _ (.unknownBackend (not_exists.mp no_range))
      rcases named with ⟨chosen, rfl⟩
      have found : Range.ofName? chosen.name = some chosen := by
        cases chosen <;> rfl
      refine ⟨{ settings with range := chosen }, ?_, ?_⟩
      · simp only [assign, found]
      · constructor <;> simp [Request.lastValue?_append, Request.valueOf?, *]

theorem Follows.exists_apply (follows : Follows requests settings) {request : Request}
    (faultless : ∀ fault, ¬request.Fails fault) :
    ∃ result, settings.apply request = .ok result ∧ Follows (requests ++ [request]) result := by
  cases request with
  | flag chosen => exact ⟨_, rfl, follows.enable chosen⟩
  | value parameter given => exact follows.exists_assign faultless
  | unknown letter => exact absurd (.unknownLetter letter) (faultless _)

/-- Requests that do not fail are all carried out. -/
theorem exists_foldlM_apply (faultless : Request.Faultless requests) :
    ∃ result, requests.foldlM apply {} = .ok result ∧ Follows requests result := by
  -- The last request is the one that counts, so the induction takes requests off at the end.
  induction requests using List.reverseRecOn with
  | nil => exact ⟨{}, rfl, follows_nil⟩
  | append_singleton requests request ih =>
      have before : Request.Faultless requests := by
        intro other other_mem
        exact faultless other (List.mem_append_left _ other_mem)
      rcases ih before with ⟨middle, carried_out, follows⟩
      rcases follows.exists_apply (faultless request (by simp)) with
        ⟨result, applied, follows_all⟩
      refine ⟨result, ?_, follows_all⟩
      have last : [request].foldlM apply middle = .ok result := by
        rw [List.foldlM_cons, applied]
        rfl
      rw [List.foldlM_append, carried_out]
      exact last

end Settings

namespace CommandLine

open Settings

variable {units : List OptionUnit} {operands arguments : List Bytes}

theorem ofArguments_mixed (mixed : Mixed units operands arguments) :
    ofArguments arguments =
      match (units.flatMap OptionUnit.requests).foldlM apply {} with
      | .ok settings => { settings, operands }
      | .error refusal => ⟨refusal.settings, [], some refusal.fault⟩ := by
  rw [ofArguments, readArguments_mixed mixed]
  cases (units.flatMap OptionUnit.requests).foldlM apply {} <;> rfl

/-- Without a failing request everything is read. -/
theorem ofArguments_of_faultless (mixed : Mixed units operands arguments)
    (faultless : Request.Faultless (units.flatMap OptionUnit.requests)) :
    ∃ settings, ofArguments arguments = { settings, operands } ∧
      Follows (units.flatMap OptionUnit.requests) settings := by
  rcases exists_foldlM_apply faultless with ⟨settings, carried_out, follows⟩
  refine ⟨settings, ?_, follows⟩
  rw [ofArguments_mixed mixed, carried_out]

/-- The first failing request ends the reading, and the operands are lost. -/
theorem ofArguments_of_fails (mixed : Mixed units operands arguments)
    {before after : List Request} {request : Request} {fault : ArgumentFault}
    (requests_eq : units.flatMap OptionUnit.requests = before ++ request :: after)
    (faultless : Request.Faultless before) (fails : request.Fails fault) :
    ∃ settings, ofArguments arguments = ⟨settings, [], some fault⟩ ∧ Follows before settings := by
  rcases exists_foldlM_apply faultless with ⟨settings, carried_out, follows⟩
  have failed : (units.flatMap OptionUnit.requests).foldlM apply {} =
      .error ⟨settings, fault⟩ := by
    have ends : (request :: after).foldlM apply settings = .error ⟨settings, fault⟩ := by
      rw [List.foldlM_cons, apply_of_fails fails]
      rfl
    rw [requests_eq, List.foldlM_append, carried_out]
    exact ends
  refine ⟨settings, ?_, follows⟩
  rw [ofArguments_mixed mixed, failed]

theorem isInvalid_eq_false_iff {commandLine : CommandLine} :
    commandLine.isInvalid = false ↔ commandLine.operands ≠ [] ∧
      Xor (commandLine.settings.disassemble = true) (commandLine.settings.interpret = true) := by
  simp only [isInvalid, Bool.or_eq_false_iff, List.isEmpty_eq_false_iff]
  cases commandLine.settings.disassemble <;> cases commandLine.settings.interpret <;> simp [Xor]

/--
Where the operands stand does not matter. Two command lines that mix the same units and the same
operands are read alike, down to the fault. If no request fails, the operands are kept in their
order, the settings follow the requests, and the command line is valid exactly if there is an
operand and one of the two modes is asked for. Otherwise the first failing request is the fault,
nothing behind it has been carried out, and the operands are lost. Every argument of a dash and
letters, other than two dashes, makes a unit by itself or with any argument after it.
-/
theorem ofArguments_ignores_places {units : List OptionUnit} {operands first second : List Bytes}
    (first_mixed : Mixed units operands first) (second_mixed : Mixed units operands second) :
    let commandLine := ofArguments first
    let settings := commandLine.settings
    let requests := units.flatMap OptionUnit.requests
    ofArguments second = commandLine ∧
      (Request.Faultless requests →
        commandLine.fault = none ∧ commandLine.complaint = [] ∧
        commandLine.operands = operands ∧
        (commandLine.isInvalid = false ↔
          operands ≠ [] ∧ Xor (.flag .disassemble ∈ requests) (.flag .interpret ∈ requests)) ∧
        (commandLine.readsStandardInput = true ↔ operands.head? = some [Byte.minus]) ∧
        Follows requests settings) ∧
      (∀ before request after fault, requests = before ++ request :: after →
        Request.Faultless before → request.Fails fault →
          commandLine.fault = some fault ∧ commandLine.complaint = fault.message ∧
          commandLine.operands = [] ∧ commandLine.isInvalid = true ∧ Follows before settings) ∧
      ∀ letters, letters ≠ [] → Byte.minus :: letters ≠ lastOption →
        (∃ unit : OptionUnit, unit.arguments = [Byte.minus :: letters]) ∨
          ∀ value, ∃ unit : OptionUnit, unit.arguments = [Byte.minus :: letters, value] := by
  intro commandLine settings requests
  refine ⟨?_, ?_, ?_, fun letters => OptionUnit.exists_unit⟩
  · exact (ofArguments_mixed second_mixed).trans (ofArguments_mixed first_mixed).symm
  · intro faultless
    rcases ofArguments_of_faultless first_mixed faultless with ⟨read, read_eq, follows⟩
    have commandLine_eq : commandLine = { settings := read, operands } := read_eq
    have settings_eq : settings = read := congrArg CommandLine.settings commandLine_eq
    rw [isInvalid_eq_false_iff, settings_eq, commandLine_eq, follows.disassemble,
      follows.interpret]
    refine ⟨rfl, rfl, rfl, Iff.rfl, ?_, follows⟩
    rw [readsStandardInput, beq_iff_eq]
    rfl
  · intro before request after fault requests_eq faultless fails
    rcases ofArguments_of_fails first_mixed requests_eq faultless fails with
      ⟨read, read_eq, follows⟩
    have commandLine_eq : commandLine = ⟨read, [], some fault⟩ := read_eq
    have settings_eq : settings = read := congrArg CommandLine.settings commandLine_eq
    rw [settings_eq, commandLine_eq]
    exact ⟨rfl, rfl, rfl, rfl, follows⟩

/-- Two dashes that are a value, a limit that is set twice, and operands around and before it. -/
theorem ofArguments_ignores_places_value_of_dashes :
    let first := [ascii "-o", ascii "--", ascii "-", ascii "-Vs7", ascii "x", ascii "-Vis12"]
    let second := [ascii "-", ascii "x", ascii "-o", ascii "--", ascii "-Vs7", ascii "-Vis12"]
    let commandLine := ofArguments first
    ofArguments second = commandLine ∧ commandLine.fault = none ∧
      commandLine.isInvalid = false ∧ commandLine.operands = [ascii "-", ascii "x"] ∧
      commandLine.readsStandardInput = true ∧ commandLine.settings.verbosity = 2 ∧
      commandLine.settings.output = some (ascii "--") ∧
      commandLine.settings.stepLimit.toNat = 12 := by
  intro first second commandLine
  let output : OptionUnit :=
    ⟨ascii "o", some (ascii "--"), _, .detached .output (ascii "--"), by decide, by decide⟩
  let early : OptionUnit :=
    ⟨ascii "Vs7", none, [.flag .verbose, .value .stepLimit (ascii "7")],
      .flag .verbose (.attached .stepLimit (List.cons_ne_nil _ _)), by decide, by decide⟩
  let late : OptionUnit :=
    ⟨ascii "Vis12", none, [.flag .verbose, .flag .interpret, .value .stepLimit (ascii "12")],
      .flag .verbose (.flag .interpret (.attached .stepLimit (List.cons_ne_nil _ _))),
      by decide, by decide⟩
  have dash : IsOperand (ascii "-") := Or.inr rfl
  have name : IsOperand (ascii "x") := Or.inl (by decide)
  have first_mixed : Mixed [output, early, late] [ascii "-", ascii "x"] first :=
    .unit output (.operand dash (.unit early (.operand name (.unit late .nil))))
  have second_mixed : Mixed [output, early, late] [ascii "-", ascii "x"] second :=
    .operand dash (.operand name (.unit output (.unit early (.unit late .nil))))
  have faultless : Request.Faultless ([output, early, late].flatMap OptionUnit.requests) := by
    intro request request_mem fault fails
    cases fails with
    | unknownLetter letter =>
        simp [output, early, late] at request_mem
    | @invalidStepLimit given not_word =>
        have given_eq : given = ascii "7" ∨ given = ascii "12" := by
          simpa [output, early, late] using request_mem
        rcases given_eq with rfl | rfl <;> exact not_word ⟨by decide, by decide⟩
    | unknownBackend no_range =>
        simp [output, early, late] at request_mem
  rcases ofArguments_ignores_places first_mixed second_mixed with ⟨same, accepted, -, -⟩
  rcases accepted faultless with ⟨no_fault, -, operands_eq, valid_iff, stdin_iff, follows⟩
  refine ⟨same, no_fault, valid_iff.mpr ⟨by decide, ?_⟩, operands_eq, stdin_iff.mpr rfl,
    follows.verbosity, follows.output, follows.stepLimit⟩
  exact Or.inr ⟨by decide, by decide⟩

end CommandLine

end SpanMachine
