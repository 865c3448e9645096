import Embedder.Proofs.CommandLine.Arguments
import Embedder.Proofs.CommandLine.Transcript
import Embedder.Proofs.Config.Selection

namespace Embedder.CommandLine

/-!
# What a command line comes to

A run of the command line is determined by the settings in effect, the two builds and the clock: it
ends well if everything that comes before the benchmark succeeds and the report has no error, and it
prints what the benchmark prints. A setting in effect is said by its flag, or else by its variable,
or else by the configuration file, or else it has its default.

* `ConfiguredBy`, `effective`: the configuration in effect.
* `Prepared`: everything that comes before the benchmark.
* `Carries`, `execute_carries`: the status and the output.
* `Flag.textIn`, `Moved`, `execute_moved`: a setting that is moved from the file to its flag.
* `run_refines`: command lines.
-/

-- Powers are those of the core library, whatever else is imported.
attribute [local instance (1100)] instPowNat

/-! ### Settings in effect -/

/-- The configuration that a run starts from: the one in the file, if one is named, or else the
default. -/
inductive ConfiguredBy (files : String → Option Bytes) : Option String → ConfigFile → Prop
  | default : ConfiguredBy files none {}
  | file {path text : String} {bytes : Bytes} {base : ConfigFile}
    (content : files path = some bytes) (decoded : Text.decode? bytes = some text)
    (parsed : ConfigFile.ofToml? text = some base) : ConfiguredBy files (some path) base

/-- A file is a configuration if it is there, is a text, and reads as one. -/
theorem ofContent_eq_ok_iff {content : Option Bytes} {base : ConfigFile} :
    ConfigFile.ofContent content = .ok base ↔ ∃ bytes text, content = some bytes ∧
      Text.decode? bytes = some text ∧ ConfigFile.ofToml? text = some base := by
  constructor
  · intro read
    cases content with
    | none => cases read
    | some bytes =>
      rw [ConfigFile.ofContent] at read
      cases decoded : Text.decode? bytes with
      | none =>
        rw [decoded] at read
        cases read
      | some text =>
        cases parsed : ConfigFile.ofToml? text with
        | none =>
          simp only [decoded, parsed] at read
          cases read
        | some config =>
          simp only [decoded, parsed] at read
          cases read
          exact ⟨bytes, text, rfl, decoded, parsed⟩
  · rintro ⟨bytes, text, rfl, decoded, parsed⟩
    simp only [ConfigFile.ofContent, decoded, parsed]

/-- What is configured before any flag comes from the file, or from the defaults. -/
theorem baseConfig_eq_ok_iff {files : String → Option Bytes} {o : Options} {base : ConfigFile} :
    baseConfig files o = .ok base ↔ ConfiguredBy files o.config base := by
  unfold baseConfig
  cases named : o.config with
  | none =>
    constructor
    · rintro ⟨⟩
      exact .default
    · rintro ⟨⟩
      rfl
  | some path =>
    simp only [ofContent_eq_ok_iff]
    constructor
    · rintro ⟨bytes, text, content, decoded, parsed⟩
      exact .file content decoded parsed
    · rintro ⟨⟩
      exact ⟨_, _, ‹_›, ‹_›, ‹_›⟩

/-- A file that gives some fields of a configuration is read as that configuration with its defaults
for the others. -/
theorem ConfiguredBy.of_selects {files : String → Option Bytes} {path text : String} {bytes : Bytes}
    {n : Node} {c : ConfigFile} {given : Choice} (content : files path = some bytes)
    (decoded : Text.decode? bytes = some text) (document : Toml.read? text = some n)
    (selects : Node.Selects given c.toNode n) :
    ConfiguredBy files (some path) (c.restrict given) := by
  refine .file content decoded ?_
  rw [ConfigFile.ofToml?, document]
  exact c.ofNode?_of_selects .ignored selects

/-- The configuration in effect: each setting is said by its flag, or else by its variable, or else
it is the one of the file. -/
def effective (env : String → Option String) (items : List Item) (base : ConfigFile) :
    ConfigFile where
  runtime := base.runtime
  run :=
    { repetitions := ((settled env items .repetitions).bind repetitions?).getD base.run.repetitions
      threshold := ((settled env items .threshold).bind threshold?).getD base.run.threshold
      eventId := (settled env items .eventId).getD base.run.eventId
      eventPayload := (settled env items .payload).getD base.run.eventPayload
      printHeader := settled env items .header <|> base.run.printHeader }

/-- Flags and variables of the environment override the file. -/
theorem Options.Answers.effective {o : Options} {env : String → Option String} {items : List Item}
    (answers : o.Answers env items) (base : ConfigFile) :
    { base with run := o.override base.run } = effective env items base := by
  obtain ⟨-, -, -, repetitions, threshold, eventId, payload, header, -⟩ := answers
  rw [Options.override, repetitions, threshold, eventId, payload, header]
  rfl

/-! ### Steps before the benchmark -/

section

variable [Engine]

/-- Everything before the benchmark succeeds: the configuration and the two builds are read, and a
runtime is created. -/
structure Prepared (env : String → Option String) (files : String → Option Bytes) (clock : Clock)
    (items : List Item) (config : ConfigFile) (plain instrumented : Bytes) : Prop where
  configured : ∃ base, ConfiguredBy files (settled env items .config) base ∧
    config = effective env items base
  read : (pathsOf items).map files = [some plain, some instrumented]
  created : ∃ made, (bareStart config.runtime clock).1 = .ok made

/-- What a run of a command line comes to. -/
structure Carries (env : String → Option String) (files : String → Option Bytes) (clock : Clock)
    (items : List Item) (e : Execution) : Prop where
  /-- The status is zero if everything before the benchmark succeeds and the report has no error. -/
  succeeds : e.status = 0 ↔ ∃ config plain instrumented report c,
    Prepared env files clock items config plain instrumented ∧
      Transcribes config plain instrumented clock report c ∧ report.error = none
  /-- Else it is one. -/
  fails : e.status ≠ 0 → e.status = 1
  /-- Nothing is printed if something before the benchmark fails. -/
  silent :
    (¬ ∃ config plain instrumented, Prepared env files clock items config plain instrumented) →
    e.output = []
  /-- Else there is a benchmark, and what it prints is passed through the header in effect. -/
  printed : ∀ config plain instrumented, Prepared env files clock items config plain instrumented →
    (∃ report c, Transcribes config plain instrumented clock report c) ∧
      ∀ report c, Transcribes config plain instrumented clock report c →
        e.output = passed config.run.printHeader c.output.captured

section

variable {o : Options} {env : String → Option String} {items : List Item}
  {files : String → Option Bytes} {clock : Clock}

/-- What a run comes to if everything before the benchmark succeeds. -/
theorem execute_of_transcribes (answers : o.Answers env items) {config : ConfigFile}
    {plain instrumented : Bytes} {report : Report} {c : Commons}
    (prepared : Prepared env files clock items config plain instrumented)
    (transcribes : Transcribes config plain instrumented clock report c) :
    execute o files clock =
      { status := if report.error.isSome then 1 else 0
        output := passed config.run.printHeader c.output.captured
        problem := report.error.map fun e => "Benchmark failed: " ++ e.message
        asked := c.clock.asked } := by
  obtain ⟨⟨base, configured, rfl⟩, read, -⟩ := prepared
  rw [← answers.config] at configured
  rw [answers.paths] at read
  simp only [List.map_cons, List.map_nil, List.cons.injEq, and_true] at read
  obtain ⟨first, second⟩ := read
  rw [execute, baseConfig_eq_ok_iff.2 configured]
  simp only [first, second, bytecodeOfContent, answers.effective,
    runConfigured_of_transcribes transcribes]

/-- What is prepared is carried out, and leaves a transcript. -/
theorem Prepared.exists_transcribes {config : ConfigFile} {plain instrumented : Bytes}
    (prepared : Prepared env files clock items config plain instrumented) :
    ∃ report c, Transcribes config plain instrumented clock report c := by
  obtain ⟨-, -, ⟨runtime, commons⟩, created⟩ := prepared
  exact CommandLine.exists_transcribes created plain instrumented

/-- A run fails without printing anything if something before the benchmark fails. -/
theorem execute_of_unprepared (answers : o.Answers env items)
    (unprepared : ¬ ∃ config plain instrumented,
      Prepared env files clock items config plain instrumented) :
    ∃ problem, execute o files clock = .failed problem := by
  -- What is looked up comes in the order in which it is executed, and the first lack is told.
  unfold execute
  cases read : baseConfig files o with
  | error e => exact ⟨_, rfl⟩
  | ok base =>
    have configured := baseConfig_eq_ok_iff.1 read
    rw [answers.config] at configured
    simp only
    cases first : files o.plain with
    | none => exact ⟨_, rfl⟩
    | some plain =>
      cases second : files o.instrumented with
      | none => exact ⟨_, rfl⟩
      | some instrumented =>
        simp only [bytecodeOfContent]
        rw [answers.effective]
        rcases created : (bareStart (effective env items base).runtime clock).1 with e | made
        · exact ⟨_, runConfigured_of_error created _ _⟩
        · refine absurd ⟨_, plain, instrumented, ⟨base, configured, rfl⟩, ?_, made, created⟩
            unprepared
          rw [answers.paths, List.map_cons, List.map_cons, first, second, List.map_nil]

/-- To execute options is to carry out what is asked for: each way to fail is told, and nothing
else fails. -/
theorem execute_carries (answers : o.Answers env items) :
    Carries env files clock items (execute o files clock) where
  succeeds := by
    constructor
    · intro zero
      -- A program that returns zero was prepared, or it would have reported the problem, and its
      -- run had no error.
      by_contra fails
      by_cases prepared : ∃ config plain instrumented,
          Prepared env files clock items config plain instrumented
      · obtain ⟨config, plain, instrumented, prepared⟩ := prepared
        obtain ⟨report, c, transcribes⟩ := prepared.exists_transcribes
        rw [execute_of_transcribes answers prepared transcribes] at zero
        cases error : report.error with
        | none => exact fails ⟨_, _, _, report, c, prepared, transcribes, error⟩
        | some e => simp [error] at zero
      · obtain ⟨problem, failed⟩ := execute_of_unprepared answers prepared
        rw [failed] at zero
        cases zero
    · rintro ⟨config, plain, instrumented, report, c, prepared, transcribes, error⟩
      rw [execute_of_transcribes answers prepared transcribes, error]
      rfl
  fails nonzero := by
    by_cases prepared : ∃ config plain instrumented,
        Prepared env files clock items config plain instrumented
    · obtain ⟨config, plain, instrumented, prepared⟩ := prepared
      obtain ⟨report, c, transcribes⟩ := prepared.exists_transcribes
      rw [execute_of_transcribes answers prepared transcribes] at nonzero ⊢
      by_cases error : report.error.isSome <;> simp_all
    · obtain ⟨problem, failed⟩ := execute_of_unprepared answers prepared
      rw [failed]
      rfl
  silent unprepared := by
    obtain ⟨problem, failed⟩ := execute_of_unprepared answers unprepared
    rw [failed]
    rfl
  printed config plain instrumented prepared := by
    refine ⟨prepared.exists_transcribes, fun report c transcribes => ?_⟩
    rw [execute_of_transcribes answers prepared transcribes]

end

end

/-! ### Settings that are moved -/

/-- The value with which a flag says what a configuration says. -/
def Flag.textIn : Flag → RunConfig → Option String
  | .config, _ => none
  | .repetitions, c => some c.repetitions.toNat.repr
  | .threshold, c => some c.threshold.toNat.repr
  | .eventId, c => some c.eventId
  | .payload, c => some c.eventPayload
  | .header, c => c.printHeader

/-- A number is read as it is written. -/
theorem digits?_toDigits (n : Nat) : digits? (Nat.toDigits 10 n) = some n := by
  have digit : (Nat.toDigits 10 n).all Char.isDigit = true := List.all_eq_true.2 fun c hc =>
    Nat.isDigit_of_mem_toDigits (by decide) (by decide) hc
  have nonempty : (Nat.toDigits 10 n).isEmpty = false := by
    simp
  have value : Nat.ofDigitChars 10 (Nat.toDigits 10 n) 0 = n := Nat.ofDigitChars_ten_toDigits
  rw [digits?, nonempty, digit]
  exact congrArg some value

/-- A number does not begin with a sign. -/
theorem toDigits_ne_sign {c : Char} (notDigit : c.isDigit = false) (n : Nat) (cs : List Char) :
    Nat.toDigits 10 n ≠ c :: cs := by
  intro same
  have digit : c.isDigit := Nat.isDigit_of_mem_toDigits (by decide) (by decide)
    (same ▸ List.mem_cons_self)
  rw [notDigit] at digit
  cases digit

/-- So is a number of repetitions. -/
theorem repetitions?_repr (n : UInt32) : repetitions? n.toNat.repr = some n := by
  have below : n.toNat < 2 ^ (32 : Nat) := n.toNat_lt
  have fits : 0 ≤ Int.ofNat n.toNat ∧ Int.ofNat n.toNat < 2 ^ (32 : Nat) := by
    simp only [Int.ofNat_eq_natCast]
    omega
  rw [repetitions?, Nat.toList_repr]
  split
  case h_1 same => exact absurd same (toDigits_ne_sign rfl _ _)
  case h_2 same => exact absurd same (toDigits_ne_sign rfl _ _)
  case h_3 =>
    rw [digits?_toDigits, Option.map_some, Option.bind_eq_bind, Option.bind_some]
    beta_reduce
    rw [if_pos fits]
    exact congrArg some UInt32.ofNat_toNat

/-- So is a threshold. -/
theorem threshold?_repr (n : UInt64) : threshold? n.toNat.repr = some n := by
  have fits : n.toNat < 2 ^ (64 : Nat) := n.toNat_lt
  rw [threshold?, Nat.toList_repr]
  split
  case h_1 same => exact absurd same (toDigits_ne_sign rfl _ _)
  case h_2 => simp [digits?_toDigits, fits]

/-- What a configuration says is accepted as the value of a flag. -/
theorem accepts_textIn {f : Flag} {c : RunConfig} {v : String} (written : f.textIn c = some v) :
    f.accepts v := by
  cases f with
  | config => cases written
  | repetitions =>
    cases written
    simp [Flag.accepts, repetitions?_repr]
  | threshold =>
    cases written
    simp [Flag.accepts, threshold?_repr]
  | eventId | payload | header => rfl

section

variable {c c' : RunConfig}

/-- A number of repetitions is told by its text. -/
theorem repetitions_of_textIn
    (same : Flag.textIn .repetitions c' = Flag.textIn .repetitions c) :
    c'.repetitions = c.repetitions := by
  have written := congrArg (·.bind repetitions?) same
  simpa [Flag.textIn, repetitions?_repr] using written

/-- So is a threshold. -/
theorem threshold_of_textIn (same : Flag.textIn .threshold c' = Flag.textIn .threshold c) :
    c'.threshold = c.threshold := by
  have written := congrArg (·.bind threshold?) same
  simpa [Flag.textIn, threshold?_repr] using written

/-- A run configuration is what the values of flags say of it. -/
theorem eq_of_textIn (same : ∀ f : Flag, f.textIn c' = f.textIn c) : c' = c := by
  have repetitions := repetitions_of_textIn (same .repetitions)
  have threshold := threshold_of_textIn (same .threshold)
  have eventId : c'.eventId = c.eventId := Option.some.inj (same .eventId)
  have payload : c'.eventPayload = c.eventPayload := Option.some.inj (same .payload)
  have header : c'.printHeader = c.printHeader := same .header
  cases c
  cases c'
  simp_all

end

section

variable {env : String → Option String} {items items' : List Item} {base base' : ConfigFile}
  {f : Flag}

/-- A setting that is neither said by its flag nor by its variable is the one of the file. -/
theorem textIn_effective_of_none (unset : settled env items f = none) :
    f.textIn (effective env items base).run = f.textIn base.run := by
  cases f <;> simp [Flag.textIn, effective, unset]

/-- A setting that is said as it stands in a configuration. -/
theorem textIn_effective_of_some {c : RunConfig} {v : String} (written : f.textIn c = some v)
    (said : settled env items f = some v) : f.textIn (effective env items base).run = some v := by
  cases f with
  | config => cases written
  | repetitions =>
    cases written
    simp [Flag.textIn, effective, said, repetitions?_repr]
  | threshold =>
    cases written
    simp [Flag.textIn, effective, said, threshold?_repr]
  | eventId | payload | header => simp [Flag.textIn, effective, said]

/-- A setting in effect depends on what is said of it and on the file. -/
theorem textIn_effective_congr (said : settled env items' f = settled env items f)
    (file : f.textIn base'.run = f.textIn base.run) :
    f.textIn (effective env items' base').run = f.textIn (effective env items base).run := by
  -- For each setting, what counts is what is said of it, and what the file says if nothing is.
  cases f with
  | config => rfl
  | repetitions =>
    have same : base'.run.repetitions = base.run.repetitions := repetitions_of_textIn file
    simp only [Flag.textIn, effective, said, same]
  | threshold =>
    have same : base'.run.threshold = base.run.threshold := threshold_of_textIn file
    simp only [Flag.textIn, effective, said, same]
  | eventId =>
    have same : base'.run.eventId = base.run.eventId := Option.some.inj file
    simp only [Flag.textIn, effective, said, same]
  | payload =>
    have same : base'.run.eventPayload = base.run.eventPayload := Option.some.inj file
    simp only [Flag.textIn, effective, said, same]
  | header =>
    have same : base'.run.printHeader = base.run.printHeader := file
    simp only [Flag.textIn, effective, said, same]

end

/-- A setting is moved from the configuration file to its flag. Before, the flag is not given, and
the variable is not set or says the same as the file; after, the flag says what the file did,
wherever it stands. What the file says of this one setting then makes no difference. -/
inductive Moved (env : String → Option String) (files files' : String → Option Bytes)
    (items items' : List Item) : Prop
  | mk {f : Flag} {v : String} {base base' : ConfigFile} (absent : valueIn items f = none)
    (configured : ConfiguredBy files (settled env items .config) base)
    (written : f.textIn base.run = some v)
    (agreed : ∀ w, f.variable?.bind env = some w → f.textIn (effective env items base).run = some v)
    (configured' : ConfiguredBy files' (settled env items .config) base')
    (runtime : base'.runtime = base.runtime)
    (others : ∀ g ≠ f, g.textIn base'.run = g.textIn base.run)
    (perm : items'.Perm (.value f v :: items)) (paths : pathsOf items' = pathsOf items)
    (builds : ∀ p ∈ pathsOf items, files' p = files p)

section

variable {o o' : Options} {env : String → Option String} {items items' : List Item}
  {files files' : String → Option Bytes} {clock : Clock}

/-- Runs are the same if the configuration in effect is, and the two builds are. -/
theorem execute_congr [Engine] (answers : o.Answers env items) (answers' : o'.Answers env items')
    {base base' : ConfigFile} (configured : ConfiguredBy files (settled env items .config) base)
    (configured' : ConfiguredBy files' (settled env items' .config) base')
    (same : effective env items' base' = effective env items base)
    (paths : pathsOf items' = pathsOf items) (builds : ∀ p ∈ pathsOf items, files' p = files p)
    (clock : Clock) : execute o' files' clock = execute o files clock := by
  rw [← answers.config] at configured
  rw [← answers'.config] at configured'
  have named : [o'.plain, o'.instrumented] = [o.plain, o.instrumented] := by
    rw [← answers.paths, ← answers'.paths, paths]
  simp only [List.cons.injEq, and_true] at named
  rw [answers.paths] at builds
  have first := builds o.plain (by simp)
  have second := builds o.instrumented (by simp)
  rw [execute, execute, baseConfig_eq_ok_iff.2 configured, baseConfig_eq_ok_iff.2 configured']
  simp only [answers.effective, answers'.effective, same, named.1, named.2, first, second]

/-- Things that go together and have acceptable values ask for some options, given two paths. -/
theorem exists_answers {plain instrumented : String} (paths : pathsOf items = [plain, instrumented])
    (accepted : ∀ f v, settled env items f = some v → f.accepts v) :
    ∃ o : Options, o.Answers env items :=
  ⟨⟨plain, instrumented, _, _, _, _, _, _, _⟩, paths, accepted, rfl, rfl, rfl, rfl, rfl, rfl, rfl⟩

/-- One more flag goes together with what is said if it is not there yet. -/
theorem Proper.perm_cons (proper : Proper items) {f : Flag} {v : String}
    (absent : valueIn items f = none) (accepted : f.accepts v)
    (perm : items'.Perm (.value f v :: items)) (paths : pathsOf items' = pathsOf items) :
    Proper items' := by
  have fresh : f ∉ (valuesOf items).map Prod.fst := by
    intro member
    have given := (Reading.isSome_get? (readingOf items) f).2 member
    rw [← valueIn, absent] at given
    cases given
  have more := (proper_value proper f v).2 ⟨fresh, accepted⟩
  refine more.perm (perm.trans (List.perm_append_singleton _ _).symm) ?_
  rw [paths, pathsOf_append]
  exact (List.append_nil _).symm

/-- **Moving.** A setting that is moved from the file to its flag changes nothing. -/
theorem execute_moved [Engine] (proper : Proper items) (answers : o.Answers env items)
    (moved : Moved env files files' items items') :
    ∃ o' : Options, Proper items' ∧ o'.Answers env items' ∧
      ∀ clock, execute o' files' clock = execute o files clock := by
  obtain @⟨f, v, base, base', absent, configured, written, agreed, configured', runtime, others,
    perm, paths, builds⟩ := moved
  -- Before, the value of the file is in effect; after, the flag says it, and all else is as before.
  have inEffect : f.textIn (effective env items base).run = some v := by
    cases set : f.variable?.bind env with
    | none =>
      rw [textIn_effective_of_none, written]
      rw [settled, absent, set]
      rfl
    | some w => exact agreed w set
  have accepted := accepts_textIn written
  have proper' := proper.perm_cons absent accepted perm paths
  have said : settled env items' f = some v := by
    have given : valueIn items' f = some v :=
      (valueIn_eq_some_iff proper').2 (perm.mem_iff.2 List.mem_cons_self)
    rw [settled, given]
    rfl
  have rest : ∀ g ≠ f, settled env items' g = settled env items g := by
    intro g other
    refine settled_congr proper proper' fun w => ?_
    rw [perm.mem_iff, List.mem_cons]
    simp [other]
  have same : effective env items' base' = effective env items base := by
    have run : (effective env items' base').run = (effective env items base).run := by
      refine eq_of_textIn fun g => ?_
      by_cases here : g = f
      · rw [here, textIn_effective_of_some written said, inEffect]
      · exact textIn_effective_congr (rest g here) (others g here)
    have whole : (effective env items' base').runtime = (effective env items base).runtime :=
      runtime
    cases first : effective env items base
    cases second : effective env items' base'
    simp_all
  obtain ⟨o', answers'⟩ : ∃ o' : Options, o'.Answers env items' := by
    refine exists_answers (paths.trans answers.paths) fun g w given => ?_
    by_cases here : g = f
    · subst here
      cases said.symm.trans given
      exact accepted
    · exact answers.accepted g w ((rest g here).symm.trans given)
  have notConfig : Flag.config ≠ f := by
    rintro rfl
    cases written
  -- The file is never moved itself, so it is the same one that is named.
  rw [← rest .config notConfig] at configured'
  exact ⟨o', proper', answers', fun clock =>
    execute_congr answers answers' configured configured' same paths builds clock⟩

end

/-! ### Command lines -/

/-- What holds of a command line that asks for a run. -/
structure Refined [Engine] (args : List String) (env : String → Option String)
    (files : String → Option Bytes) (clock : Clock) : Prop where
  /-- The command line says something. -/
  told : ∃ items, Says args items
  /-- Settings in effect, files, benchmark and header make the status and the output. -/
  carries : ∀ items, Says args items → Carries env files clock items (run args env files clock)
  /-- A file may give any settings. It is read as these, with defaults for the others. -/
  defaults : ∀ path bytes text n (c : ConfigFile) given, files path = some bytes →
    Text.decode? bytes = some text → Toml.read? text = some n → Node.Selects given c.toNode n →
      ConfiguredBy files (some path) (c.restrict given)
  /-- The order of what is said makes no difference, but for the order of the two builds. -/
  unordered : ∀ items args' items', Says args items → Says args' items' → items'.Perm items →
    pathsOf items' = pathsOf items → run args' env files clock = run args env files clock
  /-- A setting that is moved from the file to its flag makes no difference, unless its variable
  says something else. -/
  movable : ∀ items args' items' files', Says args items → Says args' items' →
    Moved env files files' items items' → run args' env files' clock = run args env files clock

/-- What is parsed as options is executed. -/
theorem run_of_parse [Engine] {args : List String} {env : String → Option String} {o : Options}
    (parsed : parse args env = some (.run o)) (files : String → Option Bytes) (clock : Clock) :
    run args env files clock = execute o files clock := by
  rw [run, parsed]

/-- What is said in another order asks for the same options. -/
theorem Options.Answers.perm {o : Options} {env : String → Option String} {items items' : List Item}
    (answers : o.Answers env items) (proper : Proper items) (proper' : Proper items')
    (perm : items'.Perm items) (paths : pathsOf items' = pathsOf items) : o.Answers env items' := by
  have same : ∀ f, settled env items' f = settled env items f := fun f =>
    settled_congr proper proper' fun _ => perm.mem_iff
  obtain ⟨two, accepted, config, repetitions, threshold, eventId, payload, header, clock⟩ := answers
  refine ⟨paths.trans two, ?_, ?_, ?_, ?_, ?_, ?_, ?_, ?_⟩
  · simpa only [same] using accepted
  all_goals simpa only [same, perm.mem_iff]

/-- **Command lines.** However the command line of a run is written, its status and its output are
those of a benchmark under the settings in effect. -/
theorem run_refines [Engine] {args : List String} {env : String → Option String} {o : Options}
    (accepted : parse args env = some (.run o)) (files : String → Option Bytes) (clock : Clock) :
    Refined args env files clock where
  told := by
    obtain ⟨items, told, -, -⟩ := parse_eq_run_iff.1 accepted
    exact ⟨items, told⟩
  carries items told := by
    rw [run_of_parse accepted]
    exact execute_carries (answers_of_told accepted told).2
  defaults path bytes text n c given content decoded document selects :=
    .of_selects content decoded document selects
  unordered items args' items' told told' perm paths := by
    obtain ⟨proper, answers⟩ := answers_of_told accepted told
    have proper' := proper.perm perm paths
    -- What is said again is accepted again, and asks for the same.
    have accepted' : parse args' env = some (.run o) :=
      parse_eq_run_iff.2 ⟨items', told', proper', answers.perm proper proper' perm paths⟩
    rw [run_of_parse accepted, run_of_parse accepted']
  movable items args' items' files' told told' moved := by
    obtain ⟨proper, answers⟩ := answers_of_told accepted told
    obtain ⟨o', proper', answers', same⟩ := execute_moved proper answers moved
    -- The options may be others, but they come to the same run.
    have accepted' : parse args' env = some (.run o') :=
      parse_eq_run_iff.2 ⟨items', told', proper', answers'⟩
    rw [run_of_parse accepted, run_of_parse accepted', same]

/-- Two builds, and two flags between them and after them. -/
theorem refined_flags :
    parse ["plain", "--repeat=2", "instrumented", "--header", "# "] (fun _ => none) =
      some (.run ⟨"plain", "instrumented", none, some 2, none, none, none, some "# ", false⟩) ∧
    Refined ["plain", "--repeat=2", "instrumented", "--header", "# "] (fun _ => none)
      (fun _ => some returning) (.ofReadings [] (.ok 0)) :=
  ⟨by decide +kernel, run_refines (o :=
    ⟨"plain", "instrumented", none, some 2, none, none, none, some "# ", false⟩)
    (by decide +kernel) _ _⟩

/-- While a variable says that nothing is run, the file says in vain that something is. Its flag
does not say it in vain. -/
theorem moved_past_variable :
    let env := fun name => if name = "WASM_SANDBOX_REPEAT" then some "0" else none
    let files := fun config path =>
      if path = "config" then some (Bytes.ofText config) else some Wasm.preamble
    let clock := Clock.ofReadings [] (.ok 0)
    let before := "[runtime.module]\nheap_size = 0\n[run]\nrepeat = 1\n"
    let after := "[runtime.module]\nheap_size = 0\n[run]\n"
    (run ["build", "build", "--config=config"] env (files before) clock).status = 0 ∧
      (run ["build", "build", "--config=config", "--repeat=1"] env (files after) clock).status =
        1 := by
  decide +kernel

end Embedder.CommandLine
