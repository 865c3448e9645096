import Mathlib.Data.List.Nodup
import Embedder.Proofs.Config.Spelling

namespace Embedder

/-!
# Partly given configurations

What a configuration is read from: its fields in any order, each at most once, those of nested
configurations likewise, and any fields besides that it does not know. Which ones are given is a
choice of paths of names. A field that is given has the value of the configuration, and one that is
not has its default, by induction on the entries: those that were read so far are the given ones of
a smaller choice.

* `Choice`, `Node.Selects`: the chosen fields of a record, in another record.
* `restrict`: a configuration with its defaults wherever nothing is chosen.
* `Fills`: what reading one entry does, for each configuration.
* `json_round_trips`: texts.
-/

-- Powers are those of the core library, whatever else is imported.
attribute [local instance (1100)] instPowNat

/-- Which fields are given: a field is named by the path of names that leads to it. -/
abbrev Choice := List String → Bool

namespace Choice

/-- Every field is given, and everything inside of it. -/
def Full (given : Choice) : Prop := ∀ name path, given (name :: path)

/-- What is given inside a field. -/
def below (given : Choice) (name : String) : Choice
  | [] => false
  | k :: path => given (name :: k :: path)

/-- What is given as long as only the outermost fields of these names are. -/
def among (given : Choice) (seen : List String) : Choice
  | [name] => decide (name ∈ seen) && given [name]
  | path => given path

@[simp] theorem below_cons (given : Choice) (name k : String) (path : List String) :
    given.below name (k :: path) = given (name :: k :: path) := rfl

@[simp] theorem among_singleton (given : Choice) (seen : List String) (name : String) :
    given.among seen [name] = (decide (name ∈ seen) && given [name]) := rfl

@[simp] theorem below_among (given : Choice) (seen : List String) (name : String) :
    (given.among seen).below name = given.below name := by
  ext path
  cases path <;> rfl

/-- If everything is given, so is what is inside a field. -/
theorem Full.below {given : Choice} (full : given.Full) (name : String) : (given.below name).Full :=
  fun k path => full name (k :: path)

end Choice

/-- A node holds just the given fields of a record, and maybe fields of other names. What is not a
record is given as a whole. -/
inductive Node.Selects : Choice → Node → Node → Prop where
  | whole {given : Choice} {n : Node} (leaf : ∀ fs, n ≠ .record fs) : Selects given n n
  | record {given : Choice} {fs gs : List (String × Node)}
    (once : ∀ f ∈ fs, (gs.map Prod.fst).count f.1 = if given [f.1] then 1 else 0)
    (same : ∀ f ∈ fs, ∀ g ∈ gs, g.1 = f.1 → Selects (given.below f.1) f.2 g.2) :
    Selects given (.record fs) (.record gs)

namespace Node

/-- The fields of a record. -/
def entries : Node → List (String × Node)
  | .record fs => fs
  | _ => []

/-- What is no record is given as it is. -/
theorem Selects.eq_of_leaf {given : Choice} {n m : Node} (selects : Selects given n m)
    (leaf : ∀ fs, n ≠ .record fs) : m = n := by
  cases selects with
  | whole => rfl
  | record => exact absurd rfl (leaf _)

/-- All records in a node have fields of different names. -/
inductive Distinct : Node → Prop where
  | leaf {n : Node} (leaf : ∀ fs, n ≠ .record fs) : Distinct n
  | record {fs : List (String × Node)} (nodup : (fs.map Prod.fst).Nodup)
    (each : ∀ f ∈ fs, Distinct f.2) : Distinct (.record fs)

/-- A record all of whose fields are given holds just these. -/
theorem Distinct.selects_self {n : Node} (distinct : Distinct n) {given : Choice}
    (full : given.Full) : Selects given n n := by
  induction distinct generalizing given with
  | leaf leaf => exact .whole leaf
  | @record fs nodup _ ih =>
    refine .record (fun f hf => ?_) fun f hf g hg name => ?_
    · rw [if_pos (full f.1 [])]
      exact List.count_eq_one_of_mem nodup (List.mem_map_of_mem hf)
    · rw [List.inj_on_of_nodup_map nodup hg hf name]
      exact ih f hf (full.below f.1)

/-- Of a record any fields may be given. -/
theorem Distinct.exists_selects {n : Node} (distinct : Distinct n) (given : Choice) :
    ∃ m, Selects given n m := by
  induction distinct generalizing given with
  | leaf leaf => exact ⟨_, .whole leaf⟩
  | @record fs nodup _ ih =>
    have : Nonempty Node := ⟨.null⟩
    -- A selection of each field is picked, and the fields that are given keep their order.
    choose! pick picked using fun f hf => ih f hf (given.below f.1)
    refine ⟨.record ((fs.filter fun f => given [f.1]).map fun f => (f.1, pick f)), .record ?_ ?_⟩
    · intro f hf
      have names : ((fs.filter fun f => given [f.1]).map fun f => (f.1, pick f)).map Prod.fst =
          (fs.map Prod.fst).filter fun name => given [name] := by
        simp [List.filter_map, Function.comp_def]
      rw [names]
      by_cases isGiven : given [f.1]
      · rw [List.count_filter (p := fun name => given [name]) isGiven, if_pos isGiven]
        exact List.count_eq_one_of_mem nodup (List.mem_map_of_mem hf)
      · rw [if_neg isGiven]
        refine List.count_eq_zero.2 fun present => ?_
        exact isGiven (List.mem_filter.1 present).2
    · intro f hf g hg name
      obtain ⟨f', hf', rfl⟩ := List.mem_map.1 hg
      rw [List.inj_on_of_nodup_map nodup (List.mem_filter.1 hf').1 hf name]
      exact picked f hf

/-- A text, or that there is none, in the form in which it is written. -/
theorem getD_text_ne_record (s : Option String) :
    ∀ fs, (s.map Node.text).getD .null ≠ .record fs := by
  cases s <;> simp

end Node

/-! ### Restricted configurations -/

/-- A module configuration with its defaults for what is not given. -/
def ModuleConfig.restrict (given : Choice) (c : ModuleConfig) : ModuleConfig where
  stackSize := if given ["stack_size"] then c.stackSize else ({} : ModuleConfig).stackSize
  heapSize := if given ["heap_size"] then c.heapSize else ({} : ModuleConfig).heapSize

/-- A runtime configuration with its defaults for what is not given. -/
def RuntimeConfig.restrict (given : Choice) (c : RuntimeConfig) : RuntimeConfig where
  heapSizeBytes :=
    if given ["heap_size_bytes"] then c.heapSizeBytes else ({} : RuntimeConfig).heapSizeBytes
  maxWasmStack :=
    if given ["max_wasm_stack"] then c.maxWasmStack else ({} : RuntimeConfig).maxWasmStack
  maxBytecodeSize :=
    if given ["max_bytecode_size"] then c.maxBytecodeSize else ({} : RuntimeConfig).maxBytecodeSize
  module := if given ["module"] then c.module.restrict (given.below "module") else {}
  execStackSize :=
    if given ["exec_stack_size"] then c.execStackSize else ({} : RuntimeConfig).execStackSize

/-- A run configuration with its defaults for what is not given. -/
def RunConfig.restrict (given : Choice) (c : RunConfig) : RunConfig where
  repetitions := if given ["repeat"] then c.repetitions else ({} : RunConfig).repetitions
  threshold := if given ["threshold"] then c.threshold else ({} : RunConfig).threshold
  eventId := if given ["event_id"] then c.eventId else ({} : RunConfig).eventId
  eventPayload := if given ["event_payload"] then c.eventPayload else ({} : RunConfig).eventPayload
  printHeader := if given ["print_header"] then c.printHeader else ({} : RunConfig).printHeader

/-- The contents of a configuration file with their defaults for what is not given. -/
def ConfigFile.restrict (given : Choice) (c : ConfigFile) : ConfigFile where
  runtime := if given ["runtime"] then c.runtime.restrict (given.below "runtime") else {}
  run := if given ["run"] then c.run.restrict (given.below "run") else {}

/-! ### Reading entries -/

/-- How a record with these fields written out is filled in, entry by entry: with the entries read
so far, it is the value restricted to them. -/
structure Fills (fields : List (Field α)) (written : List (String × Node)) (restrict : Choice → α)
    (start : α) : Prop where
  names : fields.map Field.name = written.map Prod.fst
  begins : ∀ given, restrict (Choice.among given []) = start
  sets : ∀ (given : Choice) (seen : List String) (f : String × Node) (m : Node), f ∈ written →
    f.1 ∉ seen → given [f.1] → Node.Selects (given.below f.1) f.2 m →
    setNamed fields (restrict (given.among seen)) (f.1, m) =
      some (restrict (given.among (f.1 :: seen)))
  passes : ∀ (given : Choice) (seen : List String) (name : String),
    name ∉ written.map Prod.fst →
    restrict (given.among (name :: seen)) = restrict (given.among seen)
  ends : ∀ (given : Choice) (seen : List String),
    (∀ name ∈ written.map Prod.fst, given [name] = decide (name ∈ seen)) →
    restrict (given.among seen) = restrict given

section Fills

variable {fields : List (Field α)} {written entries : List (String × Node)}
  {restrict : Choice → α} {start : α} {given : Choice}

/-- Fields of names that are not known are passed over. -/
theorem setNamed_unknown (a : α) {entry : String × Node}
    (unknown : entry.1 ∉ fields.map Field.name) : setNamed fields a entry = some a := by
  have absent : fields.find? (fun f => f.name = entry.1) = none := by
    rw [List.find?_eq_none]
    intro f hf name
    exact unknown (List.mem_map.2 ⟨f, hf, of_decide_eq_true name⟩)
  rw [setNamed, absent]

/-- After some entries, the value is restricted to these. -/
theorem Fills.foldlM_setNamed (fills : Fills fields written restrict start) (seen : List String)
    (once : ∀ f ∈ written, ((entries.map Prod.fst).count f.1 ≤ if f.1 ∈ seen then 0 else 1))
    (isGiven : ∀ f ∈ written, f.1 ∈ entries.map Prod.fst → given [f.1])
    (same : ∀ f ∈ written, ∀ g ∈ entries, g.1 = f.1 → Node.Selects (given.below f.1) f.2 g.2) :
    entries.foldlM (setNamed fields) (restrict (given.among seen)) =
      some (restrict (given.among ((entries.map Prod.fst).reverse ++ seen))) := by
  -- `seen` are the names of the entries before; a known one of them does not come again.
  induction entries generalizing seen with
  | nil => rfl
  | cons entry entries ih =>
    obtain ⟨name, m⟩ := entry
    have step : setNamed fields (restrict (given.among seen)) (name, m) =
        some (restrict (given.among (name :: seen))) := by
      by_cases known : name ∈ written.map Prod.fst
      · obtain ⟨f, hf, rfl⟩ := List.mem_map.1 known
        have fresh : f.1 ∉ seen := by
          intro old
          have := once f hf
          simp [old] at this
        exact fills.sets given seen f m hf fresh (isGiven f hf (by simp))
          (same f hf (f.1, m) (by simp) rfl)
      · rw [setNamed_unknown _ (by rwa [fills.names]), fills.passes given seen name known]
    have rest := ih (name :: seen) ?_ ?_ ?_
    · rw [List.foldlM_cons, step]
      simpa using rest
    · intro f hf
      have := once f hf
      rw [List.map_cons, List.count_cons] at this
      by_cases here : f.1 = name
      · subst here
        by_cases old : f.1 ∈ seen <;> simp [old] at this ⊢
        exact this
      · simpa [here, Ne.symm here] using this
    · exact fun f hf present => isGiven f hf (List.mem_cons_of_mem _ present)
    · exact fun f hf g hg => same f hf g (List.mem_cons_of_mem _ hg)

/-- **Selections.** A record that holds just the given fields reads as the value with its defaults
for the others, whatever is done about surplus values of lists. -/
theorem Fills.readFields (fills : Fills fields written restrict start) (surplus : Surplus)
    {n : Node} (selects : Node.Selects given (.record written) n) :
    readFields surplus fields start n = some (restrict given) := by
  cases selects with
  | whole leaf => exact absurd rfl (leaf _)
  | @record _ _ gs once same =>
    have atMostOnce : namedOnce fields gs = true := by
      rw [namedOnce, decide_eq_true_eq, List.nodup_iff_count_le_one]
      intro name
      by_cases known : fields.any fun f => f.name = name
      · rw [List.count_filter (p := fun k => fields.any fun f => f.name = k) known]
        have : name ∈ written.map Prod.fst := by
          rw [← fills.names]
          simpa using known
        obtain ⟨f, hf, rfl⟩ := List.mem_map.1 this
        rw [once f hf]
        split <;> omega
      · rw [List.count_eq_zero_of_not_mem]
        · omega
        · intro present
          exact known (List.mem_filter.1 present).2
    -- Given are exactly the known names that occur.
    have counted : ∀ f ∈ written, given [f.1] = decide (f.1 ∈ gs.map Prod.fst) := by
      intro f hf
      have := once f hf
      by_cases isGiven : given [f.1]
      · rw [if_pos isGiven] at this
        rw [isGiven, eq_comm, decide_eq_true_eq]
        exact List.count_pos_iff.1 (by omega)
      · rw [if_neg isGiven] at this
        rw [Bool.eq_false_iff.2 isGiven, eq_comm, decide_eq_false_iff_not]
        exact List.count_eq_zero.1 this
    rw [Embedder.readFields, if_pos atMostOnce, ← fills.begins given]
    rw [fills.foldlM_setNamed [] ?_ ?_ same]
    · refine congrArg some (fills.ends given _ fun name hname => ?_)
      obtain ⟨f, hf, rfl⟩ := List.mem_map.1 hname
      rw [counted f hf]
      simp only [List.append_nil, List.mem_reverse]
    · intro f hf
      rw [once f hf]
      split <;> simp
    · intro f hf present
      rw [counted f hf]
      exact decide_eq_true present

end Fills

/-! ### The configurations -/

namespace Node

@[simp] theorem uint32?_integer (v : UInt32) : (Node.integer v.toNat).uint32? = some v := by
  have below : v.toNat < 2 ^ (32 : Nat) := v.toNat_lt
  have fits : 0 ≤ (v.toNat : Int) ∧ (v.toNat : Int) < 2 ^ (32 : Nat) := by omega
  rw [uint32?, nat?, if_pos fits]
  simp

@[simp] theorem uint64?_integer (v : UInt64) : (Node.integer v.toNat).uint64? = some v := by
  have below : v.toNat < 2 ^ (64 : Nat) := v.toNat_lt
  have fits : 0 ≤ (v.toNat : Int) ∧ (v.toNat : Int) < 2 ^ (64 : Nat) := by omega
  rw [uint64?, nat?, if_pos fits]
  simp

@[simp] theorem optionalText?_getD (s : Option String) :
    ((s.map Node.text).getD .null).optionalText? = some s := by
  cases s <;> rfl

end Node

/-- A module configuration is filled in from any of its fields, in any order. -/
theorem ModuleConfig.fills (c : ModuleConfig) :
    Fills fields c.toNode.entries (fun given => c.restrict given) {} where
  names := rfl
  begins given := rfl
  sets given seen f m hf fresh isGiven selects := by
    simp only [toNode, Node.entries, List.mem_cons, List.not_mem_nil, or_false] at hf
    rcases hf with rfl | rfl
    all_goals
      cases selects.eq_of_leaf (by simp)
      simp_all [setNamed, fields, Field.of, restrict]
  passes given seen name unknown := by
    simp only [toNode, Node.entries, List.map_cons, List.map_nil, List.mem_cons, List.not_mem_nil,
      or_false, not_or] at unknown
    simp [restrict, Ne.symm unknown.1, Ne.symm unknown.2]
  ends given seen agree := by
    simp_all [toNode, Node.entries, restrict]

/-- Read from a selection of its fields, a module configuration has defaults for the others. -/
theorem ModuleConfig.ofNode?_of_selects (c : ModuleConfig) {given : Choice} {n : Node}
    (surplus : Surplus) (selects : Node.Selects given c.toNode n) :
    ofNode? surplus {} n = some (c.restrict given) :=
  c.fills.readFields surplus selects

/-- A runtime configuration is filled in likewise, and so is the module configuration in it. -/
theorem RuntimeConfig.fills (c : RuntimeConfig) (surplus : Surplus) :
    Fills (fields surplus) c.toNode.entries (fun given => c.restrict given) {} where
  names := rfl
  begins given := rfl
  sets given seen f m hf fresh isGiven selects := by
    simp only [toNode, Node.entries, List.mem_cons, List.not_mem_nil, or_false] at hf
    rcases hf with rfl | rfl | rfl | rfl | rfl
    case inr.inr.inr.inl =>
      have read := c.module.ofNode?_of_selects surplus selects
      simp_all [setNamed, fields, Field.of, Field.nested, restrict]
    all_goals
      cases selects.eq_of_leaf (by simp)
      simp_all [setNamed, fields, Field.of, Field.nested, restrict]
  passes given seen name unknown := by
    simp_all [toNode, Node.entries, restrict, Ne.symm]
  ends given seen agree := by
    simp_all [toNode, Node.entries, restrict]

/-- Read from a selection of its fields, a runtime configuration has defaults for the others. -/
theorem RuntimeConfig.ofNode?_of_selects (c : RuntimeConfig) {given : Choice} {n : Node}
    (surplus : Surplus) (selects : Node.Selects given c.toNode n) :
    ofNode? surplus {} n = some (c.restrict given) :=
  (c.fills surplus).readFields surplus selects

/-- A run configuration is filled in likewise. -/
theorem RunConfig.fills (c : RunConfig) :
    Fills fields c.toNode.entries (fun given => c.restrict given) {} where
  names := rfl
  begins given := rfl
  sets given seen f m hf fresh isGiven selects := by
    simp only [toNode, Node.entries, List.mem_cons, List.not_mem_nil, or_false] at hf
    rcases hf with rfl | rfl | rfl | rfl | rfl
    case inr.inr.inr.inr =>
      cases selects.eq_of_leaf (Node.getD_text_ne_record c.printHeader)
      simp_all [setNamed, fields, Field.of, restrict]
    all_goals
      cases selects.eq_of_leaf (by simp)
      simp_all [setNamed, fields, Field.of, restrict, Node.text?]
  passes given seen name unknown := by
    simp_all [toNode, Node.entries, restrict, Ne.symm]
  ends given seen agree := by
    simp_all [toNode, Node.entries, restrict]

/-- Read from a selection of its fields, a run configuration has defaults for the others. -/
theorem RunConfig.ofNode?_of_selects (c : RunConfig) {given : Choice} {n : Node} (surplus : Surplus)
    (selects : Node.Selects given c.toNode n) : ofNode? surplus {} n = some (c.restrict given) :=
  c.fills.readFields surplus selects

/-- A configuration file is filled in from any of its tables. -/
theorem ConfigFile.fills (c : ConfigFile) (surplus : Surplus) :
    Fills (fields surplus) c.toNode.entries (fun given => c.restrict given) {} where
  names := rfl
  begins given := rfl
  sets given seen f m hf fresh isGiven selects := by
    simp only [toNode, Node.entries, List.mem_cons, List.not_mem_nil, or_false] at hf
    rcases hf with rfl | rfl
    · have read := c.runtime.ofNode?_of_selects surplus selects
      simp_all [setNamed, fields, Field.nested, restrict]
    · have read := c.run.ofNode?_of_selects surplus selects
      simp_all [setNamed, fields, Field.nested, restrict]
  passes given seen name unknown := by
    simp_all [toNode, Node.entries, restrict, Ne.symm]
  ends given seen agree := by
    simp_all [toNode, Node.entries, restrict]

/-- Read from a selection of its keys, a configuration file has defaults for the others. -/
theorem ConfigFile.ofNode?_of_selects (c : ConfigFile) {given : Choice} {n : Node}
    (surplus : Surplus) (selects : Node.Selects given c.toNode n) :
    ofNode? surplus {} n = some (c.restrict given) :=
  (c.fills surplus).readFields surplus selects

/-! ### Texts -/

section Full

variable {given : Choice} (full : given.Full)
include full

/-- Where everything is given, a module configuration needs no defaults. -/
theorem ModuleConfig.restrict_of_full (c : ModuleConfig) : c.restrict given = c := by
  simp [restrict, full _ _]

/-- Nor does a runtime configuration. -/
theorem RuntimeConfig.restrict_of_full (c : RuntimeConfig) : c.restrict given = c := by
  simp [restrict, full _ _, c.module.restrict_of_full (full.below _)]

/-- Nor does a run configuration. -/
theorem RunConfig.restrict_of_full (c : RunConfig) : c.restrict given = c := by
  simp [restrict, full _ _]

/-- Nor does a configuration file. -/
theorem ConfigFile.restrict_of_full (c : ConfigFile) : c.restrict given = c := by
  simp [restrict, full _ _, c.runtime.restrict_of_full (full.below _),
    c.run.restrict_of_full (full.below _)]

end Full

/-- The fields of a module configuration have different names. -/
theorem ModuleConfig.distinct_toNode (c : ModuleConfig) : c.toNode.Distinct := by
  refine .record (by simp) ?_
  simp only [List.forall_mem_cons, List.not_mem_nil, false_implies, implies_true, and_true]
  exact ⟨.leaf (by simp), .leaf (by simp)⟩

/-- So have those of a runtime configuration. -/
theorem RuntimeConfig.distinct_toNode (c : RuntimeConfig) : c.toNode.Distinct := by
  refine .record (by simp) ?_
  simp only [List.forall_mem_cons, List.not_mem_nil, false_implies, implies_true, and_true]
  exact ⟨.leaf (by simp), .leaf (by simp), .leaf (by simp), c.module.distinct_toNode,
    .leaf (by simp)⟩

/-- So have those of a run configuration. -/
theorem RunConfig.distinct_toNode (c : RunConfig) : c.toNode.Distinct := by
  refine .record (by simp) ?_
  simp only [List.forall_mem_cons, List.not_mem_nil, false_implies, implies_true, and_true]
  exact ⟨.leaf (by simp), .leaf (by simp), .leaf (by simp), .leaf (by simp),
    .leaf (Node.getD_text_ne_record _)⟩

/-- So have the keys of a configuration file, in each of its tables. -/
theorem ConfigFile.distinct_toNode (c : ConfigFile) : c.toNode.Distinct := by
  refine .record (by simp) ?_
  simp only [List.forall_mem_cons, List.not_mem_nil, false_implies, implies_true, and_true]
  exact ⟨c.runtime.distinct_toNode, c.run.distinct_toNode⟩

/-- What reading the texts of some configuration gives back. -/
structure RoundTrips (toNode : α → Node) (ofJson? : String → Option α)
    (restrict : Choice → α → α) : Prop where
  /-- What is written for a value is read as that value. -/
  whole : ∀ c, ofJson? (Json.write (toNode c)) = some c
  /-- Any fields of a value may be given, in any order and in any spelling. They are read as the
  value with its defaults for the others. -/
  partly : ∀ c given, (∃ n, Node.Selects given (toNode c) n) ∧
    ∀ n text, Node.Selects given (toNode c) n → Json.Spelled text n →
      ofJson? text = some (restrict given c)

/-- Texts are read back, as soon as the nodes are that they spell. -/
theorem RoundTrips.of_selects {toNode : α → Node} {ofNode? : Node → Option α}
    {ofJson? : String → Option α} {restrict : Choice → α → α}
    (reads : ∀ text, ofJson? text = (Json.read? text).bind ofNode?)
    (distinct : ∀ c, (toNode c).Distinct)
    (selects : ∀ c given n, Node.Selects given (toNode c) n → ofNode? n = some (restrict given c))
    (full : ∀ c given, Choice.Full given → restrict given c = c) :
    RoundTrips toNode ofJson? restrict := by
  have spelled : ∀ c given n text, Node.Selects given (toNode c) n → Json.Spelled text n →
      ofJson? text = some (restrict given c) := by
    intro c given n text chosen spelled
    rw [reads, Json.read?_of_spelled spelled, Option.bind_some]
    exact selects c given n chosen
  refine ⟨fun c => ?_, fun c given => ⟨(distinct c).exists_selects given, spelled c given⟩⟩
  have all : Choice.Full fun _ => true := fun _ _ => rfl
  rw [spelled c _ _ _ ((distinct c).selects_self all) (Json.spelled_write _), full c _ all]

/-- **Round trip.** Every configuration is read back from the text that is written for it, and from
every text of some of its fields, with the defaults for the others. -/
theorem json_round_trips :
    RoundTrips ModuleConfig.toNode ModuleConfig.ofJson? ModuleConfig.restrict ∧
    RoundTrips RuntimeConfig.toNode RuntimeConfig.ofJson? RuntimeConfig.restrict ∧
    RoundTrips RunConfig.toNode RunConfig.ofJson? RunConfig.restrict ∧
    RoundTrips ConfigFile.toNode ConfigFile.ofJson? ConfigFile.restrict := by
  refine ⟨?_, ?_, ?_, ?_⟩
  · exact .of_selects (fun _ => rfl) ModuleConfig.distinct_toNode
      (fun c _ _ selects => c.ofNode?_of_selects .refused selects) fun c _ => c.restrict_of_full
  · exact .of_selects (fun _ => rfl) RuntimeConfig.distinct_toNode
      (fun c _ _ selects => c.ofNode?_of_selects .refused selects) fun c _ => c.restrict_of_full
  · exact .of_selects (fun _ => rfl) RunConfig.distinct_toNode
      (fun c _ _ selects => c.ofNode?_of_selects .refused selects) fun c _ => c.restrict_of_full
  · exact .of_selects (fun _ => rfl) ConfigFile.distinct_toNode
      (fun c _ _ selects => c.ofNode?_of_selects .refused selects) fun c _ => c.restrict_of_full

end Embedder
