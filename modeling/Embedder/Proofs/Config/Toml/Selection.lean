import Mathlib.Data.List.Infix
import Embedder.Config.File
import Embedder.Proofs.Config.Selection
import Embedder.Proofs.Config.Toml.Validity
import Embedder.Proofs.Text.Utf8

namespace Embedder

/-!
# Configuration files in TOML

A text in TOML gives any of the keys of a configuration file: its tables and the keys in each in any
order, with others between them. It is read as the configuration with its defaults for the keys that
are not given, because the tables hold what the lines say and nothing else. A text that gives
something twice, or a number that its field cannot have, is not read at all.

* `ConfigFile.leaves`, `ConfigFile.paths`: the keys of a configuration file.
* `ConfigFile.Gives`: a document that gives the chosen ones.
* `ConfigFile.Faulty`: a document that gives too much.
* `ConfigFile.reads_toml`: texts.
-/

-- Powers are those of the core library, whatever else is imported.
attribute [local instance (1100)] instPowNat

/-- With whatever is given, all that leads there is given. -/
def Choice.Closed (given : Choice) : Prop :=
  ∀ path p, p <+: path → p ≠ [] → given path → given p

namespace ConfigFile

/-- The tables of a configuration file. -/
def tables : List (List String) :=
  [["runtime"], ["runtime", "module"], ["run"]]

/-- The keys of a configuration file that are no tables, with their values. -/
def leaves (c : ConfigFile) : List (List String × Node) :=
  [(["runtime", "heap_size_bytes"], .integer c.runtime.heapSizeBytes.toNat),
    (["runtime", "max_wasm_stack"], .integer c.runtime.maxWasmStack.toNat),
    (["runtime", "max_bytecode_size"], .integer c.runtime.maxBytecodeSize.toNat),
    (["runtime", "exec_stack_size"], .integer c.runtime.execStackSize.toNat),
    (["runtime", "module", "stack_size"], .integer c.runtime.module.stackSize.toNat),
    (["runtime", "module", "heap_size"], .integer c.runtime.module.heapSize.toNat),
    (["run", "repeat"], .integer c.run.repetitions.toNat),
    (["run", "threshold"], .integer c.run.threshold.toNat),
    (["run", "event_id"], .text c.run.eventId),
    (["run", "event_payload"], .text c.run.eventPayload),
    (["run", "print_header"], (c.run.printHeader.map Node.text).getD .null)]

/-- The names of the keys that are no tables. -/
def leafPaths : List (List String) :=
  (leaves {}).map Prod.fst

/-- The names of all tables and keys. -/
def paths : List (List String) :=
  tables ++ leafPaths

/-- Names that lead to nothing known: in a known table, they go on with an unknown name. -/
def Strays (path : List String) : Prop :=
  ∃ p ∈ [] :: tables, ∃ k, p ++ [k] ∉ paths ∧ p ++ [k] <+: path

/-- A valid document gives the chosen keys of a configuration file with their values, and besides
only unknown ones. -/
structure Gives (c : ConfigFile) (given : Choice) (doc : Toml.Document) : Prop where
  valid : doc.Valid
  headers : ∀ s ∈ doc.sections, s.header ∈ tables ∨ Strays s.header
  entries : ∀ s ∈ doc.parts, ∀ e ∈ s.entries,
    (s.header ++ e.1, e.2) ∈ c.leaves ∨ Strays (s.header ++ e.1)
  chosen : ∀ path ∈ paths, given path ↔ doc.Reaches path

/-! ### Known names -/

theorem map_fst_leaves (c : ConfigFile) : c.leaves.map Prod.fst = leafPaths := rfl

/-- A key with its value has the name of a key. -/
theorem mem_leafPaths {c : ConfigFile} {leaf : List String × Node} (mem : leaf ∈ c.leaves) :
    leaf.1 ∈ leafPaths := by
  rw [← c.map_fst_leaves]
  exact List.mem_map_of_mem mem

/-- Keys have different names. -/
theorem nodup_leafPaths : leafPaths.Nodup := by decide

/-- Everything known has a name. -/
theorem ne_nil_of_mem_paths : ∀ path ∈ paths, path ≠ [] := by decide

/-- No key is on the way to a table. -/
theorem not_prefix_table : ∀ leaf ∈ leafPaths, ∀ table ∈ [] :: tables, ¬ leaf <+: table := by decide

/-- No key is on the way to another one. -/
theorem eq_of_prefix_leaf :
    ∀ leaf ∈ leafPaths, ∀ leaf' ∈ leafPaths, leaf <+: leaf' → leaf = leaf' := by decide

/-- All tables that known names lead through are known. -/
theorem prefix_mem_paths {path p : List String} (known : path ∈ paths) (under : p <+: path)
    (nonempty : p ≠ []) : p ∈ paths := by
  have all : ∀ path ∈ paths, ∀ p ∈ path.inits, p = [] ∨ p ∈ paths := by decide
  exact (all path known p ((List.mem_inits _ _).2 under)).resolve_left nonempty

/-- What is known does not stray. -/
theorem not_strays_of_mem_paths {path : List String} (known : path ∈ paths) : ¬ Strays path := by
  rintro ⟨p, -, k, unknown, under⟩
  exact unknown (prefix_mem_paths known under (by simp))

/-- Nothing unknown is under a key that is no table. -/
theorem not_strays_of_leaf {leaf path : List String} (known : leaf ∈ leafPaths)
    (under : leaf <+: path) : ¬ Strays path := by
  rintro ⟨p, table, k, unknown, along⟩
  have isPath : leaf ∈ paths := List.mem_append_right _ known
  rcases List.prefix_or_prefix_of_prefix under along with before | after
  · rcases List.prefix_concat_iff.1 (by simpa using before) with same | before
    · exact unknown (by simpa [← same] using isPath)
    · exact not_prefix_table leaf known p table before
  · exact unknown (prefix_mem_paths isPath after (by simp))

/-! ### What the tables hold -/

section Gives

variable {c : ConfigFile} {given : Choice} {doc : Toml.Document} {t : Toml.Entries}
  (gives : c.Gives given doc) (denotes : doc.Denotes t)
include gives denotes

/-- A known name that is not chosen is not there. -/
theorem Gives.item?_eq_none {path : List String} (known : path ∈ paths) (absent : ¬ given path) :
    t.item? path = none := by
  rw [Option.eq_none_iff_forall_ne_some]
  intro i found
  exact absent ((gives.chosen path known).2 (denotes.only path (by simp [found])))

/-- Under a chosen key that is no table, there is its value. -/
theorem Gives.item?_leaf {path : List String} {n : Node} (leaf : (path, n) ∈ c.leaves)
    (isGiven : given path) : t.item? path = some (.value n) := by
  have known := mem_leafPaths leaf
  obtain ⟨s, part, along⟩ := (gives.chosen path (List.mem_append_right _ known)).1 isGiven
  rcases along with along | ⟨e, mem, along⟩
  · -- No header leads to it.
    rcases List.mem_cons.1 part with rfl | section_
    · exact absurd along (not_prefix_table path known [] (by simp))
    · rcases gives.headers s section_ with table | strays
      · exact absurd along (not_prefix_table path known _ (List.mem_cons_of_mem _ table))
      · exact absurd strays (not_strays_of_leaf known along)
  · rcases gives.entries s part e mem with entry | strays
    · have same := eq_of_prefix_leaf path known _ (mem_leafPaths entry) along
      have nodup : (c.leaves.map Prod.fst).Nodup := nodup_leafPaths
      obtain ⟨-, rfl⟩ := Prod.mk.inj (List.inj_on_of_nodup_map nodup leaf entry same)
      rw [same]
      exact Toml.Entries.mark?_eq_value (denotes.values s part e mem)
    · exact absurd strays (not_strays_of_leaf known along)

/-- Under the name of a chosen table, there is a table. -/
theorem Gives.item?_table {path : List String} (table : path ∈ tables) (isGiven : given path) :
    ∃ o u, t.item? path = some (.table o u) := by
  have known : path ∈ paths := List.mem_append_left _ table
  have nonempty := ne_nil_of_mem_paths path known
  -- The table is on the way to something that the document gives: a header, or the key of a
  -- value.
  obtain ⟨s, part, along⟩ := (gives.chosen path known).1 isGiven
  rcases along with along | ⟨e, mem, along⟩
  · rcases List.mem_cons.1 part with rfl | section_
    · exact absurd (List.prefix_nil.1 along) nonempty
    · obtain ⟨u, found⟩ := Toml.Entries.mark?_eq_table (denotes.headers s section_)
      rcases Toml.Entries.item?_of_prefix found along nonempty with rfl | inner
      · exact ⟨_, u, found⟩
      · exact inner
  · have found := Toml.Entries.mark?_eq_value (denotes.values s part e mem)
    rcases Toml.Entries.item?_of_prefix found along nonempty with same | inner
    · rcases gives.entries s part e mem with entry | strays
      · have leaf := mem_leafPaths entry
        rw [← same] at leaf
        exact absurd (List.prefix_refl path)
          (not_prefix_table path leaf path (List.mem_cons_of_mem _ table))
      · rw [← same] at strays
        exact absurd strays (not_strays_of_mem_paths known)
    · exact inner

end Gives

end ConfigFile

/-! ### Selections -/

namespace Toml.Entries

/-- The nodes of a table are those of its entries. -/
theorem nodesOf_eq_map (t : Entries) : nodesOf t = t.map fun e => (e.1, e.2.toNode) := by
  induction t with
  | nil => rfl
  | cons e t ih =>
    obtain ⟨k, i⟩ := e
    rw [nodesOf, ih]
    rfl

/-- What is found under a name is an entry of that name. -/
theorem mem_of_get? {t : Entries} {k : String} {i : Item} (found : t.get? k = some i) :
    (k, i) ∈ t := by
  induction t with
  | nil => cases found
  | cons e t ih =>
    obtain ⟨q, j⟩ := e
    rw [get?_cons] at found
    split at found
    next same =>
      cases found
      subst same
      exact List.mem_cons_self
    next => exact List.mem_cons_of_mem _ (ih found)

/-- An entry is found under its name, as no other one has it. -/
theorem get?_of_mem {t : Entries} (nodup : (t.map Prod.fst).Nodup) {k : String} {i : Item}
    (mem : (k, i) ∈ t) : t.get? k = some i := by
  cases found : t.get? k with
  | none => exact absurd (List.mem_map_of_mem mem) (get?_eq_none_iff.1 found)
  | some j =>
    have same := List.inj_on_of_nodup_map nodup (mem_of_get? found) mem rfl
    exact congrArg some (Prod.mk.inj same).2

/-- A table that holds just the given fields, as far as they are known, selects them. -/
theorem selects {given : Choice} {fs : List (String × Node)} {t : Entries}
    (nodup : (t.map Prod.fst).Nodup)
    (absent : ∀ f ∈ fs, ¬ given [f.1] → t.get? f.1 = none)
    (same : ∀ f ∈ fs, given [f.1] →
      ∃ i, t.get? f.1 = some i ∧ Node.Selects (given.below f.1) f.2 i.toNode) :
    Node.Selects given (.record fs) (.record (nodesOf t)) := by
  have names : (nodesOf t).map Prod.fst = t.map Prod.fst := by
    rw [nodesOf_eq_map, List.map_map]
    rfl
  -- A field is there once if it is given, and not at all otherwise.
  refine .record (fun f mem => ?_) fun f mem g inside name => ?_
  · rw [names]
    by_cases isGiven : given [f.1]
    · obtain ⟨i, found, -⟩ := same f mem isGiven
      rw [if_pos isGiven]
      exact List.count_eq_one_of_mem nodup (List.mem_map_of_mem (mem_of_get? found))
    · rw [if_neg isGiven]
      exact List.count_eq_zero.2 (get?_eq_none_iff.1 (absent f mem isGiven))
  · rw [nodesOf_eq_map] at inside
    obtain ⟨e, held, rfl⟩ := List.mem_map.1 inside
    have found : t.get? f.1 = some e.2 := get?_of_mem nodup (by rw [← name]; exact held)
    by_cases isGiven : given [f.1]
    · obtain ⟨i, found', selects⟩ := same f mem isGiven
      cases found.symm.trans found'
      exact selects
    · cases found.symm.trans (absent f mem isGiven)

end Toml.Entries

namespace ConfigFile

section Selects

variable {c : ConfigFile} {given : Choice} {doc : Toml.Document} {t : Toml.Entries}
  (gives : c.Gives given doc) (denotes : doc.Denotes t)
include gives denotes

/-- The table under some names selects the chosen ones of its keys. -/
theorem Gives.selects_table (path : List String) {u : Toml.Entries}
    (nodup : (u.map Prod.fst).Nodup) (inside : ∀ k, t.item? (path ++ [k]) = u.get? k)
    {given' : Choice} (same : ∀ k, given' [k] = given (path ++ [k])) {fs : List (String × Node)}
    (each : ∀ f ∈ fs, (path ++ [f.1], f.2) ∈ c.leaves ∧ (∀ gs, f.2 ≠ .record gs) ∨
      path ++ [f.1] ∈ tables ∧ ∀ o v, u.get? f.1 = some (.table o v) →
        Node.Selects (given'.below f.1) f.2 (.record (Toml.nodesOf v))) :
    Node.Selects given' (.record fs) (.record (Toml.nodesOf u)) := by
  -- Below the table, fields are given as the longer names are.
  refine Toml.Entries.selects nodup (fun f mem absent => ?_) fun f mem isGiven => ?_
  · rw [same] at absent
    rw [← inside]
    refine gives.item?_eq_none denotes ?_ absent
    rcases each f mem with ⟨leaf, -⟩ | ⟨table, -⟩
    · exact List.mem_append_right _ (mem_leafPaths leaf)
    · exact List.mem_append_left _ table
  · rw [same] at isGiven
    rcases each f mem with ⟨leaf, whole⟩ | ⟨table, inner⟩
    · exact ⟨_, (inside _).symm.trans (gives.item?_leaf denotes leaf isGiven), .whole whole⟩
    · obtain ⟨o, v, found⟩ := gives.item?_table denotes table isGiven
      rw [inside] at found
      exact ⟨_, found, inner o v found⟩

/-- The tables of a document that gives the chosen keys select these. -/
theorem Gives.selects : Node.Selects given c.toNode t.toNode := by
  have proper := denotes.proper
  -- From the innermost table outwards, each selects what is given of it.
  have run : ∀ o v, t.get? "run" = some (.table o v) →
      Node.Selects (given.below "run") c.run.toNode (.record (Toml.nodesOf v)) := by
    intro o v found
    refine gives.selects_table denotes ["run"] (proper.plain ["run"] _ found)
      (fun k => by simp [Toml.Entries.item?, found]) (fun _ => rfl) ?_
    simp [leaves, Node.getD_text_ne_record]
  have module : ∀ o v o' w, t.get? "runtime" = some (.table o v) →
      Toml.Entries.get? v "module" = some (.table o' w) →
      Node.Selects ((given.below "runtime").below "module") c.runtime.module.toNode
        (.record (Toml.nodesOf w)) := by
    intro o v o' w outer found
    have inner : t.item? ["runtime", "module"] = some (.table o' w) := by
      simp [Toml.Entries.item?, outer, found]
    refine gives.selects_table denotes ["runtime", "module"] (proper.plain _ _ inner)
      (fun k => by simp [Toml.Entries.item?, outer, found]) (fun _ => rfl) ?_
    simp [leaves]
  have runtime : ∀ o v, t.get? "runtime" = some (.table o v) →
      Node.Selects (given.below "runtime") c.runtime.toNode (.record (Toml.nodesOf v)) := by
    intro o v found
    refine gives.selects_table denotes ["runtime"] (proper.plain ["runtime"] _ found)
      (fun k => by simp [Toml.Entries.item?, found]) (fun _ => rfl) ?_
    simpa [leaves, tables] using fun o' w => module o v o' w found
  refine gives.selects_table denotes [] proper.nodup (fun _ => rfl) (fun _ => rfl) ?_
  exact List.forall_mem_cons.2 ⟨.inr ⟨by simp [tables], runtime⟩,
    List.forall_mem_cons.2 ⟨.inr ⟨by simp [tables], run⟩, by simp⟩⟩

end Selects

/-- A text that gives the chosen keys is read as the configuration with its defaults for the
others. -/
theorem Gives.ofToml? {c : ConfigFile} {given : Choice} {doc : Toml.Document} {text : String}
    (gives : c.Gives given doc) (spelled : Toml.Spelled text doc) :
    ofToml? text = some (c.restrict given) := by
  obtain ⟨t, accepted⟩ := gives.valid.exists_entries?
  have selects := gives.selects (Toml.denotes_of_entries? accepted)
  have read := c.ofNode?_of_selects .ignored selects
  rw [ConfigFile.ofToml?, Toml.read?_of_spelled spelled, accepted]
  exact read

/-! ### Faulty documents -/

/-- The keys of numbers, and how many bits each may have. -/
def widths : List (List String × Nat) :=
  [(["runtime", "heap_size_bytes"], 64), (["runtime", "max_wasm_stack"], 32),
    (["runtime", "max_bytecode_size"], 64), (["runtime", "exec_stack_size"], 32),
    (["runtime", "module", "stack_size"], 32), (["runtime", "module", "heap_size"], 32),
    (["run", "repeat"], 32), (["run", "threshold"], 64)]

/-- A document that gives a table or a key twice, or a number that its field cannot have. -/
inductive Faulty (doc : Toml.Document) : Prop where
  | repeated (again : ¬ doc.places.Nodup)
  | outOfRange {s : Toml.Section} {e : List String × Node} {path : List String} {width : Nat}
    {v : Int} (part : s ∈ doc.parts) (mem : e ∈ s.entries) (field : (path, width) ∈ widths)
    (key : s.header ++ e.1 = path) (value : e.2 = .integer v)
    (outside : v < 0 ∨ 2 ^ width ≤ v)

end ConfigFile

/-- A record is refused with an entry that is refused whatever has been read before. -/
theorem readFields_eq_none {fields : List (Field α)} {entries : List (String × Node)}
    {entry : String × Node} (mem : entry ∈ entries)
    (refused : ∀ a, setNamed fields a entry = none) (surplus : Surplus) (a : α) :
    readFields surplus fields a (.record entries) = none := by
  have folded : ∀ a, entries.foldlM (setNamed fields) a = none := by
    induction entries with
    | nil => cases mem
    | cons e es ih =>
      intro a
      rw [List.foldlM_cons]
      rcases List.mem_cons.1 mem with rfl | later
      · rw [refused]
        rfl
      · cases setNamed fields a e with
        | none => rfl
        | some b => exact ih later b
  rw [readFields, folded, ite_self]

/-- An integer out of range is no number of that width. -/
theorem Node.nat?_eq_none {width : Nat} {v : Int} (outside : v < 0 ∨ 2 ^ width ≤ v) :
    (Node.integer v).nat? width = none := by
  rw [Node.nat?, if_neg]
  omega

/-- A table is refused with an item that is. -/
theorem readFields_nodesOf {fields : List (Field α)} {u : Toml.Entries} {k : String}
    {i : Toml.Item} (found : u.get? k = some i)
    (refused : ∀ a, setNamed fields a (k, i.toNode) = none) (a : α) :
    readFields .ignored fields a (.record (Toml.nodesOf u)) = none := by
  refine readFields_eq_none ?_ refused .ignored a
  rw [Toml.Entries.nodesOf_eq_map]
  exact List.mem_map_of_mem (Toml.Entries.mem_of_get? found)

namespace ConfigFile

section Refusal

variable {t : Toml.Entries} {k : String} {i : Toml.Item}

/-- A key that a run configuration refuses is refused in its table. -/
theorem ofNode?_of_run (found : t.item? ["run", k] = some i)
    (refused : ∀ a, setNamed RunConfig.fields a (k, i.toNode) = none) :
    ofNode? .ignored {} t.toNode = none := by
  obtain ⟨o, u, outer, inner⟩ := Toml.Entries.item?_cons_cons found
  have inside : ∀ a, RunConfig.ofNode? .ignored a (.record (Toml.nodesOf u)) = none :=
    readFields_nodesOf inner refused
  exact readFields_nodesOf outer
    (fun a => by simp [setNamed, fields, Field.nested, Toml.Item.toNode, inside]) _

/-- A key that a runtime configuration refuses is refused in its table. -/
theorem ofNode?_of_runtime (found : t.item? ["runtime", k] = some i)
    (refused : ∀ a, setNamed (RuntimeConfig.fields .ignored) a (k, i.toNode) = none) :
    ofNode? .ignored {} t.toNode = none := by
  obtain ⟨o, u, outer, inner⟩ := Toml.Entries.item?_cons_cons found
  have inside : ∀ a, RuntimeConfig.ofNode? .ignored a (.record (Toml.nodesOf u)) = none :=
    readFields_nodesOf inner refused
  exact readFields_nodesOf outer
    (fun a => by simp [setNamed, fields, Field.nested, Toml.Item.toNode, inside]) _

/-- A key that a module configuration refuses is refused in its table. -/
theorem ofNode?_of_module (found : t.item? ["runtime", "module", k] = some i)
    (refused : ∀ a, setNamed ModuleConfig.fields a (k, i.toNode) = none) :
    ofNode? .ignored {} t.toNode = none := by
  obtain ⟨o, u, outer, inner⟩ := Toml.Entries.item?_cons_cons found
  obtain ⟨o', w, middle, inner⟩ := Toml.Entries.item?_cons_cons inner
  have inside : ∀ a, ModuleConfig.ofNode? .ignored a (.record (Toml.nodesOf w)) = none :=
    readFields_nodesOf inner refused
  have reached : t.item? ["runtime", "module"] = some (.table o' w) := by
    simp [Toml.Entries.item?, outer, middle]
  exact ofNode?_of_runtime reached fun a => by
    simp [setNamed, RuntimeConfig.fields, Field.of, Field.nested, Toml.Item.toNode, inside]

/-- A number that its field cannot have is refused, wherever the tables of a document hold it. -/
theorem ofNode?_eq_none {path : List String} {width : Nat} {v : Int}
    (field : (path, width) ∈ widths) (outside : v < 0 ∨ 2 ^ width ≤ v)
    (found : t.item? path = some (.value (.integer v))) :
    ofNode? .ignored {} t.toNode = none := by
  have refused := Node.nat?_eq_none outside
  simp only [widths, List.mem_cons, Prod.mk.injEq, List.not_mem_nil, or_false] at field
  rcases field with ⟨rfl, rfl⟩ | ⟨rfl, rfl⟩ | ⟨rfl, rfl⟩ | ⟨rfl, rfl⟩ | ⟨rfl, rfl⟩ | ⟨rfl, rfl⟩ |
    ⟨rfl, rfl⟩ | ⟨rfl, rfl⟩
  case inl | inr.inl | inr.inr.inl | inr.inr.inr.inl =>
    exact ofNode?_of_runtime found fun a => by
      simp [setNamed, RuntimeConfig.fields, Field.of, Field.nested, Toml.Item.toNode,
        Node.uint32?, Node.uint64?, refused]
  case inr.inr.inr.inr.inl | inr.inr.inr.inr.inr.inl =>
    exact ofNode?_of_module found fun a => by
      simp [setNamed, ModuleConfig.fields, Field.of, Toml.Item.toNode, Node.uint32?, refused]
  all_goals
    exact ofNode?_of_run found fun a => by
      simp [setNamed, RunConfig.fields, Field.of, Toml.Item.toNode, Node.uint32?, Node.uint64?,
        refused]

end Refusal

/-- A text that gives too much is not read. -/
theorem Faulty.ofToml? {doc : Toml.Document} {text : String} (faulty : Faulty doc)
    (spelled : Toml.Spelled text doc) : ConfigFile.ofToml? text = none := by
  rw [ConfigFile.ofToml?, Toml.read?_of_spelled spelled]
  cases accepted : doc.entries? with
  | none => rfl
  | some t =>
    have denotes := Toml.denotes_of_entries? accepted
    cases faulty with
    | repeated again => exact absurd denotes.once again
    | outOfRange part mem field key value outside =>
      have found := Toml.Entries.mark?_eq_value (denotes.values _ part _ mem)
      rw [key, value] at found
      exact ofNode?_eq_none field outside found

/-! ### Every choice -/

/-- Numbers of 64 bits without a sign are no larger than those with one. -/
structure Fits (c : ConfigFile) : Prop where
  heapSizeBytes : c.runtime.heapSizeBytes.toNat ≤ 2 ^ (63 : Nat) - 1
  maxBytecodeSize : c.runtime.maxBytecodeSize.toNat ≤ 2 ^ (63 : Nat) - 1
  threshold : c.run.threshold.toNat ≤ 2 ^ (63 : Nat) - 1

/-- The chosen keys of a table, with their values. -/
def entriesOf (c : ConfigFile) (given : Choice) (table : List String) :
    List (List String × Node) :=
  (c.leaves.filter fun leaf => leaf.1.dropLast = table ∧ given leaf.1).map fun leaf =>
    (leaf.1.drop table.length, leaf.2)

/-- The document of the chosen tables and keys, all in the order in which they are known. -/
def documentOf (c : ConfigFile) (given : Choice) : Toml.Document where
  top := []
  sections := (tables.filter fun table => given table).map fun table =>
    ⟨table, c.entriesOf given table⟩

section Document

variable {c : ConfigFile} {given : Choice} {table : List String}

/-- A name is that of its table with one part more. -/
theorem eq_append_drop {path : List String} (nonempty : path ≠ []) (parent : path.dropLast = table) :
    ∃ k, path = table ++ [k] ∧ path.drop table.length = [k] := by
  refine ⟨path.getLast nonempty, ?_, ?_⟩
  · rw [← parent, List.dropLast_append_getLast]
  · rw [← parent]
    conv_lhs => rw [← List.dropLast_append_getLast nonempty]
    rw [List.dropLast_concat, List.drop_left]

/-- The entries of a table are the chosen keys in it. -/
theorem mem_entriesOf {e : List String × Node} :
    e ∈ c.entriesOf given table ↔
      ∃ k, e.1 = [k] ∧ (table ++ [k], e.2) ∈ c.leaves ∧ given (table ++ [k]) := by
  simp only [entriesOf, List.mem_map, List.mem_filter, Bool.decide_and, Bool.decide_eq_true,
    Bool.and_eq_true, decide_eq_true_eq]
  constructor
  · rintro ⟨leaf, ⟨mem, parent, isGiven⟩, rfl⟩
    have nonempty := ne_nil_of_mem_paths _ (List.mem_append_right _ (mem_leafPaths mem))
    obtain ⟨k, path, key⟩ := eq_append_drop nonempty parent
    exact ⟨k, key, by rwa [← path], by rwa [← path]⟩
  · rintro ⟨k, key, mem, isGiven⟩
    exact ⟨_, ⟨mem, List.dropLast_concat, isGiven⟩, Prod.ext (by simp [key]) rfl⟩

/-- The entries of a table have different names. -/
theorem nodup_entriesOf : ((c.entriesOf given table).map Prod.fst).Nodup := by
  have nodup : (c.leaves.map Prod.fst).Nodup := nodup_leafPaths
  rw [entriesOf, List.map_map]
  refine (nodup.of_map.filter _).map_on fun leaf mem leaf' mem' same => ?_
  simp only [List.mem_filter, decide_eq_true_eq] at mem mem'
  obtain ⟨mem, parent, -⟩ := mem
  obtain ⟨mem', parent', -⟩ := mem'
  have known := fun leaf (mem : leaf ∈ c.leaves) =>
    ne_nil_of_mem_paths _ (List.mem_append_right _ (mem_leafPaths mem))
  obtain ⟨k, path, key⟩ := eq_append_drop (known leaf mem) parent
  obtain ⟨k', path', key'⟩ := eq_append_drop (known leaf' mem') parent'
  have last : [k] = [k'] := key.symm.trans (same.trans key')
  exact List.inj_on_of_nodup_map nodup mem mem' (by rw [path, path', last])

/-- A number below the limit of words with a sign is narrow. -/
theorem isNarrow_natCast {n : Nat} (small : n ≤ 2 ^ (63 : Nat) - 1) : Toml.isNarrow (.integer n) := by
  simp only [Toml.isNarrow, decide_eq_true_eq]
  omega

/-- A number of 32 bits is narrow. -/
theorem isNarrow_uint32 (v : UInt32) : Toml.isNarrow (.integer v.toNat) := by
  have := v.toNat_lt
  exact isNarrow_natCast (by omega)

/-- The values of a configuration that fits can all be written as integers. -/
theorem Fits.isNarrow (fits : c.Fits) : ∀ leaf ∈ c.leaves, Toml.isNarrow leaf.2 := by
  have header : Toml.isNarrow ((c.run.printHeader.map Node.text).getD .null) := by
    cases c.run.printHeader <;> rfl
  simp only [leaves, List.forall_mem_cons, List.not_mem_nil, false_implies, implies_true, and_true]
  exact ⟨isNarrow_natCast fits.heapSizeBytes, isNarrow_uint32 _,
    isNarrow_natCast fits.maxBytecodeSize, isNarrow_uint32 _, isNarrow_uint32 _, isNarrow_uint32 _,
    isNarrow_uint32 _, isNarrow_natCast fits.threshold, rfl, rfl, header⟩

/-- A part of the document is one without a header, or that of a chosen table. -/
theorem mem_parts {s : Toml.Section} (part : s ∈ (c.documentOf given).parts) :
    s = ⟨[], []⟩ ∨ ∃ table ∈ tables, given table ∧ s = ⟨table, c.entriesOf given table⟩ := by
  rcases List.mem_cons.1 part with rfl | mem
  · exact .inl rfl
  · obtain ⟨table, held, rfl⟩ := List.mem_map.1 mem
    obtain ⟨known, isGiven⟩ := List.mem_filter.1 held
    exact .inr ⟨table, known, isGiven, rfl⟩

/-- The headers of the document are the chosen tables. -/
theorem headers_documentOf :
    (c.documentOf given).sections.map Toml.Section.header = tables.filter fun h => given h := by
  rw [documentOf, List.map_map]
  exact List.map_id _

/-- The document of a choice is valid. -/
theorem Fits.valid (fits : c.Fits) : (c.documentOf given).Valid where
  headers s mem := by
    have known := List.mem_map_of_mem mem (f := Toml.Section.header)
    rw [headers_documentOf] at known
    exact ne_nil_of_mem_paths _ (List.mem_append_left _ (List.mem_filter.1 known).1)
  once := by
    have nodup : tables.Nodup := by decide
    rw [headers_documentOf]
    exact nodup.filter _
  keys s part e mem := by
    rcases mem_parts part with rfl | ⟨table, -, -, rfl⟩
    · cases mem
    · obtain ⟨k, key, -⟩ := mem_entriesOf.1 mem
      simp [key]
  apart s part := by
    rcases mem_parts part with rfl | ⟨table, -, -, rfl⟩
    · exact .nil
    · -- Different keys of one part do not lead to each other.
      refine List.Pairwise.imp_of_mem ?_ nodup_entriesOf
      intro key key' mem mem' differ
      obtain ⟨e, held, rfl⟩ := List.mem_map.1 mem
      obtain ⟨e', held', rfl⟩ := List.mem_map.1 mem'
      obtain ⟨k, key, -⟩ := mem_entriesOf.1 held
      obtain ⟨k', key', -⟩ := mem_entriesOf.1 held'
      rw [key, key'] at differ ⊢
      have other : k ≠ k' := fun same => differ (by rw [same])
      simp [Toml.Apart, other, Ne.symm other]
  -- Keys are leaves and headers are tables, and no leaf is on the way to a table.
  clear s part q named s' mem' along := by
    rcases mem_parts part with rfl | ⟨table, -, -, rfl⟩
    · cases named
    · obtain ⟨e, mem, first⟩ := Toml.Section.mem_names.1 named
      obtain ⟨k, key, leaf, -⟩ := mem_entriesOf.1 mem
      have known := List.mem_map_of_mem mem' (f := Toml.Section.header)
      rw [headers_documentOf] at known
      have isTable := (List.mem_filter.1 known).1
      rw [key] at first
      cases first
      exact not_prefix_table _ (mem_leafPaths leaf) _ (List.mem_cons_of_mem _ isTable) along
  narrow s part e mem := by
    rcases mem_parts part with rfl | ⟨table, -, -, rfl⟩
    · cases mem
    · obtain ⟨k, -, leaf, -⟩ := mem_entriesOf.1 mem
      exact fits.isNarrow (table ++ [k], e.2) leaf

/-- The document of a choice gives what is chosen, if with a key its tables are. -/
theorem Fits.gives (fits : c.Fits) (closed : given.Closed) :
    c.Gives given (c.documentOf given) where
  valid := fits.valid
  headers s mem := by
    have known := List.mem_map_of_mem mem (f := Toml.Section.header)
    rw [headers_documentOf] at known
    exact .inl (List.mem_filter.1 known).1
  entries s part e mem := by
    rcases mem_parts part with rfl | ⟨table, -, -, rfl⟩
    · cases mem
    · obtain ⟨k, key, leaf, -⟩ := mem_entriesOf.1 mem
      exact .inl (by rwa [key])
  chosen path known := by
    have nonempty := ne_nil_of_mem_paths path known
    have part : ∀ table ∈ tables, given table →
        ⟨table, c.entriesOf given table⟩ ∈ (c.documentOf given).parts := fun table mem isGiven =>
      List.mem_cons_of_mem _ (List.mem_map.2 ⟨table, List.mem_filter.2 ⟨mem, isGiven⟩, rfl⟩)
    constructor
    · intro isGiven
      rcases List.mem_append.1 known with table | leaf
      · exact ⟨_, part path table isGiven, .inl (List.prefix_refl path)⟩
      · obtain ⟨entry, mem, rfl⟩ := List.mem_map.1 (c.map_fst_leaves ▸ leaf)
        -- A leaf stands in the part of its table, and the table is given if the leaf is.
        have parents : ∀ leaf ∈ leafPaths, leaf.dropLast ∈ tables := by decide
        have table := parents _ leaf
        obtain ⟨k, path, -⟩ := eq_append_drop nonempty rfl
        have isTable := ne_nil_of_mem_paths _ (List.mem_append_left _ table)
        refine ⟨_, part _ table (closed _ _ (List.dropLast_prefix _) isTable isGiven),
          .inr ⟨([k], entry.2), ?_, by rw [← path]⟩⟩
        exact mem_entriesOf.2 ⟨k, rfl, by rwa [← path], by rwa [← path]⟩
    · rintro ⟨s, part, along⟩
      rcases mem_parts part with rfl | ⟨table, -, isGiven, rfl⟩
      · rcases along with along | ⟨e, mem, -⟩
        · exact absurd (List.prefix_nil.1 along) nonempty
        · cases mem
      · rcases along with along | ⟨e, mem, along⟩
        · exact closed _ _ along nonempty isGiven
        · obtain ⟨k, key, -, isGiven⟩ := mem_entriesOf.1 mem
          rw [key] at along
          exact closed _ _ along nonempty isGiven

/-- What is given does not depend on the order. -/
theorem Gives.reordered {doc doc' : Toml.Document} (gives : c.Gives given doc)
    (reordered : doc.Reordered doc') : c.Gives given doc' where
  valid := reordered.valid gives.valid
  headers s' mem := by
    obtain ⟨s, held, same⟩ :=
      List.mem_map.1 (reordered.headers.mem_iff.2 (List.mem_map_of_mem mem))
    exact same ▸ gives.headers s held
  entries s' part e mem := by
    obtain ⟨s, before, same⟩ := reordered.exists_before part
    exact same.header ▸ gives.entries s before e (same.entries.mem_iff.2 mem)
  chosen path known := by rw [gives.chosen path known, reordered.reaches_iff]

/-- Every chosen key can be written, the header as long as there is one. -/
theorem isWritable_of_mem_leaves {path : List String} {n : Node} (mem : (path, n) ∈ c.leaves)
    (present : path = ["run", "print_header"] → c.run.printHeader.isSome) :
    (∃ v, n = .integer v) ∨ ∃ s, n = .text s := by
  have header : path = ["run", "print_header"] →
      ∃ s, (c.run.printHeader.map Node.text).getD .null = .text s := by
    intro isHeader
    obtain ⟨header, same⟩ := Option.isSome_iff_exists.1 (present isHeader)
    exact ⟨header, by rw [same]; rfl⟩
  simp only [leaves, List.mem_cons, Prod.mk.injEq, List.not_mem_nil, or_false] at mem
  rcases mem with ⟨-, rfl⟩ | ⟨-, rfl⟩ | ⟨-, rfl⟩ | ⟨-, rfl⟩ | ⟨-, rfl⟩ | ⟨-, rfl⟩ | ⟨-, rfl⟩ |
    ⟨-, rfl⟩ | ⟨-, rfl⟩ | ⟨-, rfl⟩ | ⟨isHeader, rfl⟩
  case inr.inr.inr.inr.inr.inr.inr.inr.inl | inr.inr.inr.inr.inr.inr.inr.inr.inr.inl =>
    exact .inr ⟨_, rfl⟩
  case inr.inr.inr.inr.inr.inr.inr.inr.inr.inr => exact .inr (header isHeader)
  all_goals exact .inl ⟨_, rfl⟩

/-- The document of a choice can be written in any order. -/
theorem exists_spelled {doc : Toml.Document} (reordered : (c.documentOf given).Reordered doc)
    (present : given ["run", "print_header"] → c.run.printHeader.isSome) :
    ∃ text, Toml.Spelled text doc := by
  have shallow : ∀ table ∈ tables, table ≠ [] ∧ table.length < Toml.depthLimit := by decide
  -- Keys of a single part and values of known kinds can be written.
  have entries : ∀ s ∈ doc.parts, ∀ e ∈ s.entries, (Toml.Line.entry e.1 e.2).IsWritable := by
    intro s' part e mem
    obtain ⟨s, before, same⟩ := reordered.exists_before part
    have held := same.entries.mem_iff.2 mem
    rcases mem_parts before with rfl | ⟨table, -, -, rfl⟩
    · cases held
    · obtain ⟨k, key, leaf, isGiven⟩ := mem_entriesOf.1 held
      refine ⟨by simp [key], by simp [key, Toml.depthLimit], isWritable_of_mem_leaves leaf ?_⟩
      exact fun header => present (header ▸ isGiven)
  refine Toml.Document.exists_spelled fun l mem => ?_
  rcases List.mem_append.1 mem with top | later
  · obtain ⟨e, held, rfl⟩ := List.mem_map.1 top
    exact entries _ List.mem_cons_self e held
  · obtain ⟨s', held, mem⟩ := List.mem_flatMap.1 later
    rcases List.mem_cons.1 mem with rfl | mem
    · have header := reordered.headers.mem_iff.2 (List.mem_map_of_mem held)
      rw [headers_documentOf] at header
      exact shallow _ (List.mem_filter.1 header).1
    · obtain ⟨e, inside, rfl⟩ := List.mem_map.1 mem
      exact entries _ (List.mem_cons_of_mem _ held) e inside

end Document

/-! ### Texts -/

/-- What is made of texts in TOML, alone or as the content of a file. -/
structure ReadsToml : Prop where
  /-- A text that gives the chosen keys, however it spells them, is read as the configuration with
  its defaults for the others. -/
  reads : ∀ {c : ConfigFile} {given : Choice} {doc : Toml.Document} {text : String},
    c.Gives given doc → Toml.Spelled text doc →
      ofToml? text = some (c.restrict given) ∧
        ofContent (some (Bytes.ofText text)) = .ok (c.restrict given)
  /-- Any keys of a configuration can be chosen, as long as the tables that they are in are, too,
  and the tables and the keys in each can be written in any order. -/
  exists_text : ∀ {c : ConfigFile} {given : Choice}, c.Fits → given.Closed →
    (given ["run", "print_header"] → c.run.printHeader.isSome) →
      ∀ doc, (c.documentOf given).Reordered doc → c.Gives given doc ∧ ∃ text, Toml.Spelled text doc
  /-- A text that gives something twice, or a number that its field cannot have, is not read. -/
  refuses : ∀ {doc : Toml.Document} {text : String}, Faulty doc → Toml.Spelled text doc →
    ofToml? text = none ∧ ofContent (some (Bytes.ofText text)) = .error .malformed

/-- A file that holds a text is what the text is. -/
theorem ofContent_ofText (text : String) :
    ofContent (some (Bytes.ofText text)) = (ofToml? text).elim (.error .malformed) .ok := by
  simp only [ofContent, Text.decode?_ofText]
  cases ofToml? text <;> rfl

/-- **Configuration files.** Texts that give any keys of a configuration in any order are read as the
configuration with its defaults for the others, and there is such a text for every choice of keys.
Texts that give something twice, or a number that its field cannot have, are malformed. -/
theorem reads_toml : ReadsToml where
  reads gives spelled := by
    have read := gives.ofToml? spelled
    exact ⟨read, by rw [ofContent_ofText, read]; rfl⟩
  exists_text fits closed present doc reordered :=
    ⟨(fits.gives closed).reordered reordered, exists_spelled reordered present⟩
  refuses faulty spelled := by
    have read := faulty.ofToml? spelled
    exact ⟨read, by rw [ofContent_ofText, read]; rfl⟩

example : ofToml? ("[run]\nrepeat = 2 # twice\nprint_header = \"[\\u0022] \"\n\n" ++
    "[runtime.module]\nheap_size = 65_536\nunknown.key = [1, 2]\n[runtime]\n") =
      some { runtime := { module := { heapSize := 65536 } },
             run := { repetitions := 2, printHeader := some "[\"] " } } := by
  decide +kernel

end ConfigFile

end Embedder
