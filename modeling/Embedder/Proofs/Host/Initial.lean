import Embedder.Proofs.Host.Course

namespace Embedder

/-!
# Memories and globals of a new guest

A guest that is brought into its initial state gets the memories and the globals that its module
declares, one after another, each global with a value of the type that is declared for it. What happens
after that, the start function included, leaves the types of these values alone.

* `Wasm.Module.Standalone`: a module that imports nothing but functions.
* `Wasm.Guest.type_evalConst`: initial values are of the types that they are checked against.
* `ends_addMemories`, `ends_addGlobals`: what adding memories and globals comes to.
* `ends_populate_stocked`: a guest that could be populated has its memories and its globals.
-/

/-! ### Initial values -/

/-- A module that imports nothing but functions: the memories and the globals that it has are its own. -/
def Wasm.Module.Standalone (m : Wasm.Module) : Prop :=
  ∀ i ∈ m.imports, ∃ type, i.kind = .func type

/-- A module that imports functions only imports no globals. -/
theorem Wasm.Module.Standalone.importedGlobals {m : Wasm.Module} (own : m.Standalone) :
    m.imports.filterMap importedGlobal? = [] := by
  rw [List.filterMap_eq_nil_iff]
  intro i member
  obtain ⟨type, kind⟩ := own i member
  rw [importedGlobal?, kind]

/-- So its globals are those that it defines. -/
theorem Wasm.Module.Standalone.globalTypes {m : Wasm.Module} (own : m.Standalone) :
    m.globalTypes = m.globals.map GlobalDef.type := by
  rw [Wasm.Module.globalTypes, own.importedGlobals, List.nil_append]

/-- So are its memories. -/
theorem Wasm.Module.Standalone.memoryLimits {m : Wasm.Module} (own : m.Standalone) :
    m.memoryLimits = m.memories := by
  rw [Wasm.Module.memoryLimits, List.filterMap_eq_nil_iff.2 ?_, List.nil_append]
  intro i member
  obtain ⟨type, kind⟩ := own i member
  rw [kind]

/-- An initial value that is accepted for a type is of that type, in whatever guest it is computed. -/
theorem Wasm.Guest.type_evalConst {ν : Type} {m : Wasm.Module} (own : m.Standalone)
    {type : Wasm.ValType} {init : Wasm.ConstExpr} (accepted : m.constOk type init = true) (g : Wasm.Guest ν) :
    (g.evalConst init).type = type := by
  cases init with
  | value v => exact of_decide_eq_true accepted
  | refFunc i =>
    simp only [Wasm.Module.constOk, Bool.and_eq_true, decide_eq_true_eq] at accepted
    exact accepted.1.symm
  | globalGet i =>
    -- There is no imported global to take the value of.
    rw [Wasm.Module.constOk, own.importedGlobals] at accepted
    cases accepted

/-- In a valid module, initial values are constants of the right type. -/
theorem Wasm.Module.constOk_of_isValid {m : Wasm.Module} (valid : m.isValid = true) :
    ∀ d ∈ m.globals, m.constOk d.type.type d.init = true := by
  simp only [Wasm.Module.isValid, Bool.and_eq_true] at valid
  exact List.all_eq_true.1 valid.1.1.1.1.1.2

/-! ### Adding memories -/

section

variable {σ : Type} {m : Wasm.Module}

/-- A memory that a flight grows keeps the guest stocked. -/
theorem Flight.stocked_of_growMemory? {s t : Flight σ} {c : Caller} {memory pages before : Nat}
    (grown : s.growMemory? c memory pages = some (before, t)) (stocked : s.store.guest.Stocked) :
    t.store.guest.Stocked := by
  obtain ⟨_, _, _, _, -, -, -, -, limit, -, store, -⟩ := Flight.growMemory?_eq_some grown
  rw [store]
  exact stocked.setMemory (Wasm.Memory.size_grow_le limit)

/-- A guest of a module that has got so many memories, and no globals yet. -/
structure Wasm.Guest.Unstocked (g : Wasm.Guest Callback) (m : Wasm.Module) (count : Nat) : Prop where
  module : g.module = m
  kinds : g.kinds = []
  memories : g.sizes.length = count
  range : ∀ size ∈ g.sizes, size ≤ maxPages * pageSize

/-- A bare guest has none of its memories yet. -/
theorem Wasm.Guest.unstocked_bare (m : Wasm.Module) (imported : List (Wasm.Func Callback)) :
    (Wasm.Guest.bare m imported).Unstocked m 0 :=
  ⟨rfl, rfl, rfl, fun _ member => absurd member List.not_mem_nil⟩

/-- With each memory that is added one less is missing. -/
theorem ends_addMemory_unstocked (c : Caller) (limits : Wasm.Limits) {count : Nat} {s : Flight σ}
    (unstocked : s.store.guest.Unstocked m count) :
    Ends (FlightM.addMemory c limits) s (fun _ t => t.store.guest.Unstocked m (count + 1))
      fun _ _ => True := by
  simp only [FlightM.addMemory, FlightM.modifyGuest, ends_bind_iff, ends_loan, ends_modifyStore,
    ends_get]
  split
  case h_1 before t grown =>
    obtain ⟨_, _, _, _, -, -, -, -, limit, -, store, -⟩ := Flight.growMemory?_eq_some grown
    rw [ends_set, store]
    refine ⟨unstocked.module, unstocked.kinds, ?_, fun size member => ?_⟩
    -- The new memory is the last one; it is empty when it is added, and then grows to its initial
    -- size.
    · rw [Wasm.Guest.length_sizes_setMemory, Wasm.Guest.sizes_push, List.length_append,
        unstocked.memories, List.length_singleton]
    · rcases Wasm.Guest.mem_sizes_setMemory member with rfl | member
      · exact Wasm.Memory.size_grow_le limit
      · rw [Wasm.Guest.sizes_push, List.mem_append, List.mem_singleton] at member
        rcases member with old | rfl
        · exact unstocked.range size old
        · exact Nat.zero_le _
  case h_2 => trivial

/-- Memories are added one by one. -/
theorem ends_addMemories (c : Caller) (l : List Wasm.Limits) {count : Nat} {s : Flight σ}
    (unstocked : s.store.guest.Unstocked m count) :
    Ends (l.forM (FlightM.addMemory c)) s
      (fun _ t => t.store.guest.Unstocked m (count + l.length)) fun _ _ => True := by
  induction l generalizing s count with
  | nil => exact unstocked
  | cons limits l ih =>
    refine ends_bind (ends_addMemory_unstocked c limits unstocked) fun _ t added => ?_
    rw [List.length_cons, ← Nat.add_assoc, Nat.add_right_comm]
    exact ih added

/-! ### Adding globals -/

/-- What each part of a list of parts keeps up, all of them together do. -/
theorem ends_forM {α : Type} {I : Flight σ → Prop} {f : α → FlightM σ PUnit}
    (each : ∀ a s, I s → Ends (f a) s (fun _ t => I t) fun _ _ => True) (l : List α) {s : Flight σ}
    (first : I s) : Ends (l.forM f) s (fun _ t => I t) fun _ _ => True := by
  induction l generalizing s with
  | nil => exact first
  | cons a l ih => exact ends_bind (each a s first) fun _ t kept => ih kept

/-- Globals are added one by one, and each gets a value of its type. -/
theorem ends_addGlobals (own : m.Standalone) {l : List Wasm.GlobalDef}
    (accepted : ∀ d ∈ l, m.constOk d.type.type d.init = true) (s : Flight σ) :
    Ends (l.forM FlightM.addGlobal) s (fun _ t => t.store.guest.module = s.store.guest.module ∧
      t.store.guest.kinds = s.store.guest.kinds ++ (l.map fun d => d.type.type) ∧
        t.store.guest.sizes = s.store.guest.sizes) fun _ _ => False := by
  induction l generalizing s with
  | nil => exact ⟨rfl, (List.append_nil _).symm, rfl⟩
  | cons d l ih =>
    rw [List.forall_mem_cons] at accepted
    refine ends_bind (P := fun _ t => t.store.guest.module = s.store.guest.module ∧
      t.store.guest.kinds = s.store.guest.kinds ++ [d.type.type] ∧
        t.store.guest.sizes = s.store.guest.sizes) ?_ ?_
    · refine ⟨rfl, ?_, rfl⟩
      simp only [Wasm.Guest.kinds, Array.toList_push, List.map_append, List.map_cons, List.map_nil,
        Wasm.Guest.type_evalConst own accepted.1]
    · intro _ t added
      refine (ih accepted.2 t).mono (fun _ u more => ?_) fun _ _ => id
      rw [more.1, more.2.1, more.2.2, added.1, added.2.1, added.2.2, List.append_assoc]
      exact ⟨rfl, rfl, rfl⟩

/-- Whatever a call does to a guest, what its module declares stays there. -/
theorem working_stocked (printer : Printer σ) (c : Caller) :
    Working printer c fun s t => s.store.guest.Stocked → t.store.guest.Stocked :=
  working_of_store (fun s t => s.guest.Stocked → t.guest.Stocked) printer c (fun _ => id)
    (fun first second => second ∘ first) (fun _ _ guest _ _ => guest.stocked) (fun _ _ => id)
    fun _ _ _ _ _ limit stocked => stocked.setMemory (Wasm.Memory.size_grow_le limit)

/-- Whatever a call does to a guest, it stays a guest of the same module. -/
theorem working_module (printer : Printer σ) (c : Caller) :
    Working printer c fun s t => t.store.guest.module = s.store.guest.module :=
  working_of_view (fun s => s.guest.module) printer c (fun _ _ guest _ _ => guest.module)
    (fun _ _ => rfl) fun _ _ _ => rfl

/-- **Initial states.** A guest that could be brought into its initial state has the memories and the
globals that its module declares, these with values of their types. -/
theorem ends_populate_stocked [Engine] (printer : Printer σ) (c : Caller) (own : m.Standalone)
    (valid : m.isValid = true) (room : Nat) {s : Flight σ} (bare : s.store.guest.Unstocked m 0) :
    Ends (FlightM.populate printer c room m) s (fun _ t => t.store.guest.Stocked) fun _ _ => True := by
  have working := working_stocked printer c
  -- Once the memories and globals are those that the module declares, nothing takes one away.
  have goesOn : ∀ {α : Type} {x : FlightM σ α} {s : Flight σ},
      Within (fun s t : Flight σ => s.store.guest.Stocked → t.store.guest.Stocked) x →
        s.store.guest.Stocked → Ends x s (fun _ t => t.store.guest.Stocked) fun _ _ => True :=
    fun within stocked => (within _).mono (fun _ _ kept => kept stocked) fun _ _ _ => trivial
  unfold FlightM.populate
  refine ends_bind (ends_addMemories c _ bare) fun _ s bare => ?_
  rw [Nat.zero_add] at bare
  -- Globals come last: until then tables are added to what has the memories only.
  have addTable : ∀ limits (s : Flight σ), s.store.guest.Unstocked m m.memories.length →
      Ends (FlightM.addTable limits) s
        (fun _ t => t.store.guest.Unstocked m m.memories.length) fun _ _ => True :=
    fun _ _ bare => ⟨bare.module, bare.kinds, bare.memories, bare.range⟩
  refine ends_bind (ends_forM addTable _ bare) fun _ s bare => ?_
  refine ends_bind ((ends_addGlobals own (Wasm.Module.constOk_of_isValid valid) s).mono
    (Q := fun _ t => t.store.guest.Stocked) ?_ fun _ _ _ => trivial) fun _ s stocked => ?_
  · rintro _ t ⟨module, kinds, sizes⟩
    rw [bare.kinds, List.nil_append] at kinds
    rw [Wasm.Guest.Stocked, module, bare.module, kinds, sizes]
    refine ⟨?_, ?_, bare.range⟩
    · rw [own.globalTypes, List.map_map]
      exact List.prefix_rfl
    · exact Nat.le_of_eq (by rw [own.memoryLimits, bare.memories])
  · refine goesOn ?_ stocked
    refine within_bind working.toSteady (within_forM working _ (within_putElement working)) fun _ => ?_
    refine within_bind working.toSteady (within_forM working _ (within_putData working)) fun _ => ?_
    split
    · exact within_pure working.toSteady _
    · exact within_bind working.toSteady (within_enter (working.withExports true) _ _ _) fun _ =>
        within_pure working.toSteady _

end

end Embedder
