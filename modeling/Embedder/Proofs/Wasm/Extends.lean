import Embedder.Wasm.Progress

namespace Embedder.Wasm

/-!
# What running code leaves alone

Contents may change, and then a guest still has the memories and the globals that its module declares,
its functions, and memories of the same sizes. More memory is what a guest has to ask for.

* `Guest.Stocked.exists_memory`, `Guest.Stocked.exists_global`: what is declared is there.
* `Guest.memoryBytes_setMemory`: what a changed memory does to the sizes of all memories.
* `Guest.extends_setMemory`, `Guest.extends_setGlobal`, `Guest.extends_push`: changes that leave the rest
  alone.
-/

-- Sums are those of the core library, whatever else is imported.
attribute [local instance (1100)] Zero.ofOfNat0

variable {ν : Type}

/-- As far as it may grow, a memory gets no more bytes than 32 bits can address. -/
theorem Memory.size_grow_le {m : Memory} {size : Nat} (limit : size ≤ m.limit) :
    (m.grow size).size ≤ maxPages * pageSize :=
  Nat.le_trans limit (Nat.min_le_right _ _)

namespace Guest

/-! ### Globals and memories -/

/-- The sizes are those of the memories, one by one. -/
theorem getElem?_sizes (g : Guest ν) (i : Nat) : g.sizes[i]? = g.memories[i]?.map Memory.size := by
  rw [sizes, List.getElem?_map, Array.getElem?_toList]

/-- There are as many sizes as memories. -/
theorem length_sizes (g : Guest ν) : g.sizes.length = g.memories.size := by
  rw [sizes, List.length_map, Array.length_toList]

/-- No memory of a stocked guest is larger than memories may be. -/
theorem Stocked.size_le {g : Guest ν} (stocked : g.Stocked) {i : Nat} {m : Memory}
    (there : g.memories[i]? = some m) : m.size ≤ maxPages * pageSize := by
  have size : g.sizes[i]? = some m.size := by rw [getElem?_sizes, there, Option.map_some]
  exact stocked.range _ (List.mem_of_getElem? size)

/-- A memory that is declared is there. -/
theorem Stocked.exists_memory {g : Guest ν} (stocked : g.Stocked) {i : Nat}
    (declared : i < g.module.memoryLimits.length) :
    ∃ m, g.memories[i]? = some m ∧ m.size ≤ maxPages * pageSize := by
  have lt : i < g.sizes.length := Nat.lt_of_lt_of_le declared stocked.memories
  have size := List.getElem?_eq_getElem lt
  rw [getElem?_sizes] at size
  obtain ⟨m, there, eq⟩ := Option.map_eq_some_iff.1 size
  exact ⟨m, there, eq ▸ stocked.range _ (List.getElem_mem lt)⟩

/-- The kinds are those of the globals, one by one. -/
theorem getElem?_kinds (g : Guest ν) (i : Nat) : g.kinds[i]? = g.globals[i]?.map Value.type := by
  rw [kinds, List.getElem?_map, Array.getElem?_toList]

/-- Every declared global of a stocked guest is there, and has its declared type. -/
theorem Stocked.exists_global {g : Guest ν} (stocked : g.Stocked) {i : Nat} {declared : GlobalType}
    (there : g.module.globalTypes[i]? = some declared) :
    ∃ v, g.globals[i]? = some v ∧ v.type = declared.type := by
  have kind : (g.module.globalTypes.map GlobalType.type)[i]? = some declared.type := by
    rw [List.getElem?_map, there, Option.map_some]
  obtain ⟨lt, eq⟩ := List.getElem?_eq_some_iff.1 kind
  have holds := List.prefix_iff_getElem?.1 stocked.globals i lt
  rw [getElem?_kinds, eq] at holds
  exact Option.map_eq_some_iff.1 holds

/-- A value of the old one's type in a global leaves the types as they are. -/
theorem kinds_setGlobal {g : Guest ν} {i : Nat} {v : Value}
    (same : ∀ old, g.globals[i]? = some old → v.type = old.type) : (g.setGlobal i v).kinds = g.kinds := by
  apply List.ext_getElem?
  intro j
  rw [getElem?_kinds, getElem?_kinds, setGlobal, Array.getElem?_setIfInBounds]
  by_cases h : i = j
  · subst h
    rw [if_pos rfl]
    split
    case isTrue lt =>
      rw [Array.getElem?_eq_getElem lt, Option.map_some, Option.map_some,
        same _ (Array.getElem?_eq_getElem lt)]
    case isFalse ge => rw [Array.getElem?_eq_none (Nat.le_of_not_lt ge)]
  · rw [if_neg h]

/-- A guest extends itself. -/
theorem Extends.refl (g : Guest ν) : g.Extends g :=
  ⟨rfl, rfl, fun _ m h => ⟨m, h, rfl, rfl⟩, rfl, id⟩

/-- What extends at every step extends in all. -/
theorem Extends.trans {g g' g'' : Guest ν} (h : g.Extends g') (h' : g'.Extends g'') :
    g.Extends g'' where
  module := h'.module.trans h.module
  funcs := h'.funcs.trans h.funcs
  shape := by
    intro i m hm
    obtain ⟨m', hm', size, maximum⟩ := h.shape i m hm
    obtain ⟨m'', hm'', size', maximum'⟩ := h'.shape i m' hm'
    exact ⟨m'', hm'', size'.trans size, maximum'.trans maximum⟩
  bytes := h'.bytes.trans h.bytes
  stocked := h'.stocked ∘ h.stocked

/-- Guests that differ in globals and tables only. -/
theorem Extends.of_memories {g g' : Guest ν} (module : g'.module = g.module)
    (funcs : g'.funcs = g.funcs) (memories : g'.memories = g.memories)
    (stocked : g.Stocked → g'.Stocked) : g.Extends g' where
  module := module
  funcs := funcs
  shape := fun i m h => ⟨m, memories ▸ h, rfl, rfl⟩
  bytes := by rw [memoryBytes, memoryBytes, memories]
  stocked := stocked

/-! ### One memory changed -/

/-- A sum with one summand replaced. -/
theorem sum_map_set {α : Type} (l : List α) (f : α → Nat) {i : Nat} {a : α} (h : l[i]? = some a)
    (b : α) : ((l.set i b).map f).sum + f a = (l.map f).sum + f b := by
  induction l generalizing i with
  | nil => simp at h
  | cons c l ih =>
    cases i with
    | zero =>
      simp only [List.getElem?_cons_zero, Option.some.injEq] at h
      subst h
      simp only [List.set_cons_zero, List.map_cons, List.sum_cons]
      omega
    | succ i =>
      have := ih (i := i) (by simpa using h)
      simp only [List.set_cons_succ, List.map_cons, List.sum_cons]
      omega

/-- To replace a memory changes the bytes of all by the difference. -/
theorem memoryBytes_setMemory {g : Guest ν} {i : Nat} {m : Memory} (h : g.memories[i]? = some m)
    (m' : Memory) : (g.setMemory i m').memoryBytes + m.size = g.memoryBytes + m'.size := by
  have h' : g.memories.toList[i]? = some m := by simpa using h
  have := sum_map_set g.memories.toList Memory.size h' m'
  simpa [memoryBytes, setMemory] using this

/-- A memory that is replaced stands where it stood, and the others are as they were. -/
theorem getElem?_setMemory (g : Guest ν) (i : Nat) (m' : Memory) (j : Nat) :
    (g.setMemory i m').memories[j]? =
      if j = i then (g.memories[j]?).map fun _ => m' else g.memories[j]? := by
  by_cases h : j = i
  · subst h
    by_cases hj : j < g.memories.size <;> simp [setMemory, hj]
  · rw [if_neg h]
    exact Array.getElem?_setIfInBounds_ne (fun e => h e.symm)

/-- A memory of the old one's size in a place leaves the sizes as they are. -/
theorem sizes_setMemory {g : Guest ν} {i : Nat} {m m' : Memory} (h : g.memories[i]? = some m)
    (size : m'.size = m.size) : (g.setMemory i m').sizes = g.sizes := by
  apply List.ext_getElem?
  intro j
  rw [getElem?_sizes, getElem?_sizes, getElem?_setMemory]
  split
  case isTrue e => rw [e, h, Option.map_some, Option.map_some, Option.map_some, size]
  case isFalse => rfl

/-- To replace a memory makes no new one. -/
theorem length_sizes_setMemory (g : Guest ν) (i : Nat) (m : Memory) :
    (g.setMemory i m).sizes.length = g.sizes.length := by
  rw [length_sizes, length_sizes, setMemory, Array.size_setIfInBounds]

/-- The sizes afterwards are those of before, or the new one. -/
theorem mem_sizes_setMemory {g : Guest ν} {i : Nat} {m : Memory} {size : Nat}
    (member : size ∈ (g.setMemory i m).sizes) : size = m.size ∨ size ∈ g.sizes := by
  obtain ⟨j, there⟩ := List.mem_iff_getElem?.1 member
  rw [getElem?_sizes, getElem?_setMemory] at there
  split at there
  · rw [Option.map_map] at there
    obtain ⟨_, -, rfl⟩ := Option.map_eq_some_iff.1 there
    exact .inl rfl
  · rw [← getElem?_sizes] at there
    exact .inr (List.mem_of_getElem? there)

/-- A new memory is empty at first. -/
theorem sizes_push (g : Guest ν) (maximum : Option Nat) :
    sizes { g with memories := g.memories.push (.empty maximum) } = g.sizes ++ [0] := by
  simp [sizes, Memory.empty]

/-- A memory that grows keeps a guest stocked, as long as 32 bits can address its bytes. -/
theorem Stocked.setMemory {g : Guest ν} (stocked : g.Stocked) {i : Nat} {m : Memory}
    (range : m.size ≤ maxPages * pageSize) : (g.setMemory i m).Stocked where
  globals := stocked.globals
  memories := by
    rw [length_sizes_setMemory]
    exact stocked.memories
  range size member := by
    rcases mem_sizes_setMemory member with rfl | old
    · exact range
    · exact stocked.range size old

/-- A memory with other contents, but of the same size and limit, extends the guest. -/
theorem extends_setMemory {g : Guest ν} {i : Nat} {m m' : Memory} (h : g.memories[i]? = some m)
    (size : m'.size = m.size) (maximum : m'.maximum = m.maximum) :
    g.Extends (g.setMemory i m') where
  module := rfl
  funcs := rfl
  shape := by
    intro j k hk
    rw [getElem?_setMemory]
    split
    case isTrue e =>
      subst e
      have : k = m := Option.some.inj (hk.symm.trans h)
      exact ⟨m', by simp [hk], this ▸ size, this ▸ maximum⟩
    case isFalse => exact ⟨k, hk, rfl, rfl⟩
  bytes := by
    -- The bytes of the new memory stand in for those of the old one, and they are as many.
    have := memoryBytes_setMemory h m'
    omega
  stocked stocked := by
    rw [Stocked, sizes_setMemory h size]
    exact stocked

/-- A global that keeps its type extends the guest. -/
theorem extends_setGlobal {g : Guest ν} {i : Nat} {v : Value}
    (same : g.Stocked → ∀ old, g.globals[i]? = some old → v.type = old.type) :
    g.Extends (g.setGlobal i v) := by
  refine .of_memories rfl rfl rfl fun stocked => ?_
  rw [Stocked, kinds_setGlobal (same stocked)]
  exact stocked

/-- A guest with one more global. -/
theorem extends_pushGlobal (g : Guest ν) (v : Value) :
    g.Extends { g with globals := g.globals.push v } := by
  refine .of_memories rfl rfl rfl fun stocked => ?_
  refine { stocked with globals := ?_ }
  rw [kinds, Array.toList_push, List.map_append]
  exact stocked.globals.trans (List.prefix_append _ _)

/-- A guest with one more memory, which has no bytes yet. -/
theorem extends_push (g : Guest ν) (maximum : Option Nat) :
    g.Extends { g with memories := g.memories.push (.empty maximum) } where
  module := rfl
  funcs := rfl
  shape := by
    intro i m h
    obtain ⟨hi, rfl⟩ := Array.getElem?_eq_some_iff.1 h
    refine ⟨g.memories[i], ?_, rfl, rfl⟩
    rw [Array.getElem?_push]
    simp [Nat.ne_of_lt hi]
  bytes := by simp [memoryBytes, Memory.empty]
  stocked stocked := by
    rw [Stocked, sizes_push]
    refine ⟨stocked.globals, ?_, fun n member => ?_⟩
    · rw [List.length_append]
      exact Nat.le_add_right_of_le stocked.memories
    · rcases List.mem_append.1 member with old | new
      · exact stocked.range n old
      · rw [List.mem_singleton.1 new]
        exact Nat.zero_le _

/-- To write keeps size and limit. -/
theorem write?_shape {m m' : Memory} {address : Nat} {bytes : Bytes}
    (h : m.write? address bytes = some m') : m'.size = m.size ∧ m'.maximum = m.maximum := by
  unfold Memory.write? at h
  split at h
  · cases h
    exact ⟨rfl, rfl⟩
  · cases h

/-- To fill keeps size and limit. -/
theorem fill?_shape {m m' : Memory} {address count : Nat} {b : UInt8}
    (h : m.fill? address count b = some m') : m'.size = m.size ∧ m'.maximum = m.maximum := by
  unfold Memory.fill? at h
  split at h
  · cases h
    exact ⟨rfl, rfl⟩
  · cases h

/-- To store bytes in a memory extends the guest. -/
theorem storeBytes?_extends {g g' : Guest ν} {memory address : Nat} {bytes : Bytes}
    (h : g.storeBytes? memory address bytes = some g') : g.Extends g' := by
  simp only [storeBytes?, Option.bind_eq_bind, Option.bind_eq_some_iff, Option.pure_def,
    Option.some.injEq] at h
  obtain ⟨m, hm, m', hw, rfl⟩ := h
  obtain ⟨size, maximum⟩ := write?_shape hw
  exact extends_setMemory hm size maximum

end Guest

end Embedder.Wasm
