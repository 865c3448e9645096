import Embedder.Proofs.Host.Access
import Embedder.Proofs.Session.Budgets

namespace Embedder

open Session (Step Slots hookedPrinter runWith empty)
open Wasm (pageSize maxPages)

/-!
# Blocks over a session

Whatever a session is asked, and whatever guests do to their memories, every block lies in its own
part of its instance's app heap. So reading and writing it cannot fail, and does not touch another
one.

* `ends_instantiate_pages`: an app heap comes in the last pages of the exported memory.
* `Session.Separate`, `run_separates_blocks`: the blocks, and that they are always kept apart.
-/

/-! ### Pages for an app heap -/

/-- The pages that so many bytes need. -/
def pagesFor (bytes : Nat) : Nat :=
  (bytes + (pageSize - 1)) / pageSize

/-- The app heap of an instance has the last pages of the exported memory, as many as its bytes
need. -/
def Host.Appended {σ : Type} (h : Host σ) (id bytes before : Nat) : Prop :=
  h.heap? id = some (.ofPages before (pagesFor bytes)) ∧
    ∃ m, h.memory? id = some m ∧ m.pages = before + pagesFor bytes

theorem Wasm.Memory.limit_le (m : Wasm.Memory) : m.limit ≤ maxPages * pageSize :=
  Nat.min_le_right _ _

variable [Engine]

section

variable {σ : Type} {h : Host σ} {printer : Printer σ} {id bytes : Nat}

omit [Engine] in
/-- An app heap is appended in new pages of the memory. -/
theorem ends_appendHeap_grown (c : Caller) (memory : Option Nat) (bytes : Nat) (s : Store) :
    Ends (HostM.appendHeap c memory bytes s) h
      (fun s' u => ∃ number m₀, memory = some number ∧ s.guest.memories[number]? = some m₀ ∧
        m₀.size + pagesFor bytes * pageSize ≤ maxPages * pageSize ∧
        s' = { s with
          guest := s.guest.setMemory number (m₀.grow (m₀.size + pagesFor bytes * pageSize))
          heap := some (.ofPages m₀.pages (pagesFor bytes)) } ∧
        (h.instance? c.inst).isSome ∧ (u.instance? c.inst).isSome)
      fun _ _ => True := by
  simp only [HostM.appendHeap, ends_bind_iff, ends_ofOption, ends_get, ends_set]
  refine ⟨fun number exported => ⟨?_, fun _ => trivial⟩, fun _ => trivial⟩
  rintro ⟨before, t⟩ grown
  split
  · trivial
  -- The memory could grow, so there is an instance of it, and the limit lies within the range of
  -- addresses.
  obtain ⟨m₀, i, -, budget, found, there, -, -, limit, rfl, store, host⟩ :=
    Flight.growMemory?_eq_some grown
  refine ⟨number, m₀, exported, found, Nat.le_trans limit m₀.limit_le, ?_, by rw [there]; rfl, ?_⟩
  · show ({ t.store with heap := some (Heap.ofPages m₀.pages (pagesFor bytes)) } : Store) = _
    rw [store]
    rfl
  · show (t.host.instance? c.inst).isSome
    rw [host, Host.instance?_modifyInstance, if_pos rfl, Option.isSome_map]
    show (h.instance? c.inst).isSome
    rw [there]
    rfl

omit [Engine] in
theorem ends_appendHeap_pages (c : Caller) (memory : Option Nat) (s : Store) :
    Ends (HostM.appendHeap c memory bytes s) h
      (fun s' _ => ∃ number m before, memory = some number ∧
        s'.guest.memories[number]? = some m ∧ m.pages = before + pagesFor bytes ∧
        s'.heap = some (.ofPages before (pagesFor bytes)))
      fun _ _ => True := by
  refine (ends_appendHeap_grown c memory bytes s).mono ?_ fun _ _ _ => trivial
  rintro _ u ⟨number, m, exported, found, -, rfl, -⟩
  refine ⟨number, m.grow (m.size + pagesFor bytes * pageSize), m.pages, exported, ?_, ?_, rfl⟩
  · rw [Wasm.Guest.getElem?_setMemory, if_pos rfl, found]
    rfl
  · exact Nat.add_mul_div_right m.size (pagesFor bytes) (show 0 < pageSize by decide)

theorem ends_bringUp_pages (r : Runtime) (m : LoadedModule) (pos : 0 < bytes) :
    Ends (HostM.bringUp printer id r m bytes) h
      (fun _ t => (t.instance? id).isSome → ∃ before, t.Appended id bytes before)
      fun _ _ => True := by
  simp only [HostM.bringUp, ends_bind_iff, ends_ofExcept, ends_inFlight]
  refine ⟨fun imported _ => ⟨fun _ _ => ?_, fun _ _ => trivial⟩, fun _ _ => trivial⟩
  rw [if_neg (Nat.pos_iff_ne_zero.1 pos)]
  refine ends_bind (ends_appendHeap_pages _ _ _) ?_
  rintro s u ⟨number, m, before, exported, found, pages, heap⟩
  rw [ends_modify]
  intro there
  rw [Host.instance?_modifyInstance, if_pos rfl, Option.isSome_map] at there
  obtain ⟨i, there⟩ := Option.isSome_iff_exists.1 there
  refine ⟨before, ?_, m, ?_, pages⟩
  · simp [Host.heap?, Host.instance?_modifyInstance, there, heap]
  · simp [Host.memory?, Host.instance?_modifyInstance, there, Instance.exported?, exported, found]

/-- **The app heap.** A new instance has its app heap in the last pages of its memory. -/
theorem ends_instantiate_pages (module stack : Nat) (pos : 0 < bytes) :
    Ends (HostM.instantiate printer module stack bytes) h
      (fun id t => (t.instance? id).isSome → ∃ before, t.Appended id bytes before)
      fun _ _ => True := by
  simp only [HostM.instantiate, ends_bind_iff, ends_module, ends_runtime]
  refine ⟨fun m _ => ⟨fun r _ => ?_, fun _ => trivial⟩, fun _ => trivial⟩
  refine ends_lease (fun c budget _ _ => ?_) fun _ => trivial
  simp only [ends_modify, ends_get, ends_set, ends_pure]
  refine ends_tryCatch (F := fun _ _ => True) (ends_bringUp_pages r m pos) fun _ _ _ => ?_
  simp only [ends_bind_iff, ends_modify, ends_throw]

end

/-! ### Blocks kept apart -/

/-- The blocks of a session are kept apart. -/
structure Session.Separate (s : Session) : Prop where
  /-- Every block lies in the app heap, inside its instance's memory. -/
  lies : ∀ j b, s.blocks.get? j = some b → ∃ heap m, b.Lies s heap m
  /-- Two blocks of one instance have no address in common. -/
  apart : ∀ j k b c, j ≠ k → s.blocks.get? j = some b → s.blocks.get? k = some c →
    b.inst = c.inst → b.span.Apart c.span
  /-- A valid read succeeds and changes nothing. -/
  reads : ∀ j b α good (x : HostM Slots α), s.blocks.get? j = some b → b.Reads α good x →
    ∃ v, exec x s = (.ok v, s) ∧ good v
  /-- A valid write succeeds. -/
  writes : ∀ j b α valid done (x : HostM Slots α), s.blocks.get? j = some b →
    b.Writes α valid done x → valid → (exec x s).1 = .ok done
  /-- No write changes a byte outside its block, in whatever instance. -/
  frame : ∀ j b α valid done (x : HostM Slots α), s.blocks.get? j = some b →
    b.Writes α valid done x → ∀ id a, a < addressRange →
      (id = b.inst → ¬ b.span.Covers a) → (exec x s).2.byte? id a = s.byte? id a
  /-- What is read of another block is as it was. -/
  others : ∀ j k b c α β valid done good (x : HostM Slots α) (y : HostM Slots β), j ≠ k →
    s.blocks.get? j = some b → s.blocks.get? k = some c → b.Writes α valid done x →
      c.Reads β good y → (exec y (exec x s).2).1 = (exec y s).1
  /-- The app heap of a new instance has pages of its own at the end of the memory, and manages
  those whatever happens afterwards. -/
  appended : ∀ module stack bytes id (t : Session), 0 < bytes →
    exec (HostM.instantiate hookedPrinter module stack bytes) s = (.ok id, t) →
    ∃ before, t.Appended id bytes before ∧ ∀ into more u,
      (runWith hookedPrinter more (t.put ⟨.inst, into⟩ id)).2 = u → (u.instance? id).isSome →
        (u.heap? id).map Heap.region = some (Heap.ofPages before (pagesFor bytes)).region

namespace Session

variable [HookRule] {s : Session}

omit [Engine] [HookRule] in
/-- What the host has seen of an instance at rest is what custody of it says. -/
theorem custody_of_instance? {id : Nat} {i : Instance} {g : Pending}
    (there : s.instance? id = some i) :
    Config.custody? ⟨s, g⟩ id = some ⟨i, g.held id, g.taken id⟩ := by
  obtain ⟨c, present, rfl⟩ := Option.map_eq_some_iff.1 there
  exact Config.custody?_of_get? present

/-- A new instance manages its pages from then on. -/
theorem appended_of_sound (any : ∀ hook, HookRule.admits hook) {g : Pending}
    (free : ∀ id, g.held id = none) (sound : Config.Sound ⟨s, g⟩) {module stack bytes id : Nat}
    {t : Session} (pos : 0 < bytes)
    (done : exec (HostM.instantiate hookedPrinter module stack bytes) s = (.ok id, t)) :
    ∃ before, t.Appended id bytes before ∧ ∀ into more u,
      (runWith hookedPrinter more (t.put ⟨.inst, into⟩ id)).2 = u → (u.instance? id).isSome →
        (u.heap? id).map Heap.region = some (Heap.ofPages before (pagesFor bytes)).region := by
  have traced := traced_of_any any
  obtain ⟨-, lead⟩ := (ends_instantiate traced module stack bytes sound).of_ok done
  have sound_t := lead.sound sound
  obtain ⟨c, present⟩ := Pool.get?_of_count_pos (sound_t.holders_pos .inst (by decide))
  have there : t.instance? id = some c.value := by simp [Host.instance?, present]
  obtain ⟨before, heap, m, memory, pages⟩ :=
    (ends_instantiate_pages module stack pos).of_ok done (by rw [there]; rfl)
  refine ⟨before, ⟨heap, m, memory, pages⟩, ?_⟩
  rintro into more u rfl gone
  obtain ⟨i, there'⟩ := Option.isSome_iff_exists.1 gone
  simp only [Host.heap?, there, Option.bind_some] at heap
  obtain ⟨store, idle, heap⟩ := Option.bind_eq_some_iff.1 heap
  -- from the instantiation on, the heap manages the pages
  have manages : Custody.Manages ⟨c.value, g.held id, g.taken id⟩
      (some (Heap.ofPages before (pagesFor bytes)).region) := by
    refine ⟨fun loan held => (Option.some_ne_none loan (held.symm.trans (free id))).elim, fun s' here => ?_⟩
    rw [Custody.store?_idle (free id) idle] at here
    cases here
    rw [Store.region?, heap]
    rfl
  have named : Leads (fun _ => True) ⟨t, g.pin .inst id⟩ ⟨t.put ⟨.inst, into⟩ id, g⟩ :=
    leads_put ⟨.inst, into⟩ id trivial
  have ran := named.trans (leads_runWith traced trivial more _ fun st _ => .of_any any st)
  have after := ran.manages sound_t (custody_of_instance? there) manages (custody_of_instance? there')
  obtain ⟨store', idle'⟩ := Option.isSome_iff_exists.1
    (((ran.sound sound_t).custody _ _ (custody_of_instance? there')).idle (free id))
  have region := after.2 store' (Custody.store?_idle (free id) idle')
  dsimp only at idle'
  rw [Host.heap?, there', Option.bind_some, idle']
  exact region

theorem separate_of_sound (any : ∀ hook, HookRule.admits hook)
    (sound : Config.Sound ⟨s, .none⟩) (backed : Config.Backed ⟨s, .none⟩)
    (placed : ∀ id x, Config.custody? ⟨s, .none⟩ id = some x → x.Placed)
    (aligned : s.blocks.All fun b => b.type.isAligned) : s.Separate where
  -- That blocks lie where they do comes from the heap; the accesses are then about memory alone.
  lies _ _ present := backed.lies sound placed aligned present
  apart _ _ _ _ ne hj hk inst := backed.apart sound placed ne hj hk inst
  reads := by
    intro j b α good x present reads
    obtain ⟨heap, m, lies⟩ := backed.lies sound placed aligned present
    exact reads.succeeds lies
  writes := by
    intro j b α valid done x present writes ok
    obtain ⟨heap, m, lies⟩ := backed.lies sound placed aligned present
    exact writes.succeeds lies ok
  frame := by
    intro j b α valid done x present writes id a range outside
    obtain ⟨heap, m, lies⟩ := backed.lies sound placed aligned present
    exact writes.frame lies range outside
  others := by
    intro j k b c α β valid done good x y ne hj hk writes reads
    obtain ⟨heap, m, lies⟩ := backed.lies sound placed aligned hj
    obtain ⟨heap', m', lies'⟩ := backed.lies sound placed aligned hk
    exact writes.reads lies reads lies' (backed.apart sound placed ne hj hk)
  appended _ _ _ _ _ pos done := appended_of_sound any (fun _ => rfl) sound pos done

omit [HookRule] in
/-- **Blocks are kept apart.** After any steps, whatever hooks and guests have done meanwhile, the
blocks of a session lie apart from each other in their app heaps. -/
theorem run_separates_blocks (steps : List Step) :
    (runWith hookedPrinter steps empty).2.Separate := by
  let rule : HookRule := .any
  have lead := leads_run (fun _ => trivial) steps
  have start := sound_empty rfl
  -- that blocks are backed is kept only where heaps are placed, so both go through one induction
  have both := lead.induct (P := fun c => (∀ id x, c.custody? id = some x → x.Placed) ∧ c.Backed)
    start
    (fun _ _ sound step h => ⟨step.placed sound h.1, step.backed sound h.1 h.2⟩)
    ⟨fun _ _ h => (nomatch h), fun _ _ h => (nomatch h), fun _ _ => rfl⟩
  have aligned := lead.induct (P := fun c => c.host.blocks.All fun b => b.type.isAligned)
    start (fun _ _ _ step => step.aligned) fun _ _ h => (nomatch h)
  exact separate_of_sound (fun _ => trivial) (lead.sound start) both.2 both.1 aligned

end Session

end Embedder
