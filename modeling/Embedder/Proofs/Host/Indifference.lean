import Embedder.Host.Runner
import Embedder.Proofs.Host.Likeness
import Embedder.Proofs.Host.Making

namespace Embedder

/-!
# What operations do not tell apart

Whatever is asked of two hosts that are alike, it ends in the same way and leaves them alike: nothing
goes by what was printed, by the application, or by how many hold an object. This holds as long as the
second host has all objects that the first one has more holders of, and prints are the same change of
both.

* `Flight.Like`, `lockstep_like`: calls in flight in hosts that are alike.
* `Blind`: operations that end in the same way in hosts that are alike.
* `blind_instantiate`, `blind_createEnvironment`, `blind_numbers`, `Invoker.call_blind`: the
  operations that make something, and calls.
* `blind_createRunner`, `blind_runInstrumented`, `blind_benchmark`: runners.
-/

variable {σ α β : Type} {d : Difference σ} {printer : Printer σ}

/-! ### Calls in flight -/

/-- Two calls in flight hold the same store, in hosts that are alike. -/
structure Flight.Like (d : Difference σ) (x y : Flight σ) : Prop where
  store : y.store = x.store
  host : x.host.Like d y.host

/-- What may grow depends on the store, on the instance and on the budget, one after another. -/
theorem Flight.growth?_eq_bind (s : Flight σ) (c : Caller) (memory pages : Nat) :
    s.growth? c memory pages = (do
      let m ← s.store.guest.memories[memory]?
      let i ← s.host.instance? c.inst
      let budget ← (s.host.commons? c.commons).map Commons.budget
      let size := m.size + pages * Wasm.pageSize
      let (limiter, budget) ← i.limiter.growMemory? budget m.size size m.limit
      pure ⟨m.pages, limiter, budget, s.store.guest.setMemory memory (m.grow size)⟩) := by
  unfold growth?
  cases s.host.commons? c.commons <;> rfl

namespace Flight.Like

variable {c : Caller} {x y : Flight σ} (like : x.Like d y)
include like

/-- Both calls are granted the same growth. -/
theorem growth? (memory pages : Nat) : y.growth? c memory pages = x.growth? c memory pages := by
  rw [growth?_eq_bind, growth?_eq_bind, like.store, like.host.instance?, like.host.budget?]

/-- A store in hand changes alike in both calls. -/
theorem modifyStore (f : Store → Store) :
    Flight.Like d { x with store := f x.store } { y with store := f y.store } :=
  ⟨congrArg f like.store, like.host⟩

/-- A memory grows alike in both calls. -/
theorem grow (g : Growth) : (x.grow c g).Like d (y.grow c g) :=
  ⟨congrArg (fun s : Store => { s with guest := g.guest }) like.store,
    (like.host.modifyInstance c.inst fun i => { i with limiter := g.limiter }).modifyBudget c.commons
      fun _ => g.budget⟩

end Flight.Like

/-- What is lost stays so when a memory grows. -/
theorem Flight.lost_grow {x : Flight σ} (lost : x.host.Lost d) (c : Caller) (g : Growth) :
    (x.grow c g).host.Lost d :=
  lost.mono rfl (fun _ gone => gone) (fun _ gone => gone) fun _ gone => gone.modify _ _

/-- Prints are the same change of both hosts. -/
def Evenhanded (d : Difference σ) (printer : Printer σ) : Prop :=
  ∀ commons bytes, Fair d (printer commons bytes)

/-- Printing without a hook is the same change of both hosts. -/
theorem evenhanded_emit : Evenhanded d Host.emit :=
  fair_emit

variable (prints : Evenhanded d printer)
include prints

/-- What is lost stays so during a call. -/
theorem working_lost (c : Caller) :
    Working printer c fun x y => x.host.Lost d → y.host.Lost d where
  refl _ := id
  trans first second := second ∘ first
  store _ _ _ _ _ := id
  print _ bytes := (prints c.commons bytes).lost
  clock x := (fair_readClock c.commons).lost
  mark _ _ _ := id
  grow x memory pages before t grown lost := by
    obtain ⟨_, _, _, _, -, -, -, -, -, -, -, host⟩ := Flight.growMemory?_eq_some grown
    rw [host]
    exact (fair_modifyInstance (d := d) _ _).lost ((fair_modifyBudget _ _).lost lost)

/-- Calls that hold the same store in hosts that are alike take the same steps. -/
theorem lockstep_like (c : Caller) :
    Lockstep printer printer c (Flight.Like d) fun x => x.host.Lost d where
  lost := working_lost prints c
  like rel := rel.store ▸ .refl _
  charged rel := by rw [rel.host.instance?]
  store := by
    intro x y s s' rel like _ _ active active'
    -- Stores that are alike and have the same on loan are the same.
    obtain ⟨guest, heap, latch, lent⟩ := s'
    obtain ⟨guest', heap', latch', lent'⟩ := s
    cases like.guest
    cases like.heap
    cases like.latch
    cases (active'.trans (congrArg Store.active rel.store)).trans active.symm
    exact ⟨rfl, rel.host⟩
  mark f _ rel := rel.modifyStore fun s =>
    { s with active := s.active.map fun a => { a with userData := f a.userData } }
  print bytes rel := (((prints c.commons bytes).like rel.host).imp id) fun host => ⟨rel.store, host⟩
  clock {x y} rel := by
    refine ⟨(rel.host.reading c.commons).symm, rel.store, ?_⟩
    exact rel.host.readClock c.commons

/-! ### Bringing up guests -/

/-- A part of a call ends in the same way in hosts that are alike. -/
abbrev FlightM.Blind (d : Difference σ) (x : FlightM σ α) : Prop :=
  Alike (Flight.Like d) (fun x => x.host.Lost d) x x

omit prints in
/-- The store in hand is changed, whatever the host is like. -/
theorem blind_modifyStore (f : Store → Store) : (FlightM.modifyStore f).Blind d where
  ends _ _ rel := .inr ⟨rfl, rel.modifyStore f⟩
  stays _ := id

omit prints in
/-- The guest in hand is changed, whatever the host is like. -/
theorem blind_modifyGuest (f : Wasm.Guest Callback → Wasm.Guest Callback) :
    (FlightM.modifyGuest f).Blind d :=
  blind_modifyStore _

omit prints in
/-- The store in hand is looked at. -/
theorem blind_loan {f : Store → FlightM σ α} (rest : ∀ s, (f s).Blind d) :
    FlightM.Blind d (FlightM.store >>= f) where
  ends x y rel := by
    refine alikeAt_store ?_
    rw [rel.store]
    exact (rest x.store).ends x y rel
  stays y := (rest y.store).stays y

omit prints in
/-- Code that asks for memory is answered alike. -/
theorem blind_growMemory? (c : Caller) (memory pages : Nat) (cause : String) :
    FlightM.Blind d (get >>= fun s => match s.growMemory? c memory pages with
      | some (_, s) => set s
      | none => (throw cause : FlightM σ PUnit)) := by
  refine alike_get (fun x y rel => ?_) fun y lost => ?_
  · rw [Flight.growMemory?_eq_map, Flight.growMemory?_eq_map, rel.growth?]
    cases x.growth? c memory pages with
    | none => exact .inr ⟨rfl, rel⟩
    | some g => exact .inr ⟨rfl, rel.grow g⟩
  · rw [Flight.growMemory?_eq_map]
    cases y.growth? c memory pages with
    | none => exact lost
    | some g => exact Flight.lost_grow lost c g

omit prints in
/-- A memory is added if the budget allows for it, and budgets are the same. -/
theorem blind_addMemory (c : Caller) (limits : Wasm.Limits) : (FlightM.addMemory c limits).Blind d :=
  blind_loan fun _ => alike_bind (blind_modifyStore _) fun _ => blind_growMemory? c _ _ _

omit prints in
/-- References are written into a table of the guest in hand. -/
theorem blind_putElement (e : Wasm.Element) : (FlightM.putElement (σ := σ) e).Blind d := by
  refine blind_loan fun s => ?_
  dsimp only
  split
  · exact blind_modifyGuest _
  · exact alike_throw _

omit prints in
/-- Bytes are written into a memory of the guest in hand. -/
theorem blind_putData (data : Wasm.Data) : (FlightM.putData (σ := σ) data).Blind d := by
  refine blind_loan fun s => ?_
  dsimp only
  split
  · exact blind_modifyGuest _
  · exact alike_throw _

/-- The guest runs its own course, and its callbacks do alike in both hosts. -/
theorem blind_enter [Engine] (c : Caller) (room function : Nat) (args : List Wasm.Value) :
    (FlightM.enter printer c room function args).Blind d where
  ends x y rel := alikeAt_enter (lockstep_like prints c) rel fun memory pages u v rel _ _ => by
    have fits := rel.growth? (c := c) memory pages
    refine alikeAt_growMemory rel (by rw [fits]) fun g g' grown grown' => ?_
    rw [fits, grown] at grown'
    cases grown'
    exact rel.grow g
  stays := (within_enter (working_lost prints c) room function args).stays

/-- A bare guest is brought into the same initial state. -/
theorem blind_populate [Engine] (c : Caller) (room : Nat) (m : Wasm.Module) :
    (FlightM.populate printer c room m).Blind d := by
  refine alike_bind (alike_forM _ fun _ => blind_addMemory c _) fun _ => ?_
  refine alike_bind (alike_forM _ fun limits => blind_modifyGuest _) fun _ => ?_
  refine alike_bind (alike_forM _ fun global => blind_modifyGuest _) fun _ => ?_
  refine alike_bind (alike_forM _ blind_putElement) fun _ => ?_
  refine alike_bind (alike_forM _ blind_putData) fun _ => ?_
  split
  · exact alike_pure _
  · exact alike_bind (blind_enter prints _ _ _ _) fun _ => alike_pure _

/-! ### Operations -/

/-- An operation ends in the same way in hosts that are alike, and leaves them so. -/
abbrev HostM.Blind (d : Difference σ) (x : HostM σ α) : Prop :=
  Alike (Host.Like d) (Host.Lost d) x x

omit prints

/-- What both hosts have in common is looked at. -/
theorem blind_look (look : Host σ → α) (same : ∀ {h k}, h.Like d k → look k = look h)
    {f : α → HostM σ β} (rest : ∀ a, (f a).Blind d) :
    HostM.Blind d (get >>= fun h => f (look h)) :=
  alike_get (fun h k like => same like ▸ (rest (look h)).ends h k like) fun k => (rest (look k)).stays k

/-- A fair change ends alike in both hosts. -/
theorem blind_modify {f : Host σ → Host σ} (fair : Fair d f) : HostM.Blind d (modify f) :=
  alike_modify (fun _ _ => fair.like) fun _ => fair.lost

/-- What goes by a value alone goes by nothing in the host. -/
theorem blind_ofOption (e : Error) (a : Option α) : HostM.Blind d (HostM.ofOption e a) := by
  cases a with
  | none => exact alike_throw e
  | some a => exact alike_pure a

/-- What goes by a result alone goes by nothing in the host. -/
theorem blind_ofExcept (a : Except Error α) : HostM.Blind d (HostM.ofExcept a) := by
  cases a with
  | error e => exact alike_throw e
  | ok a => exact alike_pure a

/-- A runtime is found in both hosts or in neither. -/
theorem blind_runtime (id : Nat) : (HostM.runtime id).Blind d :=
  blind_look (fun h => h.runtime? id) (fun like => like.runtime? id) fun _ => blind_ofOption _ _

/-- A module is found in both hosts or in neither. -/
theorem blind_module (id : Nat) : (HostM.module id).Blind d :=
  blind_look (fun h => h.module? id) (fun like => like.module? id) fun _ => blind_ofOption _ _

/-- An instance is found in both hosts or in neither. -/
theorem blind_inst (id : Nat) : (HostM.inst id).Blind d :=
  blind_look (fun h => h.instance? id) (fun like => like.instance? id) fun _ => blind_ofOption _ _

/-- An environment is found in both hosts or in neither. -/
theorem blind_environment (id : Nat) : (HostM.environment id).Blind d :=
  blind_look (fun h => h.environments.get? id) (fun like => by rw [like.environments])
    fun _ => blind_ofOption _ _

/-- A runner is found in both hosts or in neither. -/
theorem blind_runner (id : Nat) : (HostM.runner id).Blind d :=
  blind_look (fun h => h.runners.get? id) (fun like => by rw [like.runners])
    fun _ => blind_ofOption _ _

/-- An operation on one instance. -/
theorem Local.blind {id : Nat} {x : HostM σ α} (own : Local id x) : x.Blind d where
  ends h k like := by
    have ended := (own.like (like.instances.get id)).1
    exact (own.fair.like like).imp (fun lost => lost) fun after => ⟨ended.symm, after⟩
  stays _ := own.fair.lost

/-- An operation that is undone if it fails. -/
theorem blind_orUndo {undo : Host σ → Host σ} (fair : Fair d undo) {x : HostM σ α}
    (blind : x.Blind d) : (HostM.orUndo undo x).Blind d :=
  alike_tryCatch blind fun _ => alike_bind (blind_modify fair) fun _ => alike_throw _

/-- Errors that are handed on as results are the same. -/
theorem blind_attempt {x : HostM σ α} (blind : x.Blind d) : (HostM.attempt x).Blind d :=
  alike_tryCatch (alike_bind blind fun _ => alike_pure _) fun _ => alike_pure _

/-- A budget has as much in both hosts. -/
theorem blind_lease (commons bytes : Nat) (resource : Resource) :
    (HostM.lease commons bytes resource).Blind d := by
  constructor
  · intro h k like
    have budget := like.budget? commons
    unfold AlikeAt
    rw [exec_lease, exec_lease]
    generalize h.commons? commons = a at budget ⊢
    generalize k.commons? commons = b at budget ⊢
    -- Commons are there in both hosts or in neither.
    rcases a with _ | c <;> rcases b with _ | c'
    · exact .inr ⟨rfl, like⟩
    · cases budget
    · cases budget
    · have budget : c'.budget = c.budget := Option.some.inj budget
      dsimp only
      rw [budget]
      cases c.budget.reserve? bytes with
      | none => exact .inr ⟨rfl, like⟩
      | some b => exact .inr ⟨rfl, like.modifyBudget commons fun _ => b⟩
  · intro k lost
    rw [exec_lease]
    split
    · exact lost
    · split
      · exact lost
      · exact (fair_modifyBudget commons fun _ => _).lost lost

/-- A new object gets the same number in both hosts. -/
theorem blind_number {f : Host σ → Host σ} (number : Host σ → α)
    (same : ∀ h k, h.Like d k → number k = number h) (fair : Fair d f) {g : α → HostM σ β}
    (rest : ∀ a, (g a).Blind d) :
    HostM.Blind d (get >>= fun h => set (f h) >>= fun _ => g (number h)) := by
  refine alike_get (fun h k like => ?_) fun k lost => ?_
  · rw [same h k like]
    rcases fair.like like with lost | after
    · exact .inl ((rest _).stays _ lost)
    · exact (rest _).ends _ _ after
  · exact (rest _).stays _ (fair.lost lost)

/-! ### Making objects -/

/-- A runtime is created, if both hosts may have its output. -/
theorem blind_createRuntime (config : RuntimeConfig) (groups : List NativeGroup) {output : Output}
    (clock : Clock) (related : ∀ id, d.output id output output) :
    (HostM.createRuntime config groups output clock).Blind d := by
  refine alike_bind (blind_ofExcept _) fun budget => ?_
  dsimp only
  split
  · exact alike_throw _
  · refine alike_bind (blind_ofExcept _) fun natives => ?_
    exact blind_number (fun h => (h.runtimes.next, h.commons.next))
      (fun h k like => by rw [like.runtimes.next, like.commons.next])
      (fair_insertRuntime (c := ⟨budget, output, clock⟩) related fun commons =>
        ⟨{ commons, config, natives }, 1⟩) alike_pure

/-- A module is decoded and kept in the same way, and gets the same number. -/
theorem blind_keepModule (runtime : Nat) (r : Runtime) (bytecode : Bytes)
    (decoded : Option Wasm.Module) : (HostM.keepModule runtime r bytecode decoded).Blind d := by
  refine alike_bind (blind_lease _ _ _) fun _ => blind_orUndo (fair_giveBack _ _) ?_
  refine alike_bind (blind_ofOption _ _) fun wasm => ?_
  refine alike_bind (blind_modify (fair_retainRuntime runtime)) fun _ => ?_
  exact blind_number (fun h => h.modules.next) (fun h k like => like.modules.next)
    (fair_insertModule ⟨{ runtime, commons := r.commons, bytecode, wasm }, 1⟩) alike_pure

/-- Whether a bytecode is too large depends on the runtime alone. -/
theorem blind_checkSize (r : Runtime) (bytecode : Bytes) : (HostM.checkSize r bytecode).Blind d := by
  unfold HostM.checkSize
  split
  · exact alike_throw _
  · exact alike_pure _

/-- Whether a bytecode begins with the header depends on the bytecode alone. -/
theorem blind_checkHeader (bytecode : Bytes) : (HostM.checkHeader bytecode).Blind d := by
  unfold HostM.checkHeader
  split
  · exact alike_throw _
  · split
    · exact alike_throw _
    · exact alike_pure _

/-- Loading a bytecode. -/
theorem blind_load [Engine] (runtime : Nat) (bytecode : Bytes) :
    (HostM.load runtime bytecode).Blind d :=
  alike_bind (blind_runtime runtime) fun _ => alike_bind (blind_checkSize _ _) fun _ =>
    alike_bind (blind_checkHeader _) fun _ => blind_keepModule _ _ _ _

/-- Loading a text. -/
theorem blind_loadText [Engine] (runtime : Nat) (text : String) :
    (HostM.loadText runtime text).Blind d :=
  alike_bind (blind_runtime runtime) fun _ => alike_bind (blind_checkSize _ _) fun _ =>
    blind_keepModule _ _ _ _

/-- What a store goes through while no call holds it. -/
theorem blind_inFlight (s : Store) {act : FlightM σ α} (blind : act.Blind d) :
    (HostM.inFlight s act).Blind d where
  ends h k like := (blind.ends ⟨s, h⟩ ⟨s, k⟩ ⟨rfl, like⟩).imp (fun lost => lost) fun ⟨same, after⟩ =>
    ⟨congrArg Except.ok (Prod.ext same after.store.symm), after.host⟩
  stays k := blind.stays ⟨s, k⟩

/-- Memory that an instance gets before its store is in place. -/
theorem blind_grown (s : Store) (c : Caller) (memory pages : Nat) (e : Error)
    {f : Nat → Store → HostM σ β} (rest : ∀ before s, (f before s).Blind d) :
    HostM.Blind d (do
      let (before, t) ← HostM.ofOption e (Flight.growMemory? ⟨s, ← get⟩ c memory pages)
      set t.host
      f before t.store) := by
  refine alike_get (fun h k like => ?_) fun k lost => ?_
  · have flight : Flight.Like d ⟨s, h⟩ ⟨s, k⟩ := ⟨rfl, like⟩
    rw [Flight.growMemory?_eq_map, Flight.growMemory?_eq_map, flight.growth?]
    cases Flight.growth? ⟨s, h⟩ c memory pages with
    | none => exact .inr ⟨rfl, like⟩
    | some g => exact (rest _ _).ends _ _ (flight.grow (c := c) g).host
  · rw [Flight.growMemory?_eq_map]
    cases Flight.growth? ⟨s, k⟩ c memory pages with
    | none => exact lost
    | some g => exact (rest _ _).stays _ (Flight.lost_grow lost c g)

/-- The app heap at the end of a memory that had so many pages before. -/
def HostM.manageGrown (bytes before : Nat) (s : Store) : HostM σ Store := do
  let base := before * Wasm.pageSize
  if addressRange ≤ base then throw (.initFailed .inst .heapBeyondRange)
  let pages := (bytes + (Wasm.pageSize - 1)) / Wasm.pageSize
  let heap := Heap.manage base (min (pages * Wasm.pageSize) (addressRange - 1))
  pure { s with heap := some heap }

/-- An app heap takes its pages while a call is in flight, of which the store is what counts. -/
theorem appendHeap_eq (c : Caller) (memory : Option Nat) (bytes : Nat) (s : Store) :
    HostM.appendHeap (σ := σ) c memory bytes s = (do
      let i ← HostM.ofOption (.initFailed .inst .heapWithoutMemory) memory
      let pages := (bytes + (Wasm.pageSize - 1)) / Wasm.pageSize
      let (before, t) ← HostM.ofOption (.initFailed .inst (.growthRefused pages))
        (Flight.growMemory? ⟨s, ← get⟩ c i pages)
      set t.host
      HostM.manageGrown bytes before t.store) := rfl

/-- Pages for an app heap are charged to the same budget. -/
theorem blind_appendHeap (c : Caller) (memory : Option Nat) (bytes : Nat) (s : Store) :
    (HostM.appendHeap c memory bytes s).Blind d := by
  rw [appendHeap_eq]
  refine alike_bind (blind_ofOption _ _) fun i => blind_grown s c i _ _ fun before t => ?_
  unfold HostM.manageGrown
  dsimp only
  split
  · exact alike_throw _
  · exact alike_pure _

/-- A guest is brought up with the same memory and the same app heap. -/
theorem blind_bringUp [Engine] (prints : Evenhanded d printer) (id : Nat) (r : Runtime)
    (m : LoadedModule) (heap : Nat) : (HostM.bringUp printer id r m heap).Blind d := by
  refine alike_bind (blind_ofExcept _) fun imported => ?_
  refine alike_bind (blind_inFlight _ (blind_populate prints _ _ _)) fun ⟨result, s⟩ => ?_
  refine alike_bind (blind_ofExcept _) fun _ => ?_
  dsimp only
  split
  · exact alike_bind (alike_pure _) fun _ => blind_modify (fair_modifyInstance _ _)
  · exact alike_bind (blind_appendHeap _ _ _ _) fun _ => blind_modify (fair_modifyInstance _ _)

/-- Instantiating a module. -/
theorem blind_instantiate [Engine] (prints : Evenhanded d printer) (module stack heap : Nat) :
    (HostM.instantiate printer module stack heap).Blind d := by
  refine alike_bind (blind_module module) fun m => alike_bind (blind_runtime _) fun r => ?_
  refine alike_bind (blind_lease _ _ _) fun _ => ?_
  refine alike_bind (blind_modify (fair_retainModule module)) fun _ => ?_
  refine blind_number (fun h => h.instances.next) (fun h k like => like.instances.next)
    (fair_insertInstance ⟨{
      module
      commons := m.commons
      stackSize := stack
      limiter := .empty
      memory := none
      store := none }, 1⟩)
    (g := fun id => do
      HostM.orUndo (·.releaseInstance id) (HostM.bringUp printer id r m heap)
      pure id) fun id => ?_
  exact alike_bind (blind_orUndo (fair_releaseInstance id) (blind_bringUp prints id r m heap))
    fun _ => alike_pure id

/-- Creating an environment. -/
theorem blind_createEnvironment (id stack : Nat) : (HostM.createEnvironment id stack).Blind d := by
  refine alike_bind (blind_inst id) fun i => alike_bind (blind_module _) fun m => ?_
  refine alike_bind (blind_runtime _) fun r => ?_
  dsimp only
  split
  · exact alike_throw _
  · refine alike_bind (blind_lease _ _ _) fun _ => ?_
    refine alike_bind (blind_modify (fair_retainInstance id)) fun _ => ?_
    exact blind_number (fun h => h.environments.next)
      (fun h k like => by rw [like.environments]) (fair_insertEnvironment _) alike_pure

/-- What takes a block and numbers it: it goes by one instance, and numbers are the same. -/
theorem blind_numbers {id : Nat} {x : HostM σ Nat} (numbers : Numbers id x) : x.Blind d := by
  obtain ⟨y, block, own, -, rfl⟩ := numbers
  refine alike_bind own.blind fun address => ?_
  exact blind_number (fun h => h.blocks.next) (fun h k like => by rw [like.blocks])
    (fair_insertBlock _) alike_pure

/-! ### Calls -/

variable {h k : Host σ}

/-- Both hosts find the same function to call, or the same reason not to. -/
theorem Host.Like.callee (like : h.Like d k) (id : Nat) (name : String) :
    k.callee id name = h.callee id name := by
  have room : k.room = h.room := by
    funext i
    unfold Host.room
    rw [like.module?]
    simp only [like.runtime?]
  unfold Host.callee
  rw [like.instance?, room]

/-- A call takes the store and the user data out of both hosts. -/
theorem Host.Like.beginCall (like : h.Like d k) (id environment : Nat) :
    (h.beginCall id environment).Like d (k.beginCall id environment) := by
  have retained := like.modifyInstances id fun _ _ _ same => same.retain
  have held := retained.modifyInstance id fun i => { i with store := none }
  exact { held with environments := congrArg (fun p : Pool Environment =>
    p.modify environment fun e => { e with userData := .empty }) like.environments }

/-- A call puts the store and the user data back into both hosts. -/
theorem fair_endCall (id environment : Nat) (userData : Option UserData) (s : Store) :
    Fair d fun h => h.endCall id environment userData s :=
  (fair_releaseInstance _).comp ((fair_modifyInstance _ _).comp (fair_modifyEnvironment _ _))

variable [Engine]

section

variable {v w : Invoker} {name : String} {args : List HostValue} {results : List HostType}

/-- A call ends where its guest does, and gives up the instance. -/
theorem Entry.lost_call (entry : Entry h v.environment name args results)
    (lost : (entry.run printer).2.host.Lost d) :
    (v.call printer name args results h).2.2.Lost d := by
  obtain ⟨-, -, s, landed, -⟩ := entry.call_congr
    (rfl : (entry.run printer).1 = (entry.run printer).1) rfl
  rw [landed]
  exact (fair_endCall _ _ _ _).lost lost

variable (prints : Evenhanded d printer)
include prints

/-- What is lost stays so during a call. -/
theorem Invoker.lost_call (lost : h.Lost d) :
    (v.call printer name args results h).2.2.Lost d := by
  rcases v.exists_entry_or_same printer name args results h with ⟨⟨entry⟩⟩ | same
  · refine entry.lost_call ((blind_enter prints _ _ _ _).stays entry.flight ?_)
    exact (fair_modifyEnvironment (d := d) _ _).lost
      ((fair_modifyInstance _ _).lost ((fair_retainInstance _).lost lost))
  · rwa [same]

/-- **Calls.** Calls through one environment end in the same way in hosts that are alike. -/
theorem Invoker.call_blind (like : h.Like d k) (phase : w.phase = v.phase)
    (environment : w.environment = v.environment) :
    (w.call printer name args results k).2.2.Lost d ∨
      (w.call printer name args results k).1 = (v.call printer name args results h).1 ∧
        (w.call printer name args results k).2.1.phase =
          (v.call printer name args results h).2.1.phase ∧
        (v.call printer name args results h).2.2.Like d
          (w.call printer name args results k).2.2 := by
  obtain ⟨i, p, past⟩ := v
  obtain ⟨j, p', past'⟩ := w
  cases environment
  cases phase
  have ready : (Invoker.mk i p past').ready.phase = (Invoker.mk i p past).ready.phase := by
    unfold Invoker.ready
    split <;> rfl
  have bound' : k.environments.get? i = h.environments.get? i := by rw [like.environments]
  -- What a call needs is looked up in the same order in both hosts, and found to be the same.
  cases bound : h.environments.get? i with
  | none =>
    refine .inr ?_
    unfold call
    simp only [environment_ready, bound', bound]
    exact ⟨trivial, ready, like⟩
  | some e =>
    rw [bound] at bound'
    have same := like.callee e.inst name
    cases found : h.callee e.inst name with
    | error error =>
      rw [call_refused bound found, call_refused bound' (same.trans found)]
      exact .inr ⟨rfl, ready, like⟩
    | ok callee =>
      cases encoded : encodeCall callee.type args results with
      | error error =>
        refine .inr ?_
        unfold call
        simp only [environment_ready, bound, bound', found, same, encoded]
        exact ⟨trivial, rfl, like⟩
      | ok params =>
        let entry : Entry h i name args results := ⟨e, callee, params, bound, found, encoded⟩
        let entry' : Entry k i name args results :=
          ⟨e, callee, params, bound', same.trans found, encoded⟩
        have begun : Flight.Like d entry.flight entry'.flight := ⟨rfl, like.beginCall _ _⟩
        rcases (blind_enter prints callee.caller callee.room callee.function params).ends
          entry.flight entry'.flight begun with lost | ⟨ended, rel⟩
        · exact .inl (entry'.lost_call (v := ⟨i, p, past'⟩) lost)
        · change (entry.run printer).1 = (entry'.run printer).1 at ended
          change Flight.Like d (entry.run printer).2 (entry'.run printer).2 at rel
          obtain ⟨result, phase, s, landed, landed'⟩ :=
            entry.call_like (v := ⟨i, p, past⟩) (w := ⟨i, p, past'⟩) entry' ended.symm
              (rel.store ▸ .refl _)
          rw [landed, landed', Entry.landed, Entry.landed, rel.store]
          exact ((fair_endCall callee.caller.inst i _ s).like rel.host).imp (fun lost => lost)
            fun after => ⟨result, phase, after⟩

/-- A call is turned away by both hosts, or runs in both and ends in the same way. -/
theorem blind_call (environment : Nat) (name : String) (args : List HostValue)
    (results : List HostType) : (HostM.call printer environment name args results).Blind d where
  ends h k like := by
    unfold AlikeAt
    rw [exec_call, exec_call]
    exact (Invoker.call_blind prints like rfl rfl).imp (fun lost => lost) fun ⟨result, _, after⟩ =>
      ⟨result.symm, after⟩
  stays k lost := by
    rw [exec_call]
    exact Invoker.lost_call prints lost

/-! ### Runners -/

omit [Engine] prints in
/-- Creating an environment for an event. -/
theorem blind_createEventEnvironment (inst stack : Nat) (eventId payload : Bytes) :
    (HostM.createEventEnvironment inst stack eventId payload).Blind d := by
  refine alike_bind (blind_createEnvironment inst stack) fun environment => ?_
  refine blind_orUndo (fair_dropEnvironment _) (alike_bind (blind_ofExcept _) fun userData => ?_)
  exact alike_bind (blind_modify (fair_modifyEnvironment _ _)) fun _ => alike_pure _

/-- Creating a runner, which loads, instantiates and creates an environment, and gives everything
back if it fails. -/
theorem blind_createRunner (runtime : Nat) (bytecode eventId payload : Bytes)
    (config : ModuleConfig) (execStack : Nat) :
    (HostM.createRunner printer runtime bytecode eventId payload config execStack).Blind d := by
  refine alike_bind (blind_runtime runtime) fun r => alike_bind (blind_load _ _) fun module => ?_
  refine blind_orUndo (fair_releaseModule _) ?_
  refine alike_bind (blind_instantiate prints _ _ _) fun inst => ?_
  refine blind_orUndo (fair_releaseInstance _) ?_
  refine alike_bind (blind_createEventEnvironment _ _ _ _) fun environment => ?_
  exact blind_number (fun h => h.runners.next) (fun h k like => by rw [like.runners])
    (fair_insertRunner _) alike_pure

omit [Engine] in
/-- Printing a text. -/
theorem blind_printText (commons : Nat) (text : String) :
    (HostM.printText printer commons text).Blind d :=
  blind_modify (prints commons _)

omit [Engine] prints in
/-- How a run ended is settled by the instance alone. -/
theorem blind_settle (id : Nat) (result : Except Error (List HostValue)) :
    (HostM.settle (σ := σ) id result).Blind d := by
  unfold HostM.settle
  split
  · exact alike_pure _
  · exact alike_throw _
  · refine alike_bind (blind_runner id) fun r => alike_bind (blind_environment _) fun e => ?_
    dsimp only
    split
    · exact alike_throw _
    · exact alike_bind local_clearException.blind fun _ => alike_pure _

/-- A run calls the entry point and settles how it ended. -/
theorem blind_runEntry (id : Nat) (name : String) (more : List HostValue) :
    (HostM.runEntry printer id name more).Blind d := by
  refine alike_bind (blind_runner id) fun r => ?_
  refine alike_bind (alike_bind (blind_environment _) fun _ => alike_pure _) fun lengths => ?_
  exact alike_bind (blind_attempt (blind_call prints _ _ _ _)) fun result => blind_settle id result

/-- A plain run. -/
theorem blind_runPlain (id : Nat) : (HostM.runPlain printer id).Blind d :=
  alike_bind (blind_runner id) fun _ => alike_bind (blind_printText prints _ _) fun _ =>
    blind_runEntry prints id _ _

omit [Engine] prints in
/-- What a runner notes down of its runs. -/
theorem blind_modifyRunner (id : Nat) (f : Runner → Runner) : (HostM.modifyRunner id f).Blind d :=
  blind_modify (fair_modifyRunner id f)

/-- An instrumented run. -/
theorem blind_runInstrumented (id : Nat) (threshold : UInt64) :
    (HostM.runInstrumented printer id threshold).Blind d := by
  refine alike_bind (blind_modifyRunner id _) fun _ => alike_bind (blind_runner id) fun r => ?_
  refine alike_bind (blind_printText prints _ _) fun _ => ?_
  refine alike_bind (blind_runEntry prints id _ _) fun outcome => ?_
  refine alike_bind (local_getUInt64 _).blind fun counter => ?_
  refine alike_bind (blind_modifyRunner id _) fun _ => ?_
  exact alike_bind (blind_printText prints _ _) fun _ => alike_pure _

omit [Engine] prints in
/-- A runner is reset by setting globals of its instance. -/
theorem blind_resetRunner (id : Nat) : (HostM.resetRunner id).Blind d :=
  alike_bind (blind_runner id) fun _ => alike_bind local_resetCounters.blind fun _ =>
    alike_bind (blind_modify (fair_modifyEnvironment _ _)) fun _ => blind_modifyRunner id _

/-! ### Benchmarks -/

omit [Engine] prints in
/-- What is done again and again, by induction on how often. -/
theorem blind_repeatedly {act : HostM σ α} (blind : act.Blind d) (count : Nat) :
    (HostM.repeatedly act count).Blind d := by
  induction count with
  | zero => exact alike_pure _
  | succ count ih =>
    refine alike_bind (blind_attempt blind) fun result => ?_
    cases result with
    | error e => exact alike_pure _
    | ok a => exact alike_bind ih fun _ => alike_pure _

/-- One part of a benchmark: a runner, some runs of it, and the drop of the runner. -/
theorem blind_benchmarkBuild (runtime : Nat) (run : RunConfig) (bytecode : Bytes)
    {once : Nat → HostM σ Outcome} (blind : ∀ id, (once id).Blind d) :
    (HostM.benchmarkBuild printer runtime run bytecode once).Blind d := by
  refine alike_bind (blind_runtime runtime) fun r => ?_
  refine alike_bind (blind_attempt (blind_createRunner prints _ _ _ _ _ _)) fun created => ?_
  cases created with
  | error e => exact alike_pure _
  | ok id =>
    refine alike_bind (blind_repeatedly (blind id) _) fun result => ?_
    exact alike_bind (blind_modify (fair_dropRunner id)) fun _ => alike_pure _

omit [Engine] in
/-- A line is printed before something is done, and another one after it. -/
theorem blind_announced (commons : Nat) (kind : String) {act : HostM σ Outcome}
    (blind : act.Blind d) : (HostM.announced printer commons kind act).Blind d :=
  alike_bind (blind_printText prints _ _) fun _ => alike_bind blind fun _ =>
    alike_bind (blind_printText prints _ _) fun _ => alike_pure _

/-- **Benchmarks.** A benchmark ends in the same way in hosts that are alike. -/
theorem blind_benchmark (runtime : Nat) (run : RunConfig) (plain instrumented : Bytes) :
    (HostM.benchmark printer runtime run plain instrumented).Blind d := by
  refine alike_bind (blind_runtime runtime) fun r => ?_
  refine alike_bind (blind_benchmarkBuild prints _ _ _ fun id =>
    blind_announced prints _ _ (blind_runPlain prints id)) fun ⟨plainRuns, e⟩ => ?_
  dsimp only
  split
  · exact alike_pure _
  · refine alike_bind (blind_benchmarkBuild prints _ _ _ fun id => blind_announced prints _ _ ?_)
      fun _ => alike_pure _
    exact alike_bind (blind_runInstrumented prints id _) fun _ =>
      alike_bind (blind_resetRunner id) fun _ => alike_pure _

end

end Embedder
