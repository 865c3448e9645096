import Embedder.Proofs.Host.Tandem

namespace Embedder

open Session (Kind)

/-!
# New environments and blocks

What is made of an instance gets a number that nothing had before, and is confined to the instance.
In two hosts that have the instance in common the same comes of it, though under numbers that may be
different, if no budget refuses what is charged.

* `Makes`, `MadeAlike`: operations that make something of an instance, alone and side by side.
* `Numbers.makes`, `Numbers.alike`: blocks.
* `exec_createEnvironment`, `makes_createEnvironment`, `createEnvironment_alike`: environments.
-/

variable {σ : Type} {h k : Host σ} {id : Nat}

/-- An operation makes an object of some kind that belongs to an instance, under a new number. It is
confined to the instance, and to the object if there is one. -/
def Makes (kind : Kind) (id : Nat) (x : HostM σ Nat) : Prop :=
  ∀ h, Ends x h
    (fun j t => h.object? kind j = none ∧ Host.Confined {id} {(kind, j)} h t ∧
      ∃ y, t.object? kind j = some y ∧ y.home = id)
    fun _ t => Host.Confined {id} ∅ h t

/-- Two operations have ended with the same error, or have made the same; the instance has become the
same. -/
def MadeAlike (kind : Kind) (id : Nat) (r r' : Except Error Nat × Host σ) : Prop :=
  r'.2.instances.get? id = r.2.instances.get? id ∧
    match r.1, r'.1 with
    | .ok i, .ok j => r'.2.object? kind j = r.2.object? kind i
    | .error e, .error e' => e' = e
    | _, _ => False

/-! ### Blocks -/

theorem exec_numberBlock (h : Host σ) (b : Block) : exec (HostM.numberBlock b) h =
    (.ok h.blocks.next, { h with blocks := (h.blocks.insert b).1 }) := rfl

/-- What takes a block and numbers it makes an object of its instance. -/
theorem Numbers.makes {x : HostM σ Nat} (numbers : Numbers id x) : Makes .block id x := by
  obtain ⟨y, block, own, belongs, rfl⟩ := numbers
  intro h
  rw [ends_bind_iff]
  have confined := own.confined h
  obtain ⟨p, after, -⟩ := own.alone h
  unfold Ends
  generalize exec y h = r at confined after ⊢
  obtain ⟨e | address, t⟩ := r
  · exact confined
  · dsimp only at after confined ⊢
    subst after
    rw [exec_numberBlock]
    -- The number that it gets is the next one, which stands for nothing yet.
    have fresh : (h.blocks.get? h.blocks.next).map Thing.block = none := by
      rw [Pool.get?_next]
      rfl
    refine ⟨fresh, (confined.mono subset_rfl (Set.empty_subset _)).trans ?_, .block (block address),
      ?_, belongs address⟩
    · refine (Host.confined_blocks _ fun j other => ?_).mono (Set.empty_subset _) subset_rfl
      rw [Pool.get?_insert, if_neg other]
    · show ((h.blocks.insert (block address)).1.get? h.blocks.next).map Thing.block = _
      rw [Pool.get?_insert, if_pos rfl]
      rfl

/-- Where the instance is the same, it makes the same object, whatever its number. -/
theorem Numbers.alike {x : HostM σ Nat} (numbers : Numbers id x)
    (same : k.instances.get? id = h.instances.get? id) :
    MadeAlike .block id (exec x h) (exec x k) := by
  obtain ⟨y, block, own, belongs, rfl⟩ := numbers
  obtain ⟨ended, after⟩ := own.alike same
  rw [exec_bind, exec_bind]
  generalize exec y h = r at ended after ⊢
  generalize exec y k = r' at ended after ⊢
  obtain ⟨e | address, t⟩ := r <;> obtain ⟨e' | address', t'⟩ := r' <;> cases ended
  · exact ⟨after, rfl⟩
  · refine ⟨after, ?_⟩
    show ((t'.blocks.insert (block address)).1.get? t'.blocks.next).map Thing.block =
      ((t.blocks.insert (block address)).1.get? t.blocks.next).map Thing.block
    rw [Pool.get?_insert, Pool.get?_insert, if_pos rfl, if_pos rfl]

/-! ### Environments -/

/-- An environment without user data. -/
def Environment.bare (inst commons stackSize : Nat) : Environment :=
  ⟨inst, commons, stackSize, .empty⟩

/-- The commons that a new environment of an instance is charged to, or what is wrong with it, short
of what the budget says. -/
def Host.payer (h : Host σ) (id stack : Nat) : Except Error Nat :=
  match h.instance? id, h.origin? id with
  | some i, some (_, r) =>
    let limit := r.config.maxWasmStack.toNat
    if stack = 0 ∨ limit < stack then .error (.initFailed .environment (.stackOutside stack limit))
    else .ok i.commons
  | _, _ => .error .badHandle

/-- An environment gets its number, and holds its instance. -/
def HostM.numberEnvironment (e : Environment) : HostM σ Nat := do
  modify (·.retainInstance e.inst)
  let h ← get
  let (environments, id) := h.environments.insert e
  set { h with environments }
  pure id

/-- What is there decides what comes next. -/
theorem exec_ofOption_bind {α β : Type} (e : Error) (a : Option α) (f : α → HostM σ β)
    (h : Host σ) : exec (HostM.ofOption e a >>= f) h =
      match a with
      | some a => exec (f a) h
      | none => (.error e, h) := by
  cases a <;> rfl

/-- An environment is created when its instance and what that was made from have been looked at, and
then the budget. -/
theorem exec_createEnvironment (h : Host σ) (id stack : Nat) :
    exec (HostM.createEnvironment id stack) h = exec (do
      let commons ← HostM.ofExcept (h.payer id stack)
      HostM.lease commons stack .environment
      HostM.numberEnvironment (.bare id commons stack)) h := by
  have inst : exec (HostM.createEnvironment id stack) h = exec (HostM.ofOption .badHandle
    (h.instance? id) >>= fun i => HostM.module i.module >>= fun m => _) h := rfl
  rw [inst, exec_ofOption_bind]
  -- The look-ups from the instance to its runtime are those that find who pays.
  unfold Host.payer Host.origin?
  cases h.instance? id with
  | none => rfl
  | some i =>
    have module : ∀ {β : Type} (f : LoadedModule → HostM σ β), exec (HostM.module i.module >>= f) h =
      exec (HostM.ofOption .badHandle (h.module? i.module) >>= f) h := fun _ => rfl
    dsimp only [Option.bind_eq_bind, Option.bind_some]
    rw [module, exec_ofOption_bind]
    cases h.module? i.module with
    | none => rfl
    | some m =>
      have runtime : ∀ {β : Type} (f : Runtime → HostM σ β), exec (HostM.runtime m.runtime >>= f) h =
        exec (HostM.ofOption .badHandle (h.runtime? m.runtime) >>= f) h := fun _ => rfl
      dsimp only [Option.bind_some]
      rw [runtime, exec_ofOption_bind]
      cases h.runtime? m.runtime with
      | none => rfl
      | some r =>
        dsimp only [Option.bind_some, Option.pure_def]
        split <;> rfl

/-- A charge is taken from the budget, or refused. -/
theorem exec_lease (h : Host σ) (commons n : Nat) (resource : Resource) :
    exec (HostM.lease commons n resource) h =
      match h.commons? commons with
      | none => (.error .badHandle, h)
      | some c =>
        match c.budget.reserve? n with
        | none => (.error (.initFailed resource
            (.budgetExhausted n c.budget.available c.budget.capacity)), h)
        | some budget => (.ok (), h.modifyBudget commons fun _ => budget) := by
  have start : exec (HostM.lease commons n resource) h = exec (HostM.ofOption .badHandle
    (h.commons? commons) >>= fun c => HostM.ofExcept (c.budget.lease n resource) >>= fun budget =>
      modify fun h => h.modifyBudget commons fun _ => budget) h := rfl
  rw [start, exec_ofOption_bind]
  cases h.commons? commons with
  | none => rfl
  | some c =>
    unfold Budget.lease
    dsimp only
    cases c.budget.reserve? n <;> rfl

/-- A new environment gets a number that stood for nothing, and holds its instance. -/
theorem ends_numberEnvironment (h : Host σ) (e : Environment) :
    Ends (HostM.numberEnvironment e) h
      (fun j t => h.object? .environment j = none ∧
        Host.Confined {e.inst} {(.environment, j)} h t ∧
        t.object? .environment j = some (.environment e))
      fun _ _ => False := by
  refine ⟨?_, ?_, ?_⟩
  · show (h.environments.get? h.environments.next).map Thing.environment = _
    rw [Pool.get?_next]
    rfl
  · refine ((h.confined_retainInstance e.inst).mono subset_rfl (Set.empty_subset _)).trans ?_
    refine (Host.confined_environments (h.retainInstance e.inst) fun j other => ?_).mono
      (Set.empty_subset _) subset_rfl
    show (h.environments.insert e).1.get? j = h.environments.get? j
    rw [Pool.get?_insert, if_neg (show j ≠ h.environments.next from other)]
  · show ((h.environments.insert e).1.get? h.environments.next).map Thing.environment = _
    rw [Pool.get?_insert, if_pos rfl]
    rfl

/-- To create an environment makes an object of its instance. -/
theorem makes_createEnvironment (id stack : Nat) :
    Makes .environment id (HostM.createEnvironment id stack : HostM σ Nat) := by
  intro h
  unfold Ends
  rw [exec_createEnvironment]
  refine ends_bind (P := fun _ t => t = h) (ends_ofExcept.2 ⟨fun _ _ => rfl, fun _ _ => .refl h⟩) ?_
  intro commons t same
  rw [same]
  have charged : Ends (HostM.lease commons stack .environment) h
      (fun _ t => Host.Confined ∅ ∅ h t) fun _ t => Host.Confined {id} ∅ h t := by
    refine ends_lease (fun c budget _ _ => h.confined_modifyBudget commons _) fun _ => .refl h
  refine ends_bind charged fun _ t paid => ?_
  refine (ends_numberEnvironment t (.bare id commons stack)).mono ?_ fun _ _ => False.elim
  rintro j u ⟨fresh, confined, there⟩
  exact ⟨(paid.objects _ _ (Set.notMem_empty _)).symm.trans fresh,
    (paid.mono (Set.empty_subset _) (Set.empty_subset _)).trans confined, _, there, rfl⟩

/-- An operation fails because a budget has not what it asks for. -/
def Exhausted {α : Type} (r : Except Error α) : Prop :=
  ∃ resource needed available capacity,
    r = .error (.initFailed resource (.budgetExhausted needed available capacity))

/-- A charge decides what comes next. -/
theorem exec_lease_bind {β : Type} (commons n : Nat) (resource : Resource) (f : Unit → HostM σ β)
    (h : Host σ) : exec (HostM.lease commons n resource >>= f) h =
      match h.commons? commons with
      | none => (.error .badHandle, h)
      | some c =>
        match c.budget.reserve? n with
        | none => (.error (.initFailed resource
            (.budgetExhausted n c.budget.available c.budget.capacity)), h)
        | some budget => exec (f ()) (h.modifyBudget commons fun _ => budget) := by
  rw [exec_bind, exec_lease]
  cases h.commons? commons with
  | none => rfl
  | some c =>
    dsimp only
    cases c.budget.reserve? n <;> rfl

/-- Where the instance is the same, the same environment is made, whatever its number. -/
theorem numberEnvironment_alike (e : Environment)
    (same : k.instances.get? e.inst = h.instances.get? e.inst) :
    MadeAlike .environment e.inst (exec (HostM.numberEnvironment e) h)
      (exec (HostM.numberEnvironment e) k) := by
  refine ⟨?_, ?_⟩
  · show (k.instances.modify e.inst _).get? e.inst = (h.instances.modify e.inst _).get? e.inst
    rw [Pool.get?_modify, Pool.get?_modify, same]
  · show ((k.environments.insert e).1.get? k.environments.next).map Thing.environment =
      ((h.environments.insert e).1.get? h.environments.next).map Thing.environment
    rw [Pool.get?_insert, Pool.get?_insert, if_pos rfl, if_pos rfl]

/-- The same environment is charged to two budgets, unless one of them has not what it takes. -/
theorem chargeEnvironment_alike {e : Environment} {commons n : Nat}
    (same : k.instances.get? e.inst = h.instances.get? e.inst)
    (tells : k.tells? commons = h.tells? commons)
    (afforded : ¬ Exhausted (exec (HostM.lease commons n .environment >>= fun _ =>
      HostM.numberEnvironment e) h).1)
    (afforded' : ¬ Exhausted (exec (HostM.lease commons n .environment >>= fun _ =>
      HostM.numberEnvironment e) k).1) :
    MadeAlike .environment e.inst
      (exec (HostM.lease commons n .environment >>= fun _ => HostM.numberEnvironment e) h)
      (exec (HostM.lease commons n .environment >>= fun _ => HostM.numberEnvironment e) k) := by
  rw [exec_lease_bind] at afforded afforded' ⊢
  rw [exec_lease_bind]
  have present := congrArg Option.isSome tells
  rw [← Host.isSome_commons?, ← Host.isSome_commons?] at present
  -- Both know what guests share or neither does, and if they do, neither budget is exhausted.
  cases hc : h.commons? commons <;> cases hc' : k.commons? commons <;> rw [hc, hc'] at present
  case none.none => exact ⟨same, rfl⟩
  case none.some => cases present
  case some.none => cases present
  case some.some c c' =>
    rw [hc] at afforded
    rw [hc'] at afforded'
    dsimp only at afforded afforded' ⊢
    cases reserved : c.budget.reserve? n with
    | none =>
      rw [reserved] at afforded
      exact absurd ⟨_, _, _, _, rfl⟩ afforded
    | some budget =>
      cases reserved' : c'.budget.reserve? n with
      | none =>
        rw [reserved'] at afforded'
        exact absurd ⟨_, _, _, _, rfl⟩ afforded'
      | some budget' => exact numberEnvironment_alike e same

/-- **Environments.** The same environment is created in two hosts that have the instance in common,
unless a budget has not what it takes. -/
theorem createEnvironment_alike (shares : h.Shares id k) {stack : Nat}
    (afforded : ¬ Exhausted (exec (HostM.createEnvironment id stack) h).1)
    (afforded' : ¬ Exhausted (exec (HostM.createEnvironment id stack) k).1) :
    MadeAlike .environment id (exec (HostM.createEnvironment id stack) h)
      (exec (HostM.createEnvironment id stack) k) := by
  have payer : k.payer id stack = h.payer id stack := by
    unfold Host.payer
    rw [shares.instance?, shares.origin]
  rw [exec_createEnvironment] at afforded afforded' ⊢
  rw [exec_createEnvironment k, payer]
  rw [payer] at afforded'
  cases paid : h.payer id stack with
  | error e => exact ⟨shares.inst, rfl⟩
  | ok commons =>
    rw [paid] at afforded afforded'
    exact chargeEnvironment_alike shares.inst (shares.tells commons) afforded afforded'

end Embedder
