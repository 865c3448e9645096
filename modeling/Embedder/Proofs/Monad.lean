import Embedder.Host.State

namespace Embedder

/-!
# How operations end

Operations on a host and parts of a call are computations over a state that may fail. What such a
computation does is said by two conditions, one for its value and one for its failure.

* `exec`: the end of a computation, and the state after it.
* `Ends`: what holds when a computation is done, or has failed.
* `ends_bind`, `ends_tryCatch`: one rule for each way of putting computations together.
-/

variable {ε S α β : Type}

/-- How a computation that may fail ends, and the state after it. -/
def exec (x : ExceptT ε (StateM S) α) (s : S) : Except ε α × S :=
  x.run.run s

/-- From a state, a computation ends with a value as `Q` says, or fails as `E` says. -/
def Ends (x : ExceptT ε (StateM S) α) (s : S) (Q : α → S → Prop) (E : ε → S → Prop) : Prop :=
  match exec x s with
  | (.ok a, t) => Q a t
  | (.error e, t) => E e t

variable {x : ExceptT ε (StateM S) α} {f : α → ExceptT ε (StateM S) β} {s : S}

/-! ### Single steps -/

@[simp] theorem ends_pure {Q : α → S → Prop} {E : ε → S → Prop} {a : α} :
    Ends (pure a) s Q E ↔ Q a s := Iff.rfl

@[simp] theorem ends_throw {Q : α → S → Prop} {E : ε → S → Prop} {e : ε} :
    Ends (throw e) s Q E ↔ E e s := Iff.rfl

@[simp] theorem ends_get {Q : S → S → Prop} {E : ε → S → Prop} : Ends get s Q E ↔ Q s s := Iff.rfl

@[simp] theorem ends_set {Q : PUnit → S → Prop} {E : ε → S → Prop} {t : S} :
    Ends (set t) s Q E ↔ Q ⟨⟩ t := Iff.rfl

@[simp] theorem ends_modify {Q : PUnit → S → Prop} {E : ε → S → Prop} {u : S → S} :
    Ends (modify u) s Q E ↔ Q ⟨⟩ (u s) := Iff.rfl

/-! ### Composition -/

/-- A computation goes on with what the first part has returned, unless it has failed. -/
theorem exec_bind : exec (x >>= f) s =
    match exec x s with
    | (.ok a, t) => exec (f a) t
    | (.error e, t) => (.error e, t) := by
  show (ExceptT.bindCont f (exec x s).1).run (exec x s).2 = _
  split
  case h_1 a t h => rw [h]; rfl
  case h_2 e t h => rw [h]; rfl

/-- One part after another, as one condition: the second part starts from wherever the first one
ends. -/
theorem ends_bind_iff {Q : β → S → Prop} {E : ε → S → Prop} :
    Ends (x >>= f) s Q E ↔ Ends x s (fun a t => Ends (f a) t Q E) E := by
  unfold Ends
  rw [exec_bind]
  rcases exec x s with ⟨e | a, t⟩ <;> rfl

@[simp] theorem ends_map {f : α → β} {Q : β → S → Prop} {E : ε → S → Prop} :
    Ends (f <$> x) s Q E ↔ Ends x s (fun a t => Q (f a) t) E := by
  rw [← bind_pure_comp, ends_bind_iff]
  rfl

/-- One computation after another. -/
theorem ends_bind {P : α → S → Prop} {Q : β → S → Prop} {E : ε → S → Prop} (first : Ends x s P E)
    (rest : ∀ a t, P a t → Ends (f a) t Q E) : Ends (x >>= f) s Q E := by
  rw [ends_bind_iff]
  unfold Ends at first ⊢
  generalize exec x s = r at first ⊢
  obtain ⟨e | a, t⟩ := r
  · exact first
  · exact rest a t first

/-- A first part that returns is as good as its value. -/
theorem ends_bind_of_ok {Q : β → S → Prop} {E : ε → S → Prop} {a : α} {t : S}
    (done : exec x s = (.ok a, t)) : Ends (x >>= f) s Q E ↔ Ends (f a) t Q E := by
  unfold Ends
  rw [exec_bind, done]

/-- A first part that fails is all there is. -/
theorem ends_bind_of_error {Q : β → S → Prop} {E : ε → S → Prop} {e : ε} {t : S}
    (failed : exec x s = (.error e, t)) : Ends (x >>= f) s Q E ↔ E e t := by
  unfold Ends
  rw [exec_bind, failed]

/-- What a computation does implies weaker conditions. -/
theorem Ends.mono {P Q : α → S → Prop} {E F : ε → S → Prop} (h : Ends x s P E)
    (ok : ∀ a t, P a t → Q a t) (error : ∀ e t, E e t → F e t) : Ends x s Q F := by
  unfold Ends at h ⊢
  generalize exec x s = r at h ⊢
  obtain ⟨e | a, t⟩ := r
  · exact error e t h
  · exact ok a t h

/-- Two facts about one computation. -/
theorem Ends.and {P Q : α → S → Prop} {E F : ε → S → Prop} (h : Ends x s P E) (h' : Ends x s Q F) :
    Ends x s (fun a t => P a t ∧ Q a t) fun e t => E e t ∧ F e t := by
  unfold Ends at h h' ⊢
  generalize exec x s = r at h h' ⊢
  obtain ⟨e | a, t⟩ := r <;> exact ⟨h, h'⟩

/-- What is known of a computation that is done. -/
theorem Ends.of_ok {Q : α → S → Prop} {E : ε → S → Prop} {a : α} {t : S} (h : Ends x s Q E)
    (done : exec x s = (.ok a, t)) : Q a t := by
  unfold Ends at h
  rw [done] at h
  exact h

/-- What is known of a computation that has failed. -/
theorem Ends.of_error {Q : α → S → Prop} {E : ε → S → Prop} {e : ε} {t : S} (h : Ends x s Q E)
    (failed : exec x s = (.error e, t)) : E e t := by
  unfold Ends at h
  rw [failed] at h
  exact h

/-- What is known of the state in which a computation ends, done or failed. -/
theorem Ends.state {P : S → Prop} (ends : Ends x s (fun _ t => P t) fun _ t => P t) :
    P (exec x s).2 := by
  unfold Ends at ends
  generalize exec x s = r at ends ⊢
  obtain ⟨e | a, t⟩ := r <;> exact ends

/-- A handler goes on from where the computation has failed; nothing is undone. -/
theorem exec_tryCatch {handler : ε → ExceptT ε (StateM S) α} : exec (tryCatch x handler) s =
    match exec x s with
    | (.ok a, t) => (.ok a, t)
    | (.error e, t) => exec (handler e) t := by
  show (match (exec x s).1 with
    | .ok a => (pure (.ok a) : StateM S (Except ε α))
    | .error e => (handler e).run).run (exec x s).2 = _
  rcases exec x s with ⟨e | a, t⟩ <;> rfl

/-- A computation whose failure is handled. -/
theorem ends_tryCatch {handler : ε → ExceptT ε (StateM S) α} {Q : α → S → Prop}
    {E F : ε → S → Prop} (first : Ends x s Q F)
    (handled : ∀ e t, F e t → Ends (handler e) t Q E) : Ends (tryCatch x handler) s Q E := by
  unfold Ends at first handled ⊢
  rw [exec_tryCatch]
  generalize exec x s = r at first ⊢
  obtain ⟨e | a, t⟩ := r
  · exact handled e t first
  · exact first

/-! ### Operations that only look -/

section

variable {σ : Type} {h : Host σ} {E : Error → Host σ → Prop} {id : Nat}

@[simp] theorem ends_ofOption {Q : α → Host σ → Prop} {e : Error} {a : Option α} :
    Ends (HostM.ofOption e a) h Q E ↔ (∀ v, a = some v → Q v h) ∧ (a = none → E e h) := by
  cases a <;> simp [HostM.ofOption]

@[simp] theorem ends_ofExcept {Q : α → Host σ → Prop} {a : Except Error α} :
    Ends (HostM.ofExcept a) h Q E ↔ (∀ v, a = .ok v → Q v h) ∧ ∀ e, a = .error e → E e h := by
  cases a <;> simp [HostM.ofExcept]

@[simp] theorem ends_runtime {Q : Runtime → Host σ → Prop} :
    Ends (HostM.runtime id) h Q E ↔
      (∀ r, h.runtime? id = some r → Q r h) ∧ (h.runtime? id = none → E .badHandle h) := by
  simp [HostM.runtime, ends_bind_iff]

@[simp] theorem ends_module {Q : LoadedModule → Host σ → Prop} :
    Ends (HostM.module id) h Q E ↔
      (∀ m, h.module? id = some m → Q m h) ∧ (h.module? id = none → E .badHandle h) := by
  simp [HostM.module, ends_bind_iff]

@[simp] theorem ends_inst {Q : Instance → Host σ → Prop} :
    Ends (HostM.inst id) h Q E ↔
      (∀ i, h.instance? id = some i → Q i h) ∧ (h.instance? id = none → E .badHandle h) := by
  simp [HostM.inst, ends_bind_iff]

@[simp] theorem ends_environment {Q : Environment → Host σ → Prop} :
    Ends (HostM.environment id) h Q E ↔ (∀ e, h.environments.get? id = some e → Q e h) ∧
      (h.environments.get? id = none → E .badHandle h) := by
  simp [HostM.environment, ends_bind_iff]

@[simp] theorem ends_runner {Q : Runner → Host σ → Prop} :
    Ends (HostM.runner id) h Q E ↔ (∀ r, h.runners.get? id = some r → Q r h) ∧
      (h.runners.get? id = none → E .badHandle h) := by
  simp [HostM.runner, ends_bind_iff]

/-- The store of an instance, if the instance is there and nobody else holds it. -/
@[simp] theorem ends_store {Q : Store → Host σ → Prop} :
    Ends (HostM.store id) h Q E ↔
      (∀ i, h.instance? id = some i → ∀ s, i.store = some s → Q s h) ∧
      (∀ i, h.instance? id = some i → i.store = none → E .busy h) ∧
      (h.instance? id = none → E .badHandle h) := by
  cases hi : h.instance? id with
  | none => simp [HostM.store, ends_bind_iff, hi]
  | some i => cases hs : i.store <;> simp [HostM.store, ends_bind_iff, hi, hs]

@[simp] theorem ends_putStore {Q : Unit → Host σ → Prop} {s : Store} :
    Ends (HostM.putStore id s) h Q E ↔ Q () (h.modifyInstance id fun i => { i with store := some s }) :=
  Iff.rfl

end

end Embedder
