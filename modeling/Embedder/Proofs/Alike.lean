import Embedder.Proofs.Monad

namespace Embedder

/-!
# Two computations side by side

Two computations run from related states and end in the same way, in related states again. The second
one may get lost on the way: then nothing is said of it any more, and it stays lost.

* `Stays`: computations that leave a condition as it is once it holds.
* `AlikeAt`, `Alike`: two computations from two states, and from whatever related states.
* `alike_bind`, `alike_tryCatch`: one rule for each way of putting computations together.
-/

variable {ε S α β : Type} {R : S → S → Prop} {L : S → Prop}

/-- Once a condition holds, it does so after a computation, however that ends. -/
def Stays (L : S → Prop) (x : ExceptT ε (StateM S) α) : Prop :=
  ∀ t, L t → L (exec x t).2

/-- Two computations, each from a state of its own, end in the same way and in related states, unless
the second one has got lost. -/
def AlikeAt (R : S → S → Prop) (L : S → Prop) (x y : ExceptT ε (StateM S) α) (s t : S) : Prop :=
  L (exec y t).2 ∨ (exec x s).1 = (exec y t).1 ∧ R (exec x s).2 (exec y t).2

/-- Two computations end alike from related states, and the second one stays lost where it is lost. -/
structure Alike (R : S → S → Prop) (L : S → Prop) (x y : ExceptT ε (StateM S) α) : Prop where
  ends : ∀ s t, R s t → AlikeAt R L x y s t
  stays : Stays L y

section

variable {x y : ExceptT ε (StateM S) α} {f g : α → ExceptT ε (StateM S) β} {s t : S}

/-- Where nothing ever gets lost, two computations end alike without exception. -/
theorem AlikeAt.of_never (alike : AlikeAt R (fun _ => False) x y s t) :
    (exec x s).1 = (exec y t).1 ∧ R (exec x s).2 (exec y t).2 :=
  alike.resolve_left id

/-! ### Single steps -/

/-- To return the same is alike. -/
theorem alike_pure (a : α) : Alike (ε := ε) R L (pure a) (pure a) :=
  ⟨fun _ _ rel => .inr ⟨rfl, rel⟩, fun _ lost => lost⟩

/-- To fail in the same way is alike. -/
theorem alike_throw (e : ε) : Alike R L (throw e : ExceptT ε (StateM S) α) (throw e) :=
  ⟨fun _ _ rel => .inr ⟨rfl, rel⟩, fun _ lost => lost⟩

/-- Changes that keep states related are alike. -/
theorem alike_modify {u v : S → S} (keeps : ∀ s t, R s t → L (v t) ∨ R (u s) (v t))
    (stays : ∀ t, L t → L (v t)) :
    Alike R L (modify u : ExceptT ε (StateM S) PUnit) (modify v) :=
  ⟨fun s t rel => (keeps s t rel).imp id fun rel => ⟨rfl, rel⟩, stays⟩

/-- What two computations make of the states from which they run. -/
theorem alike_get {f g : S → ExceptT ε (StateM S) α}
    (ends : ∀ s t, R s t → AlikeAt R L (f s) (g t) s t) (stays : ∀ t, L t → L (exec (g t) t).2) :
    Alike R L (get >>= f) (get >>= g) :=
  ⟨ends, stays⟩

/-! ### Composition -/

/-- What is lost in the first part stays so in the second. -/
theorem stays_bind (first : Stays L y) (rest : ∀ a, Stays L (g a)) : Stays L (y >>= g) := by
  intro t lost
  have after := first t lost
  rw [exec_bind]
  rcases ran : exec y t with ⟨e | a, u⟩ <;> rw [ran] at after
  · exact after
  · exact rest a u after

/-- From two states, one part after another: the second one starts from states that are related
still, unless what the first one lost is lost for good. -/
theorem alikeAt_bind (first : AlikeAt R L x y s t)
    (rest : ∀ a u v, exec x s = (.ok a, u) → exec y t = (.ok a, v) → R u v →
      AlikeAt R L (f a) (g a) u v)
    (stays : ∀ a v, exec y t = (.ok a, v) → L v → L (exec (g a) v).2) :
    AlikeAt R L (x >>= f) (y >>= g) s t := by
  unfold AlikeAt at first ⊢
  rw [exec_bind, exec_bind]
  rcases hx : exec x s with ⟨e | a, u⟩ <;> rcases hy : exec y t with ⟨e' | b, v⟩ <;>
    rw [hx, hy] at first <;> rcases first with lost | ⟨same, rel⟩
  · exact .inl lost
  · exact .inr ⟨congrArg Except.error (Except.error.inj same), rel⟩
  · exact .inl (stays b v hy lost)
  · cases same
  · exact .inl lost
  · cases same
  · exact .inl (stays b v hy lost)
  · cases same
    exact rest a u v hx hy rel

/-- So it is from all related states. -/
theorem alike_bind (first : Alike R L x y) (rest : ∀ a, Alike R L (f a) (g a)) :
    Alike R L (x >>= f) (y >>= g) where
  ends s t rel := alikeAt_bind (first.ends s t rel) (fun a u v _ _ rel => (rest a).ends u v rel)
    fun a v _ lost => (rest a).stays v lost
  stays := stays_bind first.stays fun a => (rest a).stays

/-- Two computations whose failures are handled alike. -/
theorem alike_tryCatch {handler handler' : ε → ExceptT ε (StateM S) α} (first : Alike R L x y)
    (handled : ∀ e, Alike R L (handler e) (handler' e)) :
    Alike R L (tryCatch x handler) (tryCatch y handler') where
  ends s t rel := by
    have ended := first.ends s t rel
    unfold AlikeAt at ended ⊢
    rw [exec_tryCatch, exec_tryCatch]
    -- Unless something is lost, both parts fail in the same way, or neither does.
    rcases hx : exec x s with ⟨e | a, u⟩ <;> rcases hy : exec y t with ⟨e' | b, v⟩ <;>
      rw [hx, hy] at ended <;> rcases ended with lost | ⟨same, rel⟩
    · exact .inl ((handled e').stays v lost)
    · cases same
      exact (handled e).ends u v rel
    · exact .inl lost
    · cases same
    · exact .inl ((handled e').stays v lost)
    · cases same
    · exact .inl lost
    · exact .inr ⟨congrArg Except.ok (Except.ok.inj same), rel⟩
  stays t lost := by
    have after := first.stays t lost
    rw [exec_tryCatch]
    rcases ran : exec y t with ⟨e | a, u⟩ <;> rw [ran] at after
    · exact (handled e).stays u after
    · exact after

/-- The same for all members of a list, one after another. -/
theorem alike_forM (l : List β) {f g : β → ExceptT ε (StateM S) PUnit}
    (each : ∀ b, Alike R L (f b) (g b)) : Alike R L (l.forM f) (l.forM g) := by
  induction l with
  | nil => exact alike_pure _
  | cons b l ih => exact alike_bind (each b) fun _ => ih

end

end Embedder
