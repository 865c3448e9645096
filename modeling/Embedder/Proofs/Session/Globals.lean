import Embedder.Proofs.Host.Globals
import Embedder.Proofs.Session.Exclusion
import Embedder.Proofs.Session.Reset

namespace Embedder

open Session (Passes Slots Step empty hookedPrinter runWith)

/-!
# Exported globals as cells

An exported global can be read at the host types of its category, and set if it is mutable. What is set
is then read under every name of this global and at every type of the category, and nothing else has
changed. Otherwise nothing happens: the store is in use, or the name stands for no global, or the
global does not fit, and this is told in that order.

* `Store.Assigned`: a store in which one global has a value.
* `Host.WithholdsGlobal`: why a global is not read, or not set.
* `Host.HasCells`, `hasCells_of_stocked`: the exported globals of an instance, and that they are cells.
* `Session.HasCells`, `Session.cells_of_passes`: that this is always so.
-/

variable {σ : Type} {h : Host σ} {id : Nat} {m : Wasm.Module} {s s' : Store} {name : String} {i : Nat}
  {declared : Wasm.GlobalType}

/-! ### Stores -/

/-- A store in which a global has a value, and everything else is as it was in another one. -/
structure Store.Assigned (i : Nat) (v : Wasm.Value) (s s' : Store) : Prop where
  /-- The global has the value. -/
  assigned : s'.guest.globals[i]? = some v
  /-- The other globals have theirs. -/
  others : ∀ j, j ≠ i → s'.guest.globals[j]? = s.guest.globals[j]?
  /-- There are as many of them. -/
  size : s'.guest.globals.size = s.guest.globals.size
  /-- There are no other differences: not in memories, the heap, or the latch. -/
  rest : s' = { s with guest := { s.guest with globals := s'.guest.globals } }

theorem Store.assigned_setGlobal (lt : i < s.guest.globals.size) (v : Wasm.Value) :
    s.Assigned i v { s with guest := s.guest.setGlobal i v } where
  assigned := by
    show (s.guest.globals.setIfInBounds i v)[i]? = some v
    rw [Array.getElem?_setIfInBounds, if_pos rfl, if_pos lt]
  others j other := by
    show (s.guest.globals.setIfInBounds i v)[j]? = s.guest.globals[j]?
    rw [Array.getElem?_setIfInBounds, if_neg (Ne.symm other)]
  size := Array.size_setIfInBounds
  rest := rfl

/-- What is exported does not depend on what globals hold. -/
theorem Store.Assigned.exportedGlobal? {v : Wasm.Value} (assigned : s.Assigned i v s') (name : String) :
    s'.guest.exportedGlobal? name = s.guest.exportedGlobal? name := by
  unfold Wasm.Guest.exportedGlobal?
  rw [assigned.size, assigned.rest]

/-- What is read of an exported global, or why nothing is. -/
def Store.readGlobal (s : Store) (name : String) (type : HostType) : Except Error HostValue :=
  match s.guest.exportedGlobal? name with
  | none => .error (.notFound .global name)
  | some (i, declared) =>
    match checkGlobal type.kind declared.type with
    | .error e => .error e
    | .ok () =>
      match s.guest.globals[i]? with
      | none => .error (.notFound .global name)
      | some v => Wire.ofValue v >>= type.decode

/-- A global that holds a value of the category of a type is read at this type, bit by bit. -/
theorem Store.readGlobal_of_exports (type : HostType) {v : Wasm.Value}
    (exported : s.guest.exportedGlobal? name = some (i, declared))
    (fits : declared.type = type.kind.toValType) (there : s.guest.globals[i]? = some v)
    (typed : v.type = declared.type) :
    ∃ value, s.readGlobal name type = .ok value ∧ value.type = type ∧ value.encode.toValue = v := by
  obtain ⟨w, wire, kind, back⟩ := Wire.exists_of_type (typed.trans fits)
  obtain ⟨value, decoded, type_eq, encoded⟩ := HostType.exists_decode kind
  refine ⟨value, ?_, type_eq, encoded ▸ back⟩
  have read : (Wire.ofValue v >>= type.decode) = .ok value := by
    rw [wire]
    exact decoded
  simp only [readGlobal, exported, checkGlobal_eq_ok_iff.2 fits, there, read]

/-- A wire value is the value that it is written as. -/
theorem Wire.toValue_injective {w w' : Wire} (same : w.toValue = w'.toValue) : w = w' := by
  cases w <;> cases w' <;> simp_all [toValue]

/-- What has been assigned to a global is read of it, bit by bit, at every type of its category. -/
theorem Store.Assigned.readGlobal_self {v : HostValue} (assigned : s.Assigned i v.encode.toValue s')
    (exported : s.guest.exportedGlobal? name = some (i, ⟨v.type.kind.toValType, true⟩))
    (type : HostType) (category : v.type.kind.toValType = type.kind.toValType) :
    ∃ w, s'.readGlobal name type = .ok w ∧ w.type = type ∧ w.encode = v.encode := by
  have exported' := (assigned.exportedGlobal? name).trans exported
  obtain ⟨w, read, same, bits⟩ := readGlobal_of_exports type exported' category assigned.assigned
    (HostValue.type_toValue v)
  exact ⟨w, read, same, Wire.toValue_injective bits⟩

/-- Under a name that stands for another global, or for none, what is read is what was read before. -/
theorem Store.Assigned.readGlobal_of_ne {v : Wasm.Value} (assigned : s.Assigned i v s')
    (type : HostType) (other : ∀ declared, s.guest.exportedGlobal? name ≠ some (i, declared)) :
    s'.readGlobal name type = s.readGlobal name type := by
  unfold readGlobal
  rw [assigned.exportedGlobal? name]
  split
  case h_1 => rfl
  case h_2 j declared known =>
    have different : j ≠ i := by
      rintro rfl
      exact other declared known
    rw [assigned.others j different]

/-! ### One operation -/

theorem exec_getGlobal (idle : h.store? id = some s) (name : String) (type : HostType) :
    exec (HostM.getGlobal id name type) h = (s.readGlobal name type, h) := by
  rw [HostM.getGlobal, exec_bind, exec_exportedGlobal idle, Store.readGlobal]
  rcases s.guest.exportedGlobal? name with _ | ⟨i, declared⟩
  · rfl
  dsimp only
  rw [exec_ofExcept_bind]
  rcases checkGlobal type.kind declared.type with e | ⟨⟩
  · rfl
  dsimp only
  rcases s.guest.globals[i]? with _ | v
  · rfl
  · show exec (HostM.ofExcept (Wire.ofValue v >>= type.decode)) h =
      (Wire.ofValue v >>= type.decode, h)
    rcases Wire.ofValue v >>= type.decode with e | value <;> rfl

theorem exec_setGlobal (idle : h.store? id = some s) (exported : s.guest.exportedGlobal? name =
    some (i, declared)) (value : HostValue) : exec (HostM.setGlobal id name value) h =
      match checkGlobal value.type.kind declared.type with
      | .error e => (.error e, h)
      | .ok () =>
        if declared.isMutable then
          (.ok (), h.setStore id { s with guest := s.guest.setGlobal i value.encode.toValue })
        else (.error (.typeMismatch "mutable global" ("immutable global `" ++ name ++ "`")), h) := by
  rw [HostM.setGlobal, exec_bind, exec_exportedGlobal idle, exported]
  dsimp only
  rw [exec_ofExcept_bind]
  rcases checkGlobal value.type.kind declared.type with e | ⟨⟩
  · rfl
  dsimp only
  cases declared.isMutable <;> rfl

/-- An instance whose store is in use is busy. -/
theorem exec_store_of_busy {record : Instance} (present : h.instance? id = some record)
    (busy : h.store? id = none) : exec (HostM.store id) h = (.error .busy, h) := by
  rw [Host.store?, present, Option.bind_some] at busy
  refine exec_eq_of_ends ?_
  rw [ends_store]
  simp only [present, busy, Option.some.injEq, forall_eq', reduceCtorEq, false_implies, implies_true,
    and_self]

/-! ### Refusals -/

/-- Why a global of an instance is not read, or not set, at a host type. -/
inductive Host.WithholdsGlobal (h : Host σ) (id : Nat) (m : Wasm.Module) (name : String)
    (type : HostType) (sets : Bool) : Error → Prop
  /-- The store is in use. -/
  | busy (inUse : h.store? id = none) : WithholdsGlobal h id m name type sets .busy
  /-- The name stands for nothing, or for something else than a global. -/
  | absent (idle : (h.store? id).isSome) (other : ∀ i, m.export? name ≠ some (.global i)) :
      WithholdsGlobal h id m name type sets (.notFound .global name)
  /-- The global is of another category. -/
  | otherCategory {i : Nat} {declared : Wasm.GlobalType} {k : NumType} (idle : (h.store? id).isSome)
      (exports : m.ExportsGlobal name i declared) (numeric : NumType.ofValType declared.type = some k)
      (other : k ≠ type.kind) :
      WithholdsGlobal h id m name type sets (.typeMismatch type.kind.name k.name)
  /-- The global is not a number. -/
  | nonNumeric {i : Nat} {declared : Wasm.GlobalType} (idle : (h.store? id).isSome)
      (exports : m.ExportsGlobal name i declared) (other : NumType.ofValType declared.type = none) :
      WithholdsGlobal h id m name type sets (.typeMismatch type.kind.name "non-numeric global")
  /-- The global would fit, but cannot be set. -/
  | immutable {i : Nat} (idle : (h.store? id).isSome)
      (exports : m.ExportsGlobal name i ⟨type.kind.toValType, false⟩) (setting : sets = true) :
      WithholdsGlobal h id m name type sets
        (.typeMismatch "mutable global" ("immutable global `" ++ name ++ "`"))

/-- Where the check of a category fails, the global is withheld for this reason. -/
theorem Host.withholds_of_checkGlobal (idle : h.store? id = some s)
    (exports : m.ExportsGlobal name i declared) {type : HostType} {e : Error}
    (failed : checkGlobal type.kind declared.type = .error e) (sets : Bool) :
    h.WithholdsGlobal id m name type sets e ∧ declared.type ≠ type.kind.toValType := by
  have free : (h.store? id).isSome := by rw [idle]; rfl
  refine ⟨?_, fun fits => ?_⟩
  · unfold checkGlobal at failed
    cases numeric : NumType.ofValType declared.type with
    | none =>
      rw [numeric] at failed
      cases failed
      exact .nonNumeric free exports numeric
    | some k =>
      rw [numeric] at failed
      dsimp only at failed
      by_cases same : k = type.kind
      · rw [if_pos same] at failed
        cases failed
      · rw [if_neg same] at failed
        cases failed
        exact .otherCategory free exports numeric same
  · cases (checkGlobal_eq_ok_iff.2 fits).symm.trans failed

/-! ### Cells -/

/-- The exported globals of an instance of a module are cells. -/
structure Host.HasCells (h : Host σ) (id : Nat) (m : Wasm.Module) : Prop where
  /-- A global is read at a type if and only if the store is free and the name stands for a global that
  is declared with just the type's category. -/
  reads : ∀ name type, (∃ v t, exec (HostM.getGlobal id name type) h = (.ok v, t)) ↔
    (h.store? id).isSome ∧ ∃ i isMutable, m.ExportsGlobal name i ⟨type.kind.toValType, isMutable⟩
  /-- What is read is a value of the type, and its bits are those that the global holds. -/
  shows : ∀ name type v t, exec (HostM.getGlobal id name type) h = (.ok v, t) → t = h ∧
    v.type = type ∧ ∃ s i declared, h.store? id = some s ∧ m.ExportsGlobal name i declared ∧
      s.guest.globals[i]? = some v.encode.toValue
  /-- A global is set if and only if the store is free and the name stands for a mutable global that is
  declared with just the category of the value's type. -/
  sets : ∀ name v, (∃ t, exec (HostM.setGlobal id name v) h = (.ok (), t)) ↔
    (h.store? id).isSome ∧ ∃ i, m.ExportsGlobal name i ⟨v.type.kind.toValType, true⟩
  /-- Then the value's bits are in this global, and nothing else of the host has changed. -/
  stores : ∀ name v t, exec (HostM.setGlobal id name v) h = (.ok (), t) →
    ∃ s s' i declared, h.store? id = some s ∧ m.ExportsGlobal name i declared ∧
      t = h.setStore id s' ∧ s.Assigned i v.encode.toValue s'
  /-- They are what is read after that, at every type of the category and under every name of the
  global. -/
  agrees : ∀ name v t i declared, exec (HostM.setGlobal id name v) h = (.ok (), t) →
    m.ExportsGlobal name i declared → ∀ name' type, m.ExportsGlobal name' i declared →
      type.kind = v.type.kind → ∃ w, exec (HostM.getGlobal id name' type) t = (.ok w, t) ∧
        w.type = type ∧ w.encode = v.encode
  /-- Under every other name, what is read is what was read before. -/
  apart : ∀ name v t i declared, exec (HostM.setGlobal id name v) h = (.ok (), t) →
    m.ExportsGlobal name i declared → ∀ name' type, ¬ m.ExportsGlobal name' i declared →
      (exec (HostM.getGlobal id name' type) t).1 = (exec (HostM.getGlobal id name' type) h).1
  /-- A global that is not read is withheld, and nothing has happened. -/
  unread : ∀ name type e t, exec (HostM.getGlobal id name type) h = (.error e, t) →
    t = h ∧ h.WithholdsGlobal id m name type false e
  /-- A global that is not set is withheld, and nothing has happened. -/
  unset : ∀ name v e t, exec (HostM.setGlobal id name v) h = (.error e, t) →
    t = h ∧ h.WithholdsGlobal id m name v.type true e

/-- Nothing can be read or set while the store is in use. -/
theorem hasCells_of_busy {record : Instance} (present : h.instance? id = some record)
    (busy : h.store? id = none) : h.HasCells id m := by
  have refused := exec_store_of_busy present busy
  -- Whatever is asked for, the store is asked for first.
  have gets (name : String) (type : HostType) :
      exec (HostM.getGlobal id name type) h = (.error .busy, h) := by
    rw [HostM.getGlobal, exec_bind, HostM.exportedGlobal, exec_bind, refused]
  have sets (name : String) (v : HostValue) :
      exec (HostM.setGlobal id name v) h = (.error .busy, h) := by
    rw [HostM.setGlobal, exec_bind, HostM.exportedGlobal, exec_bind, refused]
  have unset {name : String} {v : HostValue} {t : Host σ}
      (done : exec (HostM.setGlobal id name v) h = (.ok (), t)) : False := by
    cases (sets name v).symm.trans done
  constructor
  case reads =>
    intro name type
    simp [gets, busy]
  case shows =>
    intro name type v t done
    cases (gets name type).symm.trans done
  case sets =>
    intro name v
    simp [sets, busy]
  case stores => exact fun _ _ _ done => (unset done).elim
  case agrees => exact fun _ _ _ _ _ done => (unset done).elim
  case apart => exact fun _ _ _ _ _ done => (unset done).elim
  case unread =>
    intro name type e t failed
    cases (gets name type).symm.trans failed
    exact ⟨rfl, .busy busy⟩
  case unset =>
    intro name v e t failed
    cases (sets name v).symm.trans failed
    exact ⟨rfl, .busy busy⟩

section

variable (idle : h.store? id = some s) (module : s.guest.module = m) (valid : m.isValid = true)
  (stocked : s.guest.Stocked)
include idle module valid stocked

/-- How reading a global ends. -/
theorem getGlobal_cases (name : String) (type : HostType) :
    (∃ v i isMutable, exec (HostM.getGlobal id name type) h = (.ok v, h) ∧ v.type = type ∧
      m.ExportsGlobal name i ⟨type.kind.toValType, isMutable⟩ ∧
        s.guest.globals[i]? = some v.encode.toValue) ∨
    ∃ e, exec (HostM.getGlobal id name type) h = (.error e, h) ∧
      h.WithholdsGlobal id m name type false e ∧
        ∀ i isMutable, ¬ m.ExportsGlobal name i ⟨type.kind.toValType, isMutable⟩ := by
  rw [exec_getGlobal idle]
  -- Reasons in the order in which they are checked: the export, then its category; then nothing
  -- is left to fail.
  by_cases exported : ∃ i, m.export? name = some (.global i)
  case neg =>
    have other : ∀ i, m.export? name ≠ some (.global i) := fun i there => exported ⟨i, there⟩
    have absent := Wasm.Guest.exportedGlobal?_eq_none (module ▸ other)
    refine .inr ⟨.notFound .global name, ?_, .absent (by rw [idle]; rfl) other, ?_⟩
    · rw [Store.readGlobal, absent]
    · exact fun i _ exports => other i exports.1
  case pos =>
    obtain ⟨i, there⟩ := exported
    obtain ⟨declared, exports⟩ := Wasm.Module.exportsGlobal_of_isValid valid there
    have known := stocked.exportedGlobal?_eq_some (module ▸ exports)
    cases checked : checkGlobal type.kind declared.type with
    | error e =>
      obtain ⟨withheld, other⟩ := Host.withholds_of_checkGlobal idle exports checked false
      refine .inr ⟨e, ?_, withheld, fun j isMutable exports' => ?_⟩
      · rw [Store.readGlobal, known]
        simp only [checked]
      · obtain ⟨-, rfl⟩ := exports.unique exports'
        exact other rfl
    | ok _ =>
      have fits := checkGlobal_eq_ok_iff.1 checked
      obtain ⟨v, present, typed⟩ := stocked.exists_global (module ▸ exports.2)
      obtain ⟨value, read, same, bits⟩ := Store.readGlobal_of_exports type known fits present typed
      obtain ⟨category, isMutable⟩ := declared
      cases fits
      exact .inl ⟨value, i, isMutable, by rw [read], same, exports, bits ▸ present⟩

/-- How setting a global ends. -/
theorem setGlobal_cases (name : String) (v : HostValue) :
    (∃ i, m.ExportsGlobal name i ⟨v.type.kind.toValType, true⟩ ∧
      exec (HostM.setGlobal id name v) h =
        (.ok (), h.setStore id { s with guest := s.guest.setGlobal i v.encode.toValue })) ∨
    ∃ e, exec (HostM.setGlobal id name v) h = (.error e, h) ∧
      h.WithholdsGlobal id m name v.type true e ∧
        ∀ i, ¬ m.ExportsGlobal name i ⟨v.type.kind.toValType, true⟩ := by
  have free : (h.store? id).isSome := by rw [idle]; rfl
  by_cases exported : ∃ i, m.export? name = some (.global i)
  case neg =>
    have other : ∀ i, m.export? name ≠ some (.global i) := fun i there => exported ⟨i, there⟩
    have absent := Wasm.Guest.exportedGlobal?_eq_none (module ▸ other)
    exact .inr ⟨_, exec_setGlobal_absent idle absent v, .absent free other,
      fun i exports => other i exports.1⟩
  case pos =>
    obtain ⟨i, there⟩ := exported
    obtain ⟨declared, exports⟩ := Wasm.Module.exportsGlobal_of_isValid valid there
    have known := stocked.exportedGlobal?_eq_some (module ▸ exports)
    rw [exec_setGlobal idle known]
    cases checked : checkGlobal v.type.kind declared.type with
    | error e =>
      obtain ⟨withheld, other⟩ := Host.withholds_of_checkGlobal idle exports checked true
      refine .inr ⟨e, rfl, withheld, fun j exports' => ?_⟩
      obtain ⟨-, rfl⟩ := exports.unique exports'
      exact other rfl
    | ok _ =>
      have fits := checkGlobal_eq_ok_iff.1 checked
      obtain ⟨category, isMutable⟩ := declared
      cases fits
      -- An immutable global has passed all other checks, so this is the last reason.
      cases isMutable with
      | true => exact .inl ⟨i, exports, rfl⟩
      | false =>
        refine .inr ⟨_, rfl, .immutable free exports rfl, fun j exports' => ?_⟩
        cases (exports.unique exports').2

/-- What there is to know once a global is set. -/
theorem exec_setGlobal_eq_ok {name : String} {v : HostValue} {t : Host σ}
    (done : exec (HostM.setGlobal id name v) h = (.ok (), t)) :
    ∃ s' i, m.ExportsGlobal name i ⟨v.type.kind.toValType, true⟩ ∧ t = h.setStore id s' ∧
      s.Assigned i v.encode.toValue s' := by
  rcases setGlobal_cases idle module valid stocked name v with ⟨i, exports, set⟩ | ⟨e, failed, -⟩
  · cases set.symm.trans done
    have known := stocked.exportedGlobal?_eq_some (module ▸ exports)
    exact ⟨_, i, exports, rfl, Store.assigned_setGlobal (Wasm.Guest.lt_of_exportedGlobal? known) _⟩
  · cases failed.symm.trans done

/-- **Cells.** Where a guest has the globals that its module declares, they are cells. -/
theorem hasCells_of_stocked : h.HasCells id m := by
  have free : (h.store? id).isSome := by rw [idle]; rfl
  constructor
  case reads =>
    intro name type
    rcases getGlobal_cases idle module valid stocked name type with
      ⟨v, i, isMutable, read, -, exports, -⟩ | ⟨e, failed, -, none⟩
    · exact ⟨fun _ => ⟨free, i, isMutable, exports⟩, fun _ => ⟨v, h, read⟩⟩
    · refine ⟨?_, fun ⟨_, i, isMutable, exports⟩ => absurd exports (none i isMutable)⟩
      rintro ⟨v, t, done⟩
      cases failed.symm.trans done
  case shows =>
    intro name type v t done
    rcases getGlobal_cases idle module valid stocked name type with
      ⟨v', i, isMutable, read, same, exports, bits⟩ | ⟨e, failed, -⟩
    · cases read.symm.trans done
      exact ⟨rfl, same, s, i, _, idle, exports, bits⟩
    · cases failed.symm.trans done
  case sets =>
    intro name v
    rcases setGlobal_cases idle module valid stocked name v with
      ⟨i, exports, set⟩ | ⟨e, failed, -, none⟩
    · exact ⟨fun _ => ⟨free, i, exports⟩, fun _ => ⟨_, set⟩⟩
    · refine ⟨?_, fun ⟨_, i, exports⟩ => absurd exports (none i)⟩
      rintro ⟨t, done⟩
      cases failed.symm.trans done
  case stores =>
    intro name v t done
    obtain ⟨s', i, exports, rfl, assigned⟩ := exec_setGlobal_eq_ok idle module valid stocked done
    exact ⟨s, s', i, _, idle, exports, rfl, assigned⟩
  case agrees =>
    intro name v t i declared done exports name' type exports' category
    obtain ⟨s', j, exports'', rfl, assigned⟩ := exec_setGlobal_eq_ok idle module valid stocked done
    obtain ⟨rfl, rfl⟩ := exports.unique exports''
    have known := stocked.exportedGlobal?_eq_some (module ▸ exports')
    obtain ⟨w, read, same, bits⟩ := assigned.readGlobal_self known type (category ▸ rfl)
    refine ⟨w, ?_, same, bits⟩
    rw [exec_getGlobal (Host.store?_setStore idle _), read]
  case apart =>
    intro name v t i declared done exports name' type other
    obtain ⟨s', k, exports', rfl, assigned⟩ := exec_setGlobal_eq_ok idle module valid stocked done
    obtain ⟨rfl, rfl⟩ := exports.unique exports'
    rw [exec_getGlobal (Host.store?_setStore idle _), exec_getGlobal idle]
    refine assigned.readGlobal_of_ne type fun declared' known => ?_
    -- a name that stood for this global would be declared as it is
    have exports'' := module ▸ Wasm.Guest.exportsGlobal_of_exportedGlobal? known
    cases exports''.2.symm.trans exports.2
    exact other exports''
  case unread =>
    intro name type e t failed
    rcases getGlobal_cases idle module valid stocked name type with
      ⟨v, i, isMutable, read, -⟩ | ⟨e', failed', withheld, -⟩
    · cases read.symm.trans failed
    · cases failed'.symm.trans failed
      exact ⟨rfl, withheld⟩
  case unset =>
    intro name v e t failed
    rcases setGlobal_cases idle module valid stocked name v with
      ⟨i, -, set⟩ | ⟨e', failed', withheld, -⟩
    · cases set.symm.trans failed
    · cases failed'.symm.trans failed
      exact ⟨rfl, withheld⟩

end

/-! ### Sessions -/

section

variable [HookRule]

/-- The store of an instance is away while it is in hand, and only then. -/
theorem Config.Sound.isSome_store?_iff {s : Session} {g : Pending}
    (sound : Config.Sound (⟨s, g⟩ : Config Slots)) {id : Nat} {record : Instance}
    (present : s.instance? id = some record) : (s.store? id).isSome ↔ g.held id = none := by
  obtain ⟨c, hc, rfl⟩ := Option.map_eq_some_iff.1 present
  have custody := sound.custody id _ (Config.custody?_of_get? (c := ⟨s, g⟩) hc)
  rw [Host.store?, present, Option.bind_some]
  refine ⟨fun idle => ?_, custody.idle⟩
  obtain ⟨store, rests⟩ := Option.isSome_iff_exists.1 idle
  exact custody.free rests

/-- The exported globals of every instance are cells. -/
theorem Config.Cellular.hasCells {s : Session} {g : Pending}
    (cellular : Config.Cellular (⟨s, g⟩ : Config Slots)) {id : Nat} {record : Instance} {m : LoadedModule}
    (present : s.instance? id = some record) (loaded : s.module? record.module = some m) :
    s.HasCells id m.wasm := by
  cases rests : record.store with
  | none =>
    apply hasCells_of_busy present
    rw [Host.store?, present, Option.bind_some, rests]
  | some store =>
    obtain ⟨module, valid, stocked⟩ := cellular.stocked_of_idle present loaded rests
    refine hasCells_of_stocked ?_ module valid stocked
    rw [Host.store?, present, Option.bind_some, rests]

end

namespace Session

theorem cellular_empty [HookRule] (since : HookRule.since = 0) : Config.Cellular ⟨empty, .none⟩ where
  sound := sound_empty since
  chained := chained_empty
  modelled := ⟨fun _ _ h => (nomatch h), fun _ _ _ _ h => (nomatch h)⟩
  stocked _ _ h := nomatch h

/-- The exported globals of every instance of a session are cells. -/
def HasCells (s : Session) : Prop :=
  ∀ id record m, s.instance? id = some record → s.module? record.module = some m →
    Host.HasCells s id m.wasm

/-- **Globals.** Between any two operations of a session that starts with nothing, and while hooks act
in the middle of a call, the exported globals of every instance are cells. Meanwhile the instance that
is called is in use. -/
theorem cells_of_passes [Engine] {s : Session} (passes : Passes hookedPrinter empty s) :
    s.HasCells ∧ (∀ id record, s.instance? id = some record → (s.store? id).isSome) ∧
      ∀ environment name args results (entry : Entry s environment name args results) w,
        entry.Meanwhile w → Session.HasCells w ∧ w.store? entry.env.inst = none := by
  let rule : HookRule := .any
  have any : ∀ hook, HookRule.admits hook := fun _ => trivial
  obtain ⟨g, held, -, lead⟩ := passes.leads any (g := .none) (traced_of_any any)
  have cellular := lead.cellular (cellular_empty rfl)
  refine ⟨fun _ _ _ => cellular.hasCells, ?_, ?_⟩
  · intro id record present
    rw [cellular.sound.isSome_store?_iff present, held]
    rfl
  -- While a guest runs, its own store is away, so its globals are not to be had.
  · intro environment name args results entry w meanwhile
    obtain ⟨g', loan, held', -, lead'⟩ := entry.leads_meanwhile any (g := g) meanwhile
    have cellular' := lead'.cellular cellular
    refine ⟨fun _ _ _ => cellular'.hasCells, ?_⟩
    obtain ⟨c, there⟩ := Option.isSome_iff_exists.1 (cellular'.sound.present _ _ held')
    have present : w.instance? entry.env.inst = some c.value := by
      rw [Host.instance?, there, Option.map_some]
    rw [← Option.not_isSome_iff_eq_none, cellular'.sound.isSome_store?_iff present, held']
    exact Option.some_ne_none loan

/-- A program with a number that can be set, exported as `a` and as `b`, and one that cannot, exported as
`c`. -/
def numbering : Bytes :=
  [0x00, 0x61, 0x73, 0x6d, 0x01, 0x00, 0x00, 0x00,
    -- two globals: a mutable `i32`, and an `i64`
    0x06, 0x0b, 0x02, 0x7f, 0x01, 0x41, 0x05, 0x0b, 0x7e, 0x00, 0x42, 0x07, 0x0b,
    -- the exports
    0x07, 0x0d, 0x03, 0x01, 0x61, 0x03, 0x00, 0x01, 0x62, 0x03, 0x00, 0x01, 0x63, 0x03, 0x01]

/-- An instance of the program. -/
def numbered : List Step :=
  [.createRuntime "rt" {} [] [.ok 5] none [],
    .runtime "rt" (.load "m" numbering),
    .module "m" (.instantiate "i" 1 0)]

theorem cells_of_numbered : Passes hookedPrinter empty (runWith hookedPrinter numbered empty).2 ∧
    (runWith hookedPrinter numbered empty).2.HasCells :=
  ⟨passes_runWith _ .here numbered, (cells_of_passes (passes_runWith _ .here numbered)).1⟩

/-- What is set under one name is read under the other one, and as an unsigned number. -/
example : ((runWith hookedPrinter (numbered ++ [.inst "i" (.setGlobal "a" (.i32 (-1))),
      .inst "i" (.getGlobal "b" .u32), .inst "i" (.getGlobal "c" .i64), .inst "i" (.getGlobal "c" .f64),
      .inst "i" (.setGlobal "c" (.u64 1)), .inst "i" (.getGlobal "d" .i32)]) empty).1.drop
        numbered.length).map (fun
    | .result (.ok (.hostValue v)) => some (Except.ok v)
    | .result (.error e) => some (.error e)
    | _ => none) =
      [none, some (.ok (.u32 4294967295)), some (.ok (.i64 7)), some (.error (.typeMismatch "f64" "i64")),
        some (.error (.typeMismatch "mutable global" "immutable global `c`")),
        some (.error (.notFound .global "d"))] := by
  decide +kernel

end Session

end Embedder
