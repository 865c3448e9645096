import Embedder.Host.Inspection
import Embedder.Proofs.Wasm.Extends

namespace Embedder

/-!
# Globals as cells

An exported global is a cell of one of the numeric categories. A host type fits it if the type is
written in the category that is declared for the global, and no other one does.

* `Wasm.Module.ExportsGlobal`: the global that a module exports under a name.
* `checkGlobal_eq_ok_iff`, `HostValue.type_toValue`: which host types fit.
* `Wasm.Guest.extends_store`: a value that fits keeps the types of what globals hold.
-/

variable {ν : Type} {m : Wasm.Module} {g : Wasm.Guest ν} {name : String} {i : Nat}
  {declared : Wasm.GlobalType}

/-! ### Exports -/

/-- Under a name, a module exports its global of some number, which is declared to be of some type. -/
def Wasm.Module.ExportsGlobal (m : Wasm.Module) (name : String) (i : Nat)
    (declared : Wasm.GlobalType) : Prop :=
  m.export? name = some (.global i) ∧ m.globalTypes[i]? = some declared

instance : Decidable (m.ExportsGlobal name i declared) :=
  inferInstanceAs (Decidable (_ ∧ _))

/-- A module whose sections fit together has what it exports. -/
theorem Wasm.Module.targetOk_of_isValid (valid : m.isValid = true) {target : Wasm.ExportTarget}
    (there : m.export? name = some target) : m.targetOk target = true := by
  obtain ⟨e, found, rfl⟩ := Option.map_eq_some_iff.1 there
  simp only [isValid, Bool.and_eq_true] at valid
  exact List.all_eq_true.1 valid.1.1.1.1.2 e (List.mem_of_find?_eq_some found)

theorem Wasm.Module.exportsGlobal_of_isValid (valid : m.isValid = true)
    (there : m.export? name = some (.global i)) : ∃ declared, m.ExportsGlobal name i declared := by
  have within := targetOk_of_isValid valid there
  exact ⟨_, there, List.getElem?_eq_getElem (of_decide_eq_true within)⟩

/-- One name stands for one global. -/
theorem Wasm.Module.ExportsGlobal.unique (exports : m.ExportsGlobal name i declared) {j : Nat}
    {declared' : Wasm.GlobalType} (exports' : m.ExportsGlobal name j declared') :
    j = i ∧ declared' = declared := by
  cases exports.1.symm.trans exports'.1
  cases exports.2.symm.trans exports'.2
  exact ⟨rfl, rfl⟩

namespace Wasm.Guest

theorem exportsGlobal_of_exportedGlobal? (exported : g.exportedGlobal? name = some (i, declared)) :
    g.module.ExportsGlobal name i declared := by
  unfold exportedGlobal? at exported
  split at exported
  case h_1 j there =>
    split at exported
    · obtain ⟨t, type, same⟩ := Option.map_eq_some_iff.1 exported
      cases same
      exact ⟨there, type⟩
    · cases exported
  case h_2 => cases exported

theorem exportedGlobal?_eq_none (other : ∀ i, g.module.export? name ≠ some (.global i)) :
    g.exportedGlobal? name = none := by
  unfold exportedGlobal?
  split
  case h_1 i there => exact absurd there (other i)
  case h_2 => rfl

/-- A guest that has the globals of its module exports them. -/
theorem Stocked.exportedGlobal?_eq_some (stocked : g.Stocked)
    (exports : g.module.ExportsGlobal name i declared) :
    g.exportedGlobal? name = some (i, declared) := by
  obtain ⟨there, type⟩ := exports
  obtain ⟨v, present, -⟩ := stocked.exists_global type
  obtain ⟨lt, -⟩ := Array.getElem?_eq_some_iff.1 present
  simp only [exportedGlobal?, there, lt, if_true, type, Option.map_some]

end Wasm.Guest

/-! ### Host types -/

/-- A host type fits a global that is declared with the type it is written in. -/
theorem checkGlobal_eq_ok_iff {kind : NumType} {type : Wasm.ValType} :
    checkGlobal kind type = .ok () ↔ type = kind.toValType := by
  cases kind <;> cases type <;> simp [checkGlobal, NumType.ofValType, NumType.toValType]

/-- A host value is written as a value of its type. -/
theorem HostValue.type_toValue (v : HostValue) : v.encode.toValue.type = v.type.kind.toValType := by
  cases v <;> rfl

/-- A value that fits an exported global can be put there. -/
theorem Wasm.Guest.extends_store (exported : g.exportedGlobal? name = some (i, declared))
    {value : HostValue} (fits : checkGlobal value.type.kind declared.type = .ok ()) :
    g.Extends (g.setGlobal i value.encode.toValue) := by
  refine extends_setGlobal fun stocked old there => ?_
  have exports := exportsGlobal_of_exportedGlobal? exported
  obtain ⟨v, there', typed⟩ := stocked.exists_global exports.2
  cases there.symm.trans there'
  rw [HostValue.type_toValue, typed, checkGlobal_eq_ok_iff.1 fits]

end Embedder
