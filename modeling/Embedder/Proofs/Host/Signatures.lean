import Embedder.Proofs.Host.Admission

namespace Embedder

/-!
# What the check of a signature makes sure of

Before a function is entered, the arguments of the call and the results that are asked for are
compared with the function's type. A call that passes enters the function with values of the types
of its parameters, and whatever values of the types of its results come back can be told to the
caller. So nothing is left that could go wrong about types once the guest runs.

* `fits_iff`: the types of functions that a call fits.
* `Wire.exists_of_type`, `HostType.exists_decode`: values of the right type can be read back.
* `decodeResults_of_typed`: and so can lists of them.
* `Wasm.FuncType.Checks`, `checks`: the rule, for all types, arguments and results.
-/

/-! ### Categories and types -/

theorem NumType.ofValType_eq_some_iff {t : Wasm.ValType} {k : NumType} :
    ofValType t = some k ↔ t = k.toValType := by
  cases k <;> cases t <;> simp [ofValType, toValType]

/-- Types that have categories are the types of these categories. -/
theorem NumType.map_ofValType_eq_iff (types : List Wasm.ValType) (kinds : List NumType) :
    types.map ofValType = kinds.map some ↔ types = kinds.map toValType := by
  induction types generalizing kinds with
  | nil => cases kinds <;> simp
  | cons t types ih =>
    cases kinds with
    | nil => simp
    | cons k kinds => simp only [List.map_cons, List.cons.injEq, ofValType_eq_some_iff, ih]

section

variable {type : Wasm.FuncType} {args : List HostValue} {results : List HostType}

/-- The type of a host value on the virtual machine. -/
def HostValue.valType (v : HostValue) : Wasm.ValType :=
  v.encode.kind.toValType

/-- The virtual machine's type that values of a host type are read from. -/
def HostType.valType (t : HostType) : Wasm.ValType :=
  t.kind.toValType

/-- A call fits the one type that its arguments and its results make. -/
theorem fits_iff : Fits type args results ↔
    type.params = args.map HostValue.valType ∧ type.results = results.map HostType.valType := by
  have params := NumType.map_ofValType_eq_iff type.params (args.map fun a => a.encode.kind)
  have declared := NumType.map_ofValType_eq_iff type.results (results.map HostType.kind)
  simp only [List.map_map] at params declared
  exact and_congr params declared

/-- What passes the check, and what the function is entered with. -/
theorem encodeCall_eq_ok_iff {params : List Wasm.Value} :
    encodeCall type args results = .ok params ↔
      Fits type args results ∧ params = wireValues args := by
  refine ⟨fun encoded => ?_, ?_⟩
  · by_cases fits : Fits type args results
    · rw [encodeCall_of_fits fits] at encoded
      cases encoded
      exact ⟨fits, rfl⟩
    · obtain ⟨e, refused, -⟩ := encodeCall_of_not_fits fits
      cases encoded.symm.trans refused
  · rintro ⟨fits, rfl⟩
    exact encodeCall_of_fits fits

end

/-! ### Values -/

theorem Wire.type_toValue (w : Wire) : w.toValue.type = w.kind.toValType := by
  cases w <;> rfl

/-- The arguments as the guest gets them are of the types that they are said to be. -/
theorem map_type_wireValues (args : List HostValue) :
    (wireValues args).map Wasm.Value.type = args.map HostValue.valType := by
  rw [wireValues, List.map_map]
  exact List.map_congr_left fun a _ => a.encode.type_toValue

/-- A value of the virtual machine of a numeric type is on the wire what it was. -/
theorem Wire.exists_of_type {v : Wasm.Value} {k : NumType} (typed : v.type = k.toValType) :
    ∃ w, ofValue v = .ok w ∧ w.kind = k ∧ w.toValue = v := by
  cases v <;> cases k <;> simp [Wasm.Value.type, NumType.toValType] at typed <;>
    exact ⟨_, rfl, rfl, rfl⟩

/-- A wire value of the category of a host type is read as a value of this type, and no bit of it is
lost. -/
theorem HostType.exists_decode {t : HostType} {w : Wire} (kind : w.kind = t.kind) :
    ∃ v, t.decode w = .ok v ∧ v.type = t ∧ v.encode = w := by
  cases t <;> cases w <;> simp [Wire.kind, HostType.kind] at kind <;> exact ⟨_, rfl, rfl, rfl⟩

/-- The same position by position. -/
theorem HostType.exists_decodeEach {types : List HostType} {wires : List Wire}
    (kinds : wires.map Wire.kind = types.map HostType.kind) :
    ∃ values, decodeEach types wires = .ok values ∧ values.map HostValue.type = types ∧
      values.map HostValue.encode = wires := by
  induction types generalizing wires with
  | nil =>
    rw [List.map_eq_nil_iff.1 kinds]
    exact ⟨[], rfl, rfl, rfl⟩
  | cons t types ih =>
    obtain ⟨w, wires, rfl, kind, kinds⟩ := List.map_eq_cons_iff.1 kinds
    obtain ⟨v, decoded, type, encode⟩ := exists_decode kind
    obtain ⟨values, decoded', types', encodes⟩ := ih kinds
    refine ⟨v :: values, ?_, ?_, ?_⟩
    · simp [decodeEach, decoded, decoded', bind, Except.bind, pure, Except.pure]
    · rw [List.map_cons, type, types']
    · rw [List.map_cons, encode, encodes]

theorem Wire.exists_mapM_ofValue {values : List Wasm.Value} {kinds : List NumType}
    (typed : values.map Wasm.Value.type = kinds.map NumType.toValType) :
    ∃ wires, values.mapM ofValue = .ok wires ∧ wires.map Wire.kind = kinds ∧
      wires.map Wire.toValue = values := by
  induction kinds generalizing values with
  | nil =>
    rw [List.map_eq_nil_iff.1 typed]
    exact ⟨[], rfl, rfl, rfl⟩
  | cons k kinds ih =>
    obtain ⟨v, values, rfl, type, types⟩ := List.map_eq_cons_iff.1 typed
    obtain ⟨w, read, kind, back⟩ := exists_of_type type
    obtain ⟨wires, reads, kinds', backs⟩ := ih types
    refine ⟨w :: wires, ?_, ?_, ?_⟩
    · simp [List.mapM_cons, read, reads, bind, Except.bind, pure, Except.pure]
    · rw [List.map_cons, kind, kinds']
    · rw [List.map_cons, back, backs]

/-- **Results.** Values of the types that are asked for are told to the caller as they are. -/
theorem decodeResults_of_typed {results : List HostType} {values : List Wasm.Value}
    (typed : values.map Wasm.Value.type = results.map HostType.valType) :
    ∃ answer, decodeResults results values = .ok answer ∧
      answer.map HostValue.type = results ∧ wireValues answer = values := by
  have typed : values.map Wasm.Value.type = (results.map HostType.kind).map NumType.toValType := by
    rw [typed, List.map_map]
    rfl
  obtain ⟨wires, reads, kinds, backs⟩ := Wire.exists_mapM_ofValue typed
  obtain ⟨answer, decoded, types, encodes⟩ := HostType.exists_decodeEach kinds
  have length : wires.length = results.length := by
    simpa using congrArg List.length kinds
  refine ⟨answer, ?_, types, ?_⟩
  · simp [decodeResults, reads, HostType.decodeAll, length, decoded, bind, Except.bind]
  · rw [wireValues, ← backs, ← encodes, List.map_map]
    rfl

/-! ### The rule -/

/-- What is made sure of by the check of a call against the type of a function. -/
structure Wasm.FuncType.Checks (type : Wasm.FuncType) (args : List HostValue)
    (results : List HostType) : Prop where
  /-- A call passes exactly if its arguments are of the types of the parameters, and the results
  that are asked for are of the types of the results, one by one and as many. -/
  passes : (∃ params, encodeCall type args results = .ok params) ↔
    type.params = args.map HostValue.valType ∧ type.results = results.map HostType.valType
  /-- The function is entered with the arguments, which are of the types of its parameters. -/
  enters : ∀ params, encodeCall type args results = .ok params →
    params = wireValues args ∧ params.map Wasm.Value.type = type.params
  /-- Whatever values of the types of its results come back, they are told as values of the types that
  were asked for, and are the same values. -/
  answers : ∀ params, encodeCall type args results = .ok params →
    ∀ values, values.map Wasm.Value.type = type.results →
      ∃ answer, decodeResults results values = .ok answer ∧
        answer.map HostValue.type = results ∧ wireValues answer = values
  /-- A call that does not pass is told what was expected in place of what was found. -/
  refuses : ∀ e, encodeCall type args results = .error e → e.IsMismatch

theorem checks (type : Wasm.FuncType) (args : List HostValue) (results : List HostType) :
    type.Checks args results where
  passes := by
    rw [← fits_iff]
    refine ⟨?_, fun fits => ⟨_, encodeCall_of_fits fits⟩⟩
    rintro ⟨params, encoded⟩
    exact (encodeCall_eq_ok_iff.1 encoded).1
  enters := by
    intro params encoded
    obtain ⟨fits, rfl⟩ := encodeCall_eq_ok_iff.1 encoded
    rw [map_type_wireValues, (fits_iff.1 fits).1]
    exact ⟨rfl, rfl⟩
  answers := by
    intro params encoded values typed
    obtain ⟨fits, -⟩ := encodeCall_eq_ok_iff.1 encoded
    rw [(fits_iff.1 fits).2] at typed
    exact decodeResults_of_typed typed
  refuses := by
    intro e refused
    have unfit : ¬ Fits type args results := by
      intro fits
      cases (encodeCall_of_fits fits).symm.trans refused
    obtain ⟨e', refused', mismatch⟩ := encodeCall_of_not_fits unfit
    cases refused.symm.trans refused'
    exact mismatch

end Embedder
