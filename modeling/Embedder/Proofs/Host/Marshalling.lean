import Embedder.Proofs.Host.Signatures

namespace Embedder

/-!
# Round trips on the wire

Host values are written on the wire and read back with all their bits. What can be read at given
types is exactly what was written at them, and what cannot is refused at the first wire value that
is of another category. The proofs go value by value first (`HostType.decode_eq_ok_iff`) and then,
by induction on the types, position by position.

* `HostType.decodeAll_eq_ok_iff`: what is read at given types.
* `Wire.Differs`, `HostType.decodeAll_eq_error_iff`: what is refused, and why.
* `HostValue.int?`, `HostType.wrap`, `exists_decode_wrap`: integers at the other signedness.
* `wire_round_trips`: all of it together.
-/

-- Powers are those of the core library, whatever else is imported.
attribute [local instance (1100)] instPowNat

/-! ### One value -/

theorem Wire.ofValue_toValue (w : Wire) : ofValue w.toValue = .ok w := by
  cases w <;> rfl

/-- Wire values come back from the virtual machine as they were handed to it. -/
theorem Wire.mapM_ofValue_toValue (wires : List Wire) :
    (wires.map toValue).mapM ofValue = .ok wires := by
  induction wires with
  | nil => rfl
  | cons w wires ih =>
    rw [List.map_cons, List.mapM_cons, ofValue_toValue, ih]
    rfl

theorem HostValue.kind_encode (v : HostValue) : v.encode.kind = v.type.kind := by
  cases v <;> rfl

/-- What was written at a type is read back at it. -/
theorem HostType.decode_encode (v : HostValue) : v.type.decode v.encode = .ok v := by
  cases v <;> rfl

/-- A wire value of another category is refused. -/
theorem HostType.decode_of_ne {t : HostType} {w : Wire} (other : t.kind ≠ w.kind) :
    t.decode w = .error (.typeMismatch t.kind.name w.kind.name) := by
  cases t <;> cases w <;> first | rfl | exact absurd rfl other

/-- A wire value is read as the one value of the type that is written like that. -/
theorem HostType.decode_eq_ok_iff {t : HostType} {w : Wire} {v : HostValue} :
    t.decode w = .ok v ↔ v.type = t ∧ v.encode = w := by
  constructor
  · intro read
    by_cases same : w.kind = t.kind
    · obtain ⟨v', read', type, encode⟩ := exists_decode same
      cases read'.symm.trans read
      exact ⟨type, encode⟩
    · rw [decode_of_ne (Ne.symm same)] at read
      cases read
  · rintro ⟨rfl, rfl⟩
    exact decode_encode v

/-! ### Lists -/

/-- Wire values are read, position by position, as the values that are written like that. -/
theorem HostType.decodeEach_eq_ok_iff {types : List HostType} {wires : List Wire}
    {values : List HostValue} (length : wires.length = types.length) :
    decodeEach types wires = .ok values ↔
      values.map HostValue.type = types ∧ values.map HostValue.encode = wires := by
  induction types generalizing wires values with
  | nil =>
    cases List.length_eq_zero_iff.1 length
    cases values <;> simp [decodeEach]
  | cons t types ih =>
    obtain ⟨w, wires, rfl⟩ := List.exists_cons_of_length_eq_add_one length
    have length : wires.length = types.length := by simpa using length
    cases read : t.decode w with
    | error e =>
      -- no value of the type is written like that
      have never : ∀ v : HostValue, v.type = t → v.encode ≠ w := by
        intro v type encode
        cases read.symm.trans (decode_eq_ok_iff.2 ⟨type, encode⟩)
      cases values with
      | nil => simp [decodeEach, read, bind, Except.bind]
      | cons v values =>
        simp only [decodeEach, read, bind, Except.bind, reduceCtorEq, List.map_cons,
          List.cons.injEq, false_iff]
        rintro ⟨⟨type, -⟩, encode, -⟩
        exact never v type encode
    | ok v =>
      obtain ⟨type, encode⟩ := decode_eq_ok_iff.1 read
      have found : decodeEach (t :: types) (w :: wires) = .ok values ↔
          ∃ rest, decodeEach types wires = .ok rest ∧ v :: rest = values := by
        cases rest : decodeEach types wires <;>
          simp [decodeEach, read, rest, bind, Except.bind, pure, Except.pure]
      rw [found]
      constructor
      · rintro ⟨rest, reads, rfl⟩
        obtain ⟨types', encodes⟩ := (ih length).1 reads
        simp only [List.map_cons, type, types', encode, encodes, and_self]
      · rintro ⟨types', encodes⟩
        obtain ⟨v', rest, rfl, type', types'⟩ := List.map_eq_cons_iff.1 types'
        obtain ⟨encode', encodes⟩ := List.cons.inj encodes
        refine ⟨rest, (ih length).2 ⟨types', encodes⟩, ?_⟩
        cases read.symm.trans (decode_eq_ok_iff.2 ⟨type', encode'⟩)
        rfl

/-- **Reading.** Wire values are read at a list of types as the one list of values of these types
that is written like that. -/
theorem HostType.decodeAll_eq_ok_iff {types : List HostType} {wires : List Wire}
    {values : List HostValue} :
    decodeAll types wires = .ok values ↔
      values.map HostValue.type = types ∧ values.map HostValue.encode = wires := by
  unfold decodeAll
  by_cases length : wires.length = types.length
  · rw [if_neg (by simpa using length)]
    exact decodeEach_eq_ok_iff length
  · rw [if_pos length]
    simp only [reduceCtorEq, false_iff]
    rintro ⟨rfl, rfl⟩
    simp at length

/-- What is wrong with wire values that are to be read at a list of types: their number, or else the
first one that is of another category. -/
inductive Wire.Differs (types : List HostType) (wires : List Wire) : Error → Prop where
  | count (length : wires.length ≠ types.length) :
    Differs types wires (.typeMismatch s!"{types.length} results" s!"{wires.length} results")
  | category (length : wires.length = types.length) (i : Nat) (t : HostType) (w : Wire)
    (type : types[i]? = some t) (wire : wires[i]? = some w) (other : t.kind ≠ w.kind)
    (first : (wires.take i).map Wire.kind = (types.take i).map HostType.kind) :
    Differs types wires (.typeMismatch t.kind.name w.kind.name)

/-- Wire values that are wrong are refused for what is wrong first. -/
theorem HostType.decodeAll_of_differs {types : List HostType} {wires : List Wire} {e : Error}
    (differs : Wire.Differs types wires e) : decodeAll types wires = .error e := by
  cases differs with
  | count length => exact if_pos length
  | category length i t w type wire other first =>
    rw [decodeAll, if_neg (by simpa using length)]
    clear length
    induction i generalizing types wires with
    | zero =>
      cases types <;> cases wires <;> simp at type wire
      subst type wire
      simp [decodeEach, decode_of_ne other, bind, Except.bind]
    | succ i ih =>
      -- the values before the first one that is wrong can be read
      cases types with
      | nil => simp at type
      | cons t' types =>
        cases wires with
        | nil => simp at wire
        | cons w' wires =>
          simp only [List.take_succ_cons, List.map_cons, List.cons.injEq] at first
          obtain ⟨v, read, -⟩ := exists_decode first.1
          have rest := ih (by simpa using type) (by simpa using wire) first.2
          simp [decodeEach, read, rest, bind, Except.bind]

/-- Where as many categories differ, there is a first position at which they do. -/
theorem Wire.exists_first_other {types : List HostType} {wires : List Wire}
    (length : wires.length = types.length)
    (unlike : wires.map Wire.kind ≠ types.map HostType.kind) :
    ∃ (i : Nat) (t : HostType) (w : Wire), types[i]? = some t ∧ wires[i]? = some w ∧
      t.kind ≠ w.kind ∧ (wires.take i).map Wire.kind = (types.take i).map HostType.kind := by
  induction types generalizing wires with
  | nil =>
    cases List.length_eq_zero_iff.1 length
    exact absurd rfl unlike
  | cons t types ih =>
    obtain ⟨w, wires, rfl⟩ := List.exists_cons_of_length_eq_add_one length
    by_cases same : w.kind = t.kind
    · obtain ⟨i, t', w', type, wire, other, first⟩ :=
        ih (by simpa using length) (by simpa [same] using unlike)
      exact ⟨i + 1, t', w', by simpa using type, by simpa using wire, other, by simp [same, first]⟩
    · exact ⟨0, t, w, rfl, rfl, Ne.symm same, rfl⟩

/-- **Refusals.** What cannot be read is refused for the wrong number of values, or for the first
value that is of another category than the type at its position. -/
theorem HostType.decodeAll_eq_error_iff {types : List HostType} {wires : List Wire} {e : Error} :
    decodeAll types wires = .error e ↔ Wire.Differs types wires e := by
  refine ⟨fun refused => ?_, decodeAll_of_differs⟩
  have unlike : wires.map Wire.kind ≠ types.map HostType.kind := by
    intro same
    obtain ⟨values, -, rfl, rfl⟩ := exists_decodeEach same
    cases refused.symm.trans (decodeAll_eq_ok_iff.2 ⟨rfl, rfl⟩)
  have differs : ∃ e', Wire.Differs types wires e' := by
    by_cases length : wires.length = types.length
    · obtain ⟨i, t, w, type, wire, other, first⟩ := Wire.exists_first_other length unlike
      exact ⟨_, .category length i t w type wire other first⟩
    · exact ⟨_, .count length⟩
  obtain ⟨e', differs⟩ := differs
  cases refused.symm.trans (decodeAll_of_differs differs)
  exact differs

/-! ### Integers -/

/-- The number that a host value is, if its type is one of integers. -/
def HostValue.int? : HostValue → Option Int
  | .i32 v => some v.toInt
  | .u32 v => some v.toNat
  | .i64 v => some v.toInt
  | .u64 v => some v.toNat
  | .f32 _ => none
  | .f64 _ => none

/-- The number of a type of integers that has the low bits of a given number, in two's complement
where the type is signed. -/
def HostType.wrap : HostType → Int → Int
  | .i32, n => n.bmod (2 ^ (32 : Nat))
  | .u32, n => n % 2 ^ (32 : Nat)
  | .i64, n => n.bmod (2 ^ (64 : Nat))
  | .u64, n => n % 2 ^ (64 : Nat)
  | .f32, n => n
  | .f64, n => n

theorem emod_toNat {width : Nat} (b : BitVec width) : (b.toNat : Int) % 2 ^ width = b.toNat :=
  Int.emod_eq_of_lt (Int.natCast_nonneg _) (by exact_mod_cast b.isLt)

/-- The signed number of some bits has the same low bits as the unsigned one. -/
theorem emod_toInt {width : Nat} (b : BitVec width) : b.toInt % 2 ^ width = b.toNat := by
  have same : b.toInt % (2 ^ width : Nat) = (b.toNat : Int) % (2 ^ width : Nat) := by
    rw [BitVec.toInt_eq_toNat_bmod, Int.bmod_emod]
  push_cast at same
  rw [same, emod_toNat]

/-- An integer that is read at a type of its width is the number of that type with the same bits. -/
theorem exists_decode_wrap {v : HostValue} {t : HostType} {n : Int} (int : v.int? = some n)
    (kind : t.kind = v.type.kind) :
    ∃ v', t.decode v.encode = .ok v' ∧ v'.type = t ∧ v'.int? = some (t.wrap n) := by
  -- The bits stay; what they stand for is wrapped to the type that they are read as.
  obtain ⟨v', read, type, -⟩ := HostType.exists_decode (t := t) (v.kind_encode.trans kind.symm)
  refine ⟨v', read, type, ?_⟩
  cases v with
  | f32 | f64 => cases int
  | i32 v =>
    cases int
    cases t <;> cases kind <;> cases read
    · exact congrArg some (BitVec.toInt_bmod_cancel v.toBitVec).symm
    · exact congrArg some (emod_toInt v.toBitVec).symm
  | u32 v =>
    cases int
    cases t <;> cases kind <;> cases read
    · exact congrArg some (BitVec.toInt_eq_toNat_bmod v.toBitVec)
    · exact congrArg some (emod_toNat v.toBitVec).symm
  | i64 v =>
    cases int
    cases t <;> cases kind <;> cases read
    · exact congrArg some (BitVec.toInt_bmod_cancel v.toBitVec).symm
    · exact congrArg some (emod_toInt v.toBitVec).symm
  | u64 v =>
    cases int
    cases t <;> cases kind <;> cases read
    · exact congrArg some (BitVec.toInt_eq_toNat_bmod v.toBitVec)
    · exact congrArg some (emod_toNat v.toBitVec).symm

/-! ### Round trips -/

/-- **Round trips.** Host values that are written on the wire, handed to the virtual machine and
read back at their own types are the same values, bit for bit. Wire values can be read at a list of
types if and only if they are of the categories of these types, one by one and as many. What they
are read as is written in just the way that they are, and is of these types. What cannot be read is
refused for the number of values, or for the first one that is of another category. Integers may be
read at the other signedness, as the number with the same bits. -/
theorem wire_round_trips :
    (∀ values : List HostValue,
      decodeResults (values.map HostValue.type) (wireValues values) = .ok values) ∧
    (∀ types wires, (∃ values, HostType.decodeAll types wires = .ok values) ↔
      wires.map Wire.kind = types.map HostType.kind) ∧
    (∀ types wires values, HostType.decodeAll types wires = .ok values ↔
      values.map HostValue.type = types ∧ values.map HostValue.encode = wires) ∧
    (∀ types wires e, HostType.decodeAll types wires = .error e ↔ Wire.Differs types wires e) ∧
    ∀ (v : HostValue) (t : HostType) (n : Int), v.int? = some n → t.kind = v.type.kind →
      ∃ v', t.decode v.encode = .ok v' ∧ v'.type = t ∧ v'.int? = some (t.wrap n) := by
  refine ⟨fun values => ?_, fun types wires => ⟨?_, fun kinds => ?_⟩,
    fun types wires values => HostType.decodeAll_eq_ok_iff,
    fun types wires e => HostType.decodeAll_eq_error_iff,
    fun v t n int kind => exists_decode_wrap int kind⟩
  · have wires : wireValues values = (values.map HostValue.encode).map Wire.toValue := by
      simp [wireValues]
    -- The way back from guest values to the wire is exact, so decoding is left.
    have back : (wireValues values).mapM Wire.ofValue = .ok (values.map HostValue.encode) := by
      rw [wires, Wire.mapM_ofValue_toValue]
    rw [decodeResults, back]
    exact HostType.decodeAll_eq_ok_iff.2 ⟨rfl, rfl⟩
  · rintro ⟨values, read⟩
    obtain ⟨rfl, rfl⟩ := HostType.decodeAll_eq_ok_iff.1 read
    simp [HostValue.kind_encode]
  · obtain ⟨values, -, types', encodes⟩ := HostType.exists_decodeEach kinds
    exact ⟨values, HostType.decodeAll_eq_ok_iff.2 ⟨types', encodes⟩⟩

end Embedder
