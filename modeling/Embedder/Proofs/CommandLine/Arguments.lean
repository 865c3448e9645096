import Mathlib.Data.List.Induction
import Mathlib.Data.List.Nodup
import Embedder.CommandLine
import Embedder.Proofs.Config.Spelling

namespace Embedder.CommandLine

/-!
# What arguments say

A command line says things one after another: the paths of the two builds, values of flags, and that
the time is to be taken from the system's clock. Each can be written in several ways. What is asked
for are the things that are said, if they go together; their order makes no difference, but for the
paths.

* `Item`, `Item.Written`, `Says`: what arguments say, and how it is written.
* `readAll_eq_some_iff`: what is read are the things that are said.
* `Proper`, `readingOf`, `foldlM_add?_eq_some_iff`: which things go together.
* `settled`, `Options.Answers`, `parse_eq_run_iff`: the options that are asked for.
-/

/-! ### Writing -/

/-- One thing that a command line says. -/
inductive Item where
  | path (p : String)
  | value (f : Flag) (v : String)
  | systemClock
  deriving DecidableEq

/-- The arguments that say one thing. A value that begins with a dash, and is more than that, is
written into the same argument as its flag. -/
inductive Item.Written : Item → List String → Prop
  | path {p : String} (plain : isValue p) : Written (.path p) [p]
  | apart (f : Flag) {v : String} (plain : isValue v) : Written (.value f v) ["--" ++ f.name, v]
  | joined (f : Flag) (v : String) : Written (.value f v) ["--" ++ f.name ++ "=" ++ v]
  | shortApart {v : String} (plain : isValue v) : Written (.value .config v) ["-c", v]
  | shortJoined {v : String} (nonempty : v ≠ "") (first : v.toList.head? ≠ some '=') :
    Written (.value .config v) ["-c" ++ v]
  | shortEquals (v : String) : Written (.value .config v) ["-c=" ++ v]
  | systemClock : Written .systemClock ["--system-clock"]

/-- Arguments say some things in this order. After two dashes there are only paths. -/
inductive Says : List String → List Item → Prop
  | nothing : Says [] []
  | item {args rest : List String} {item : Item} {items : List Item} (written : item.Written args)
    (more : Says rest items) : Says (args ++ rest) (item :: items)
  | paths (ps : List String) : Says ("--" :: ps) (ps.map .path)

/-! ### Reading -/

/-- The reading after one more thing has been said. -/
def Reading.add? (r : Reading) : Item → Option Reading
  | .path p => r.addPath? p
  | .value f v => r.addValue? f v
  | .systemClock => r.useSystemClock?

/-- An argument that can be a value is read as a path. -/
theorem readArgument_of_isValue {arg : String} (plain : isValue arg) (r : Reading) :
    readArgument r arg = (r.addPath? arg).map .next := by
  unfold isValue at plain
  unfold readArgument
  split at plain
  case h_1 same => simp only [same]
  case h_2 => cases plain
  case h_3 _ notDash notLong =>
    split
    case h_1 same => exact absurd same (notLong _)
    case h_2 => rfl
    case h_3 same => exact absurd same (notLong _)
    case h_4 => rfl

/-- A long flag is found by its name. -/
theorem find?_name (f : Flag) : Flag.all.find? (fun g => g.name = f.name) = some f := by
  cases f <;> decide

/-- A long flag is cut where its value begins, if the argument has it. -/
theorem readLong_name (r : Reading) (f : Flag) (rest : List Char)
    (cut : ∀ c ∈ rest.head?, c = '=') :
    readLong r (f.name.toList ++ rest) =
      match rest with
      | [] => some (.awaits f)
      | _ :: v => (r.addValue? f (String.ofList v)).map .next := by
  have inside : ∀ c ∈ f.name.toList, decide (c ≠ '=') = true := by
    rw [← List.all_eq_true]
    cases f <;> decide
  have stops : ∀ c ∈ rest.head?, decide (c ≠ '=') = false := by simpa using cut
  obtain ⟨taken, dropped⟩ := Json.takeWhile_dropWhile_append inside stops
  simp only [readLong, taken, dropped, String.ofList_toList, find?_name]
  cases rest <;> rfl

/-- Two dashes begin a long name. -/
theorem readArgument_long {arg : String} {text : List Char} (long : arg.toList = '-' :: '-' :: text)
    (r : Reading) : readArgument r arg = readLong r text := by
  simp only [readArgument, long]

/-- One dash begins short names. -/
theorem readArgument_short {arg : String} {c : Char} {text : List Char}
    (short : arg.toList = '-' :: c :: text) (other : c ≠ '-') (r : Reading) :
    readArgument r arg = readShort r (c :: text) := by
  rw [readArgument, short]
  split
  case h_1 same => cases same; exact absurd rfl other
  case h_2 same => cases same
  case h_3 same => cases same; rfl
  case h_4 same => exact absurd rfl (same _)

/-- A value may stand right behind a short name. -/
theorem readShort_joined (r : Reading) {v : List Char} (nonempty : v ≠ [])
    (first : v.head? ≠ some '=') :
    readShort r ('c' :: v) = (r.addValue? .config (String.ofList v)).map .next := by
  cases v with
  | nil => exact absurd rfl nonempty
  | cons c v =>
    have other : c ≠ '=' := fun same => first (congrArg some same)
    rw [readShort]
    · simp
    · exact fun _ same => other (List.cons.inj same).1

/-- Two dashes alone end all names, and nothing else does. -/
theorem ne_dashes_of_toList {arg : String} {text : List Char} (h : arg.toList = text)
    (other : text ≠ ['-', '-']) : arg ≠ "--" := by
  rintro rfl
  exact other h.symm

/-- Arguments of which the first one holds a thing entirely. -/
theorem readAll_of_next {arg : String} (other : arg ≠ "--") {r : Reading} {read : Option Reading}
    (first : readArgument r arg = read.map .next) (rest : List String) :
    readAll r (arg :: rest) = read.bind fun r => readAll r rest := by
  rw [readAll, first]
  · cases read <;> rfl
  · exact other

/-- Arguments of which the second one is the value of the first one. -/
theorem readAll_of_awaits {arg v : String} (other : arg ≠ "--") {r : Reading} {f : Flag}
    (first : readArgument r arg = some (.awaits f)) (plain : isValue v) (rest : List String) :
    readAll r (arg :: v :: rest) = (r.addValue? f v).bind fun r => readAll r rest := by
  rw [readAll, first]
  · simp only [if_pos plain]
  · exact other

/-- What is read of the arguments that say one thing is that thing. -/
theorem readAll_append {item : Item} {args : List String} (written : item.Written args)
    (r : Reading) (rest : List String) :
    readAll r (args ++ rest) = (r.add? item).bind fun r => readAll r rest := by
  cases written with
  | path plain =>
    refine readAll_of_next ?_ (readArgument_of_isValue plain r) rest
    rintro rfl
    cases plain
  | apart f plain =>
    have long : ("--" ++ f.name).toList = '-' :: '-' :: (f.name.toList ++ []) := by simp
    have cut := readLong_name r f [] (by simp)
    refine readAll_of_awaits (ne_dashes_of_toList long ?_) ?_ plain rest
    · cases f <;> decide
    · rw [readArgument_long long, cut]
  | joined f v =>
    have long : ("--" ++ f.name ++ "=" ++ v).toList =
        '-' :: '-' :: (f.name.toList ++ '=' :: v.toList) := by simp
    have cut := readLong_name r f ('=' :: v.toList) (by simp)
    refine readAll_of_next (ne_dashes_of_toList long ?_) ?_ rest
    · cases f <;> simp [Flag.name]
    · rw [readArgument_long long, cut]
      simp [Reading.add?]
  | shortApart plain =>
    exact readAll_of_awaits (by decide) rfl plain rest
  | @shortJoined v nonempty first =>
    -- The value does not begin with a sign of equality, which would not be part of it.
    have short : ("-c" ++ v).toList = '-' :: 'c' :: v.toList := by simp
    refine readAll_of_next (ne_dashes_of_toList short (by simp)) ?_ rest
    rw [readArgument_short short (by decide), readShort_joined]
    · simp [Reading.add?]
    · simpa using nonempty
    · exact first
  | shortEquals v =>
    have short : ("-c=" ++ v).toList = '-' :: 'c' :: '=' :: v.toList := by simp
    refine readAll_of_next (ne_dashes_of_toList short (by simp)) ?_ rest
    rw [readArgument_short short (by decide)]
    simp [readShort, Reading.add?]
  | systemClock => exact readAll_of_next (by decide) rfl rest

/-! ### All that is read has been said -/

/-- A text is made of its characters. -/
theorem eq_of_toList {s : String} {cs : List Char} (h : s.toList = cs) : s = String.ofList cs := by
  rw [← h, String.ofList_toList]

/-- A long flag was cut at the first sign of equality. -/
theorem readLong_eq_some {r : Reading} {text : List Char} {progress : Progress}
    (read : readLong r text = some progress) :
    (∃ f v, text = f.name.toList ++ '=' :: v ∧
      (r.addValue? f (String.ofList v)).map .next = some progress) ∨
    (∃ f : Flag, text = f.name.toList ∧ progress = .awaits f) ∨
    (text = "system-clock".toList ∧ r.useSystemClock?.map .next = some progress) ∨
    ∃ request, progress = .done request ∧ ∀ o, request ≠ .run o := by
  have cut : text = text.takeWhile (· ≠ '=') ++ text.dropWhile (· ≠ '=') :=
    (List.takeWhile_append_dropWhile ..).symm
  have after : ∀ c ∈ (text.dropWhile (· ≠ '=')).head?, c = '=' := by
    intro c first
    have stopped := List.head?_dropWhile_not (· ≠ '=') text
    rw [first] at stopped
    simpa using stopped
  -- From here on, only the two pieces matter: the name, and what begins with the first sign.
  unfold readLong at read
  generalize text.takeWhile (· ≠ '=') = name at cut read
  generalize text.dropWhile (· ≠ '=') = rest at cut read after
  subst cut
  cases found : Flag.all.find? fun f => f.name = String.ofList name with
  | some f =>
    have named : f.name = String.ofList name := by simpa using List.find?_some found
    have spelled : name = f.name.toList := by rw [named, String.toList_ofList]
    cases rest with
    | nil =>
      simp only [found, Option.some.injEq] at read
      exact .inr (.inl ⟨f, by rw [spelled, List.append_nil], read.symm⟩)
    | cons c v =>
      simp only [found] at read
      cases after c rfl
      exact .inl ⟨f, v, by rw [spelled], read⟩
  | none =>
    cases rest with
    | nil =>
      simp only [found] at read
      split_ifs at read with clock help version
      · exact .inr (.inr (.inl ⟨by rw [← clock, String.toList_ofList, List.append_nil], read⟩))
      · exact .inr (.inr (.inr ⟨_, (Option.some.inj read).symm, nofun⟩))
      · exact .inr (.inr (.inr ⟨_, (Option.some.inj read).symm, nofun⟩))
    | cons c v =>
      simp only [found] at read
      cases read

/-- Short names are read in three ways: with their value behind them, with one to come, or as a request
for something else than a run. -/
theorem readShort_eq_some {r : Reading} {text : List Char} {progress : Progress}
    (read : readShort r text = some progress) :
    (∃ v, (text = 'c' :: '=' :: v ∨ text = 'c' :: v ∧ v ≠ [] ∧ v.head? ≠ some '=') ∧
      (r.addValue? .config (String.ofList v)).map .next = some progress) ∨
    (text = ['c'] ∧ progress = .awaits .config) ∨
    ∃ request, progress = .done request ∧ ∀ o, request ≠ .run o := by
  unfold readShort at read
  split at read
  case h_1 => exact .inr (.inr ⟨_, (Option.some.inj read).symm, nofun⟩)
  case h_2 => exact .inr (.inr ⟨_, (Option.some.inj read).symm, nofun⟩)
  case h_3 => exact .inr (.inl ⟨rfl, (Option.some.inj read).symm⟩)
  case h_4 v => exact .inl ⟨v, .inl rfl, read⟩
  -- The cases are tried in order, so here the value is neither missing nor behind a sign.
  case h_5 v notAlone notEquals =>
    refine .inl ⟨v, .inr ⟨rfl, ?_, ?_⟩, read⟩
    · rintro rfl
      exact notAlone rfl
    · intro first
      cases v with
      | nil => cases first
      | cons c v =>
        cases first
        exact notEquals v rfl
  case h_6 => cases read

/-- A thing that one argument holds has been written there. -/
theorem exists_written_of_next {r r' : Reading} {arg : String}
    (read : readArgument r arg = some (.next r')) :
    ∃ item : Item, item.Written [arg] ∧ r.add? item = some r' := by
  have given : ∀ {u : Option Reading}, u.map Progress.next = some (.next r') → u = some r' := by
    intro u same
    obtain ⟨_, rfl, ⟨⟩⟩ := Option.map_eq_some_iff.1 same
    rfl
  unfold readArgument at read
  split at read
  case h_1 text long =>
    -- Two hyphens: a flag with its value after an equals sign, or the one that has no value.
    rcases readLong_eq_some read with ⟨f, v, rfl, value⟩ | ⟨f, -, ⟨⟩⟩ | ⟨rfl, clock⟩ | ⟨_, ⟨⟩, -⟩
    · refine ⟨.value f (String.ofList v), ?_, given value⟩
      have spelled : arg = "--" ++ f.name ++ "=" ++ String.ofList v := by
        rw [eq_of_toList long]
        simp [String.ext_iff]
      rw [spelled]
      exact .joined f _
    · refine ⟨.systemClock, ?_, given clock⟩
      rw [eq_of_toList long]
      exact .systemClock
  case h_2 dash => exact ⟨.path arg, .path (by simp [isValue, dash]), given read⟩
  case h_3 text notLong notAlone short =>
    -- One hyphen: the short flag, with its value after an equals sign or right after it.
    rcases readShort_eq_some read with
      ⟨v, rfl | ⟨rfl, nonempty, first⟩, value⟩ | ⟨-, ⟨⟩⟩ | ⟨_, ⟨⟩, -⟩
    · refine ⟨.value .config (String.ofList v), ?_, given value⟩
      have spelled : arg = "-c=" ++ String.ofList v := by
        rw [eq_of_toList short]
        simp [String.ext_iff]
      rw [spelled]
      exact .shortEquals _
    · refine ⟨.value .config (String.ofList v), ?_, given value⟩
      have spelled : arg = "-c" ++ String.ofList v := by
        rw [eq_of_toList short]
        simp [String.ext_iff]
      rw [spelled]
      exact .shortJoined (by simpa [String.ext_iff] using nonempty) (by simpa using first)
  case h_4 notLong notAlone notShort =>
    refine ⟨.path arg, .path ?_, given read⟩
    unfold isValue
    split
    · rfl
    · exact absurd ‹_› (notShort _)
    · rfl

/-- A flag without its value has been written before it. -/
theorem written_of_awaits {r : Reading} {arg : String} {f : Flag}
    (read : readArgument r arg = some (.awaits f)) {v : String} (plain : isValue v) :
    (Item.value f v).Written [arg, v] := by
  -- What has found its value awaits none.
  have noValue : ∀ {u : Option Reading}, u.map Progress.next ≠ some (.awaits f) := by
    intro u same
    obtain ⟨_, -, ⟨⟩⟩ := Option.map_eq_some_iff.1 same
  unfold readArgument at read
  split at read
  case h_1 text long =>
    rcases readLong_eq_some read with ⟨_, _, -, value⟩ | ⟨g, rfl, ⟨⟩⟩ | ⟨-, clock⟩ | ⟨_, ⟨⟩, -⟩
    · exact absurd value noValue
    · have spelled : arg = "--" ++ f.name := by
        rw [eq_of_toList long]
        simp [String.ext_iff]
      rw [spelled]
      exact .apart f plain
    · exact absurd clock noValue
  case h_2 => exact absurd read noValue
  case h_3 text notLong notAlone short =>
    rcases readShort_eq_some read with ⟨_, -, value⟩ | ⟨rfl, ⟨⟩⟩ | ⟨_, ⟨⟩, -⟩
    · exact absurd value noValue
    · rw [eq_of_toList short]
      exact .shortApart plain
  case h_4 => exact absurd read noValue

/-- No argument asks for a run. -/
theorem readArgument_ne_run {r : Reading} {arg : String} (o : Options) :
    readArgument r arg ≠ some (.done (.run o)) := by
  have notDone : ∀ {u : Option Reading}, u.map Progress.next ≠ some (.done (.run o)) := by
    intro u same
    obtain ⟨_, -, ⟨⟩⟩ := Option.map_eq_some_iff.1 same
  intro read
  unfold readArgument at read
  split at read
  case h_1 =>
    rcases readLong_eq_some read with ⟨_, _, -, value⟩ | ⟨_, -, ⟨⟩⟩ | ⟨-, clock⟩ | ⟨_, ⟨⟩, other⟩
    · exact notDone value
    · exact notDone clock
    · exact other o rfl
  case h_2 => exact notDone read
  case h_3 =>
    rcases readShort_eq_some read with ⟨_, -, value⟩ | ⟨-, ⟨⟩⟩ | ⟨_, ⟨⟩, other⟩
    · exact notDone value
    · exact other o rfl
  case h_4 => exact notDone read

/-- What ends the reading before the last argument asks for no run. -/
theorem readAll_ne_run (r : Reading) (args : List String) (o : Options) :
    readAll r args ≠ some (.inr (.run o)) := by
  intro read
  fun_induction readAll r args with
  | case1 => cases read
  | case2 =>
    obtain ⟨_, -, ⟨⟩⟩ := Option.map_eq_some_iff.1 read
  | case3 => cases read
  | case4 _ _ _ _ _ _ ih => exact ih read
  | case5 _ _ _ _ _ first =>
    cases read
    exact readArgument_ne_run o first
  | case6 => cases read
  | case7 _ _ _ _ _ _ _ _ ih =>
    obtain ⟨u, -, read⟩ := Option.bind_eq_some_iff.1 read
    exact ih u read
  | case8 => cases read

/-- Paths one after the other, as they are read behind two dashes. -/
theorem foldlM_paths (r : Reading) (ps : List String) :
    (ps.map Item.path).foldlM Reading.add? r = ps.foldlM Reading.addPath? r :=
  List.foldlM_map ..

/-- **Reading.** What is read of arguments are the things that they say. -/
theorem readAll_eq_some_iff {r r' : Reading} {args : List String} :
    readAll r args = some (.inl r') ↔
      ∃ items, Says args items ∧ items.foldlM Reading.add? r = some r' := by
  constructor
  · intro read
    fun_induction readAll r args with
    | case1 r =>
      cases read
      exact ⟨[], .nothing, rfl⟩
    | case2 r ps =>
      obtain ⟨_, added, ⟨⟩⟩ := Option.map_eq_some_iff.1 read
      exact ⟨_, .paths ps, by rwa [foldlM_paths]⟩
    | case3 => cases read
    | case4 r arg args _ u first ih =>
      obtain ⟨item, written, added⟩ := exists_written_of_next first
      obtain ⟨items, told, rest⟩ := ih read
      refine ⟨item :: items, .item written told, ?_⟩
      rw [List.foldlM_cons, added]
      exact rest
    | case5 => cases read
    | case6 => cases read
    | case7 r arg _ f first v args plain ih =>
      -- A flag and the argument after it say one thing together.
      obtain ⟨u, added, read⟩ := Option.bind_eq_some_iff.1 read
      obtain ⟨items, told, rest⟩ := ih u read
      refine ⟨.value f v :: items, .item (written_of_awaits first plain) told, ?_⟩
      rw [List.foldlM_cons]
      exact Option.bind_eq_some_iff.2 ⟨u, added, rest⟩
    | case8 => cases read
  · rintro ⟨items, told, added⟩
    induction told generalizing r with
    | nothing =>
      cases added
      rfl
    | @item args rest item items written _ ih =>
      rw [List.foldlM_cons] at added
      obtain ⟨u, first, added⟩ := Option.bind_eq_some_iff.1 added
      rw [readAll_append written, first]
      exact ih added
    | paths ps =>
      rw [foldlM_paths] at added
      rw [readAll, added]
      rfl

/-! ### Things that go together -/

/-- The path that is said, if it is one. -/
def Item.path? : Item → Option String
  | .path p => some p
  | _ => none

/-- The flag of which the value is said, if it is one, and the value. -/
def Item.value? : Item → Option (Flag × String)
  | .value f v => some (f, v)
  | _ => none

/-- The paths among things that are said. -/
def pathsOf (items : List Item) : List String :=
  items.filterMap Item.path?

/-- The values of flags among things that are said. -/
def valuesOf (items : List Item) : List (Flag × String) :=
  items.filterMap Item.value?

/-- Two paths at most, none of them empty, and nothing else twice; the values are acceptable. -/
structure Proper (items : List Item) : Prop where
  paths : (pathsOf items).length ≤ 2
  nonempty : "" ∉ pathsOf items
  once : ((valuesOf items).map Prod.fst).Nodup
  accepted : ∀ v ∈ valuesOf items, v.1.accepts v.2
  clock : items.count .systemClock ≤ 1

/-- The reading of things that are said. -/
def readingOf (items : List Item) : Reading :=
  ⟨pathsOf items, valuesOf items, decide (Item.systemClock ∈ items)⟩

/-- A flag has a value once it has been read. -/
theorem Reading.isSome_get? (r : Reading) (f : Flag) :
    (r.get? f).isSome ↔ f ∈ r.values.map Prod.fst := by
  simp [get?, List.find?_isSome]

/-- What is said first is proper by itself. -/
theorem Proper.of_append {items more : List Item} (proper : Proper (items ++ more)) :
    Proper items := by
  obtain ⟨paths, nonempty, once, accepted, clock⟩ := proper
  simp only [pathsOf, valuesOf, List.filterMap_append, List.length_append, List.mem_append, not_or,
    List.map_append, List.count_append] at paths nonempty once accepted clock
  exact ⟨Nat.le_of_add_right_le paths, nonempty.1, (List.nodup_append.1 once).1,
    fun v hv => accepted v (.inl hv), Nat.le_of_add_right_le clock⟩

section

variable (items : List Item)

@[simp] theorem pathsOf_append (more : List Item) :
    pathsOf (items ++ more) = pathsOf items ++ pathsOf more :=
  List.filterMap_append

@[simp] theorem valuesOf_append (more : List Item) :
    valuesOf (items ++ more) = valuesOf items ++ valuesOf more :=
  List.filterMap_append

/-- One more path may be said if there is room for it and it is not empty. -/
theorem proper_path {items : List Item} (proper : Proper items) (p : String) :
    Proper (items ++ [.path p]) ↔ p ≠ "" ∧ (pathsOf items).length < 2 := by
  have paths : pathsOf [.path p] = [p] := rfl
  have values : valuesOf [.path p] = [] := rfl
  constructor
  · rintro ⟨few, nonempty, -, -, -⟩
    simp only [pathsOf_append, paths, List.length_append, List.length_singleton, List.mem_append,
      List.mem_singleton, not_or] at few nonempty
    exact ⟨Ne.symm nonempty.2, few⟩
  · rintro ⟨nonempty, few⟩
    refine ⟨?_, ?_, ?_, ?_, ?_⟩
    · simpa [paths] using Nat.le_of_lt_succ few
    · simpa [paths, proper.nonempty] using nonempty.symm
    · simpa [values] using proper.once
    · simpa [values] using proper.accepted
    · simpa using proper.clock

/-- One more value may be said if its flag has none, and accepts it. -/
theorem proper_value {items : List Item} (proper : Proper items) (f : Flag) (v : String) :
    Proper (items ++ [.value f v]) ↔ f ∉ (valuesOf items).map Prod.fst ∧ f.accepts v := by
  have paths : pathsOf [.value f v] = [] := rfl
  have values : valuesOf [.value f v] = [(f, v)] := rfl
  constructor
  · rintro ⟨-, -, once, accepted, -⟩
    simp only [valuesOf_append, values, List.map_append, List.map_cons, List.map_nil] at once
    refine ⟨fun twice => ?_, accepted (f, v) (by simp [values])⟩
    exact (List.nodup_append.1 once).2.2 f twice f (by simp) rfl
  -- What was proper before stays so; the new value adds its flag and nothing else.
  · rintro ⟨fresh, accepted⟩
    refine ⟨?_, ?_, ?_, ?_, ?_⟩
    · simpa [paths] using proper.paths
    · simpa [paths] using proper.nonempty
    · simp only [valuesOf_append, values, List.map_append, List.map_cons, List.map_nil]
      exact proper.once.append (by simp) (by simpa using fresh)
    · intro w hw
      rw [valuesOf_append, values, List.mem_append, List.mem_singleton] at hw
      rcases hw with hw | rfl
      · exact proper.accepted w hw
      · exact accepted
    · simpa using proper.clock

/-- The system's clock may be asked for once. -/
theorem proper_systemClock {items : List Item} (proper : Proper items) :
    Proper (items ++ [.systemClock]) ↔ Item.systemClock ∉ items := by
  have paths : pathsOf [.systemClock] = [] := rfl
  have values : valuesOf [.systemClock] = [] := rfl
  constructor
  · rintro ⟨-, -, -, -, clock⟩
    rw [List.count_append, List.count_singleton_self] at clock
    exact List.count_eq_zero.1 (by omega)
  · intro fresh
    refine ⟨?_, ?_, ?_, ?_, ?_⟩
    · simpa [paths] using proper.paths
    · simpa [paths] using proper.nonempty
    · simpa [values] using proper.once
    · simpa [values] using proper.accepted
    · simp [List.count_eq_zero.2 fresh]

end

theorem ite_none_eq_some_iff {α : Type} {p : Prop} [Decidable p] {a b : α} :
    (if p then none else some a) = some b ↔ ¬ p ∧ b = a := by
  by_cases h : p <;> simp [h, eq_comm]

/-- One more thing is accepted if it goes together with those that have been said. -/
theorem add?_readingOf {items : List Item} (proper : Proper items) (item : Item) {r : Reading} :
    (readingOf items).add? item = some r ↔
      Proper (items ++ [item]) ∧ r = readingOf (items ++ [item]) := by
  -- The reading of what was said is extended by the one thing, and checked for just that.
  cases item with
  | path p =>
    have reading : readingOf (items ++ [.path p]) =
        { readingOf items with paths := pathsOf items ++ [p] } := by
      simp [readingOf, pathsOf, valuesOf, Item.path?, Item.value?]
    rw [proper_path proper, reading, Reading.add?, Reading.addPath?, ite_none_eq_some_iff]
    refine and_congr_left' ?_
    rw [Bool.or_eq_true, decide_eq_true_eq, not_or, Nat.not_le, String.isEmpty_iff]
    rfl
  | value f v =>
    have reading : readingOf (items ++ [.value f v]) =
        { readingOf items with values := valuesOf items ++ [(f, v)] } := by
      simp [readingOf, pathsOf, valuesOf, Item.path?, Item.value?]
    have given := Reading.isSome_get? (readingOf items) f
    rw [proper_value proper, reading, Reading.add?, Reading.addValue?, ite_none_eq_some_iff]
    refine and_congr_left' ?_
    rw [Bool.or_eq_true, given, Bool.not_eq_true', not_or, Bool.not_eq_false]
    rfl
  | systemClock =>
    have reading : readingOf (items ++ [.systemClock]) =
        { readingOf items with systemClock := true } := by
      simp [readingOf, pathsOf, valuesOf, Item.path?, Item.value?]
    rw [proper_systemClock proper, reading, Reading.add?, Reading.useSystemClock?,
      ite_none_eq_some_iff]
    refine and_congr_left' ?_
    simp [readingOf]

/-- What is read of things one after another are all of them, if they go together. -/
theorem foldlM_add?_eq_some_iff {items : List Item} {r : Reading} :
    items.foldlM Reading.add? .empty = some r ↔ Proper items ∧ r = readingOf items := by
  -- By induction from the end, as each thing is checked against those said before it.
  induction items using List.reverseRecOn generalizing r with
  | nil =>
    have proper : Proper [] := ⟨by simp [pathsOf], by simp [pathsOf], by simp [valuesOf],
      by simp [valuesOf], by simp⟩
    have reading : readingOf [] = .empty := rfl
    simp [proper, reading, eq_comm]
  | append_singleton items item ih =>
    rw [List.foldlM_append]
    constructor
    · intro added
      obtain ⟨u, before, last⟩ := Option.bind_eq_some_iff.1 added
      obtain ⟨proper, rfl⟩ := ih.1 before
      exact (add?_readingOf proper item).1 (by simpa using last)
    · intro both
      have proper := both.1.of_append
      have last := (add?_readingOf proper item).2 both
      rw [ih.2 ⟨proper, rfl⟩]
      simpa using last

/-! ### Options -/

/-- The value of a flag among things that are said. -/
def valueIn (items : List Item) (f : Flag) : Option String :=
  (readingOf items).get? f

/-- The value of a setting: the one of its flag, or else the one of its variable in the environment,
if it has any. -/
def settled (env : String → Option String) (items : List Item) (f : Flag) : Option String :=
  valueIn items f <|> f.variable?.bind env

/-- Options are what is asked for in some environment by things that are said. -/
structure Options.Answers (o : Options) (env : String → Option String) (items : List Item) :
    Prop where
  paths : pathsOf items = [o.plain, o.instrumented]
  accepted : ∀ f v, settled env items f = some v → f.accepts v
  config : o.config = settled env items .config
  repetitions : o.repetitions = (settled env items .repetitions).bind repetitions?
  threshold : o.threshold = (settled env items .threshold).bind threshold?
  eventId : o.eventId = settled env items .eventId
  payload : o.payload = settled env items .payload
  header : o.header = settled env items .header
  systemClock : o.systemClock = decide (Item.systemClock ∈ items)

/-- The values of flags are those that are said. -/
theorem mem_valuesOf {items : List Item} {f : Flag} {v : String} :
    (f, v) ∈ valuesOf items ↔ Item.value f v ∈ items := by
  rw [valuesOf, List.mem_filterMap]
  constructor
  · rintro ⟨item, member, same⟩
    cases item with
    | value g w =>
      cases same
      exact member
    | path => cases same
    | systemClock => cases same
  · exact fun member => ⟨_, member, rfl⟩

/-- The value of a flag is the one that is said of it. -/
theorem valueIn_eq_some_iff {items : List Item} (proper : Proper items) {f : Flag} {v : String} :
    valueIn items f = some v ↔ Item.value f v ∈ items := by
  rw [← mem_valuesOf]
  constructor
  · intro given
    obtain ⟨⟨g, w⟩, found, rfl⟩ := Option.map_eq_some_iff.1 given
    have named : g = f := by simpa using List.find?_some found
    exact named ▸ List.mem_of_find?_eq_some found
  · intro member
    have given : (valueIn items f).isSome := by
      rw [valueIn, Reading.isSome_get?]
      exact List.mem_map_of_mem member
    obtain ⟨w, given⟩ := Option.isSome_iff_exists.1 given
    obtain ⟨e, found, rfl⟩ := Option.map_eq_some_iff.1 given
    have named : e.1 = f := by simpa using List.find?_some found
    have same : e = (f, v) := List.inj_on_of_nodup_map proper.once
      (List.mem_of_find?_eq_some found) member named
    rw [given, same]

/-- A setting is read just if it is acceptable, and as what settles it. -/
theorem valueOf?_eq_some_iff {env : String → Option String} {items : List Item}
    (proper : Proper items) {f : Flag} {v : Option String} :
    valueOf? env (readingOf items) f = some v ↔
      v = settled env items f ∧ ∀ w, settled env items f = some w → f.accepts w := by
  -- What is said on the command line has been accepted when it was read; what the environment
  -- says has not.
  have said : ∀ w, valueIn items f = some w → f.accepts w := fun w given =>
    proper.accepted (f, w) (mem_valuesOf.2 ((valueIn_eq_some_iff proper).1 given))
  have read : (readingOf items).get? f = valueIn items f := rfl
  simp only [valueOf?, settled, read]
  cases given : valueIn items f with
  | some w =>
    constructor
    · rintro ⟨⟩
      refine ⟨rfl, ?_⟩
      rintro _ ⟨⟩
      exact said w given
    · rintro ⟨rfl, -⟩
      rfl
  | none =>
    cases set : f.variable?.bind env with
    | none =>
      constructor
      · rintro ⟨⟩
        refine ⟨rfl, ?_⟩
        rintro _ ⟨⟩
      · rintro ⟨rfl, -⟩
        rfl
    | some w =>
      constructor
      · intro same
        by_cases accepted : f.accepts w
        · simp only [if_pos accepted, Option.some.injEq] at same
          refine ⟨same.symm, ?_⟩
          rintro _ ⟨⟩
          exact accepted
        · simp [accepted] at same
      · rintro ⟨rfl, accepted⟩
        simp only [if_pos (accepted w rfl)]
        rfl

/-- Options are read just if they are what is asked for. -/
theorem optionsOf?_eq_some_iff {env : String → Option String} {items : List Item}
    (proper : Proper items) {o : Options} :
    optionsOf? env (readingOf items) = some o ↔ o.Answers env items := by
  have paths : (readingOf items).paths = pathsOf items := rfl
  constructor
  · intro asked
    unfold optionsOf? at asked
    split at asked
    case h_2 => cases asked
    case h_1 plain instrumented two =>
      simp only [Option.bind_eq_bind, Option.bind_eq_some_iff, valueOf?_eq_some_iff proper,
        Option.pure_def, Option.some.injEq] at asked
      obtain ⟨_, ⟨rfl, config⟩, _, ⟨rfl, repetitions⟩, _, ⟨rfl, threshold⟩, _, ⟨rfl, eventId⟩, _,
        ⟨rfl, payload⟩, _, ⟨rfl, header⟩, rfl⟩ := asked
      refine ⟨two, ?_, rfl, rfl, rfl, rfl, rfl, rfl, rfl⟩
      -- Each of the six values has been accepted, wherever it comes from.
      intro f
      cases f with
      | config => exact config
      | repetitions => exact repetitions
      | threshold => exact threshold
      | eventId => exact eventId
      | payload => exact payload
      | header => exact header
  · intro answers
    obtain ⟨two, accepted, config, repetitions, threshold, eventId, payload, header, clock⟩ :=
      answers
    have value : ∀ f, valueOf? env (readingOf items) f = some (settled env items f) := fun f =>
      (valueOf?_eq_some_iff proper).2 ⟨rfl, accepted f⟩
    have read : (readingOf items).systemClock = decide (Item.systemClock ∈ items) := rfl
    unfold optionsOf?
    simp only [paths, two, value, Option.bind_eq_bind, Option.bind_some, Option.pure_def, read,
      ← config, ← repetitions, ← threshold, ← eventId, ← payload, ← header, ← clock]

/-- **Parsing.** A command line asks for a run with some options exactly if it says things that go
together and ask for these. -/
theorem parse_eq_run_iff {args : List String} {env : String → Option String} {o : Options} :
    parse args env = some (.run o) ↔
      ∃ items, Says args items ∧ Proper items ∧ o.Answers env items := by
  constructor
  · intro parsed
    obtain ⟨read, reads, asked⟩ := Option.bind_eq_some_iff.1 parsed
    cases read with
    | inr request =>
      cases asked
      exact absurd reads (readAll_ne_run _ _ o)
    | inl r =>
      obtain ⟨items, told, added⟩ := readAll_eq_some_iff.1 reads
      obtain ⟨proper, rfl⟩ := foldlM_add?_eq_some_iff.1 added
      obtain ⟨u, made, same⟩ := Option.bind_eq_some_iff.1 asked
      cases same
      exact ⟨items, told, proper, (optionsOf?_eq_some_iff proper).1 made⟩
  -- Conversely, what was said is read in the same three passes.
  · rintro ⟨items, told, proper, answers⟩
    have reads := readAll_eq_some_iff.2
      ⟨items, told, foldlM_add?_eq_some_iff.2 ⟨proper, rfl⟩⟩
    rw [parse, reads]
    simp [(optionsOf?_eq_some_iff proper).2 answers]

/-- What is read of arguments is what they say, if it goes together. -/
theorem readAll_of_told {args : List String} {items : List Item} (told : Says args items)
    (r : Reading) : readAll r args = (items.foldlM Reading.add? r).map .inl := by
  induction told generalizing r with
  | nothing => rfl
  | @item args rest item items written _ ih =>
    rw [readAll_append written, List.foldlM_cons]
    cases r.add? item with
    | none => rfl
    | some u => exact ih u
  | paths ps =>
    rw [foldlM_paths]
    rfl

/-- Whatever things the arguments of a run say, they go together and ask for its options. -/
theorem answers_of_told {args : List String} {env : String → Option String} {o : Options}
    (parsed : parse args env = some (.run o)) {items : List Item} (told : Says args items) :
    Proper items ∧ o.Answers env items := by
  obtain ⟨read, reads, asked⟩ := Option.bind_eq_some_iff.1 parsed
  rw [readAll_of_told told] at reads
  obtain ⟨r, added, rfl⟩ := Option.map_eq_some_iff.1 reads
  obtain ⟨proper, rfl⟩ := foldlM_add?_eq_some_iff.1 added
  obtain ⟨u, made, same⟩ := Option.bind_eq_some_iff.1 asked
  cases same
  exact ⟨proper, (optionsOf?_eq_some_iff proper).1 made⟩

/-! ### Other orders -/

section

variable {env : String → Option String} {items items' : List Item}

/-- In another order, too, things are proper. -/
theorem Proper.perm (proper : Proper items) (perm : items'.Perm items)
    (paths : pathsOf items' = pathsOf items) : Proper items' := by
  have values : (valuesOf items').Perm (valuesOf items) := perm.filterMap _
  refine ⟨?_, ?_, ?_, ?_, ?_⟩
  · rw [paths]
    exact proper.paths
  · rw [paths]
    exact proper.nonempty
  · exact (values.map Prod.fst).nodup_iff.2 proper.once
  · exact fun v hv => proper.accepted v (values.mem_iff.1 hv)
  · rw [perm.count_eq]
    exact proper.clock

/-- The value of a flag does not depend on where it is said. -/
theorem valueIn_congr (proper : Proper items) (proper' : Proper items') {f : Flag}
    (same : ∀ v, Item.value f v ∈ items' ↔ Item.value f v ∈ items) :
    valueIn items' f = valueIn items f := by
  ext v
  rw [valueIn_eq_some_iff proper', valueIn_eq_some_iff proper, same]

/-- The order in which values are said settles nothing. -/
theorem settled_congr (proper : Proper items) (proper' : Proper items') {f : Flag}
    (same : ∀ v, Item.value f v ∈ items' ↔ Item.value f v ∈ items) :
    settled env items' f = settled env items f := by
  rw [settled, settled, valueIn_congr proper proper' same]

end

end Embedder.CommandLine
