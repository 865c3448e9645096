import Embedder.Proofs.Config.Toml.Tables

namespace Embedder.Toml

/-!
# Which documents in TOML are accepted

A document is valid when each header comes once, the keys of a part lead to different places, and no
header leads through what an entry has made. Every valid document is accepted, whatever the order of
its sections: that the later ones can still be opened and filled is preserved by each.

* `Entries.Free`: a key can be put in.
* `Entries.Opens`: a header can be opened, and keys put into its table.
* `Document.Valid`, `Document.Valid.exists_entries?`: whole documents.
* `Document.Reordered`, `Document.Reordered.valid`: documents in another order.
-/

/-- Neither of two keys leads to the other one. -/
def Apart (key key' : List String) : Prop :=
  ¬ key <+: key' ∧ ¬ key' <+: key

/-- Keys that begin alike are apart just if they are so afterwards. -/
theorem apart_cons {k : String} {key key' : List String} :
    Apart (k :: key) (k :: key') ↔ Apart key key' := by
  simp [Apart, List.cons_prefix_cons]

namespace Entries

/-! ### Entries -/

/-- A value can be put under a key. -/
def Free (t : Entries) : (key : List String) → Prop
  | [] => False
  | [k] => t.get? k = none
  | p :: q :: key =>
    t.get? p = none ∨ ∃ inner, t.get? p = some (.table .dottedKey inner) ∧ Free inner (q :: key)

/-- A key is free where its first part is. -/
theorem free_of_absent {t : Entries} {k : String} (absent : t.get? k = none) (key : List String) :
    t.Free (k :: key) := by
  cases key with
  | nil => exact absent
  | cons q key => exact .inl absent

/-- Whether a key is free depends on what is under its first part. -/
theorem Free.of_get?_eq {t t' : Entries} {k : String} (same : t'.get? k = t.get? k)
    {key : List String} (free : t.Free (k :: key)) : t'.Free (k :: key) := by
  cases key with
  | nil => exact same.trans free
  | cons q key => simpa only [Free, same] using free

/-- A key is free in a table if its first part is, or leads to a table in which the rest is. -/
theorem free_cons {t : Entries} {p : String} {key : List String} (nonempty : key ≠ []) :
    t.Free (p :: key) ↔
      t.get? p = none ∨ ∃ inner, t.get? p = some (.table .dottedKey inner) ∧ Free inner key := by
  cases key with
  | nil => exact absurd rfl nonempty
  | cons q key => rfl

/-- Keys remain free with what is done inside the table under a name, as long as those do that begin
with the name. -/
theorem Free.of_inner {t t' inner inner' : Entries} {p : String} {path : List String}
    (found : t'.get? p = some (.table .dottedKey inner')) (others : ∀ q, q ≠ p → t'.get? q = t.get? q)
    (before : ∀ key, key ≠ [] → t.Free (p :: key) → inner.Free key)
    (after : ∀ key, Apart key path → inner.Free key → inner'.Free key)
    (key : List String) (apart : Apart key (p :: path)) (free : t.Free key) : t'.Free key := by
  cases key with
  | nil => exact free
  | cons q key =>
    by_cases same : q = p
    · subst same
      have nonempty : key ≠ [] := by
        rintro rfl
        exact apart.1 (by simp)
      rw [free_cons nonempty]
      exact .inr ⟨inner', found, after key (apart_cons.1 apart) (before key nonempty free)⟩
    · exact free.of_get?_eq (others q same)

/-- Under a free key a value is put, and the keys that lead elsewhere remain free. -/
theorem Free.insert? {t : Entries} {path : List String} {k : String}
    (free : t.Free (path ++ [k])) (n : Node) : ∃ t', t.insert? path k n = some t' ∧
      ∀ key, Apart key (path ++ [k]) → t.Free key → t'.Free key := by
  -- By induction on the tables of the key: each is new, or it was begun by a key before.
  induction path generalizing t with
  | nil =>
    have absent : t.get? k = none := free
    refine ⟨t ++ [(k, .value n)], by simp [Entries.insert?, add?, absent], fun key apart free => ?_⟩
    cases key with
    | nil => exact free
    | cons q key =>
      have other : k ≠ q := by
        rintro rfl
        exact apart.2 (by simp)
      exact free.of_get?_eq (by simp [get?_append_singleton, other])
  | cons p path ih =>
    rw [List.cons_append, free_cons (by simp)] at free
    rcases free with absent | ⟨inner, found, free⟩
    · have new : Free [] (path ++ [k]) := by
        cases path <;> exact free_of_absent rfl _
      obtain ⟨inner', inserted, after⟩ := ih new
      refine ⟨t ++ [(p, .table .dottedKey inner')],
        by simp [Entries.insert?, absent, inserted], Free.of_inner ?_ ?_ ?_ after⟩
      · simp [get?_append_singleton, absent]
      · exact fun q other => by simp [get?_append_singleton, Ne.symm other]
      · intro key nonempty _
        cases key with
        | nil => exact absurd rfl nonempty
        | cons q key => exact free_of_absent rfl key
    · obtain ⟨inner', inserted, after⟩ := ih free
      refine ⟨t.replace p (.table .dottedKey inner'),
        by simp [Entries.insert?, found, mayExtend, inserted], Free.of_inner ?_ ?_ ?_ after⟩
      · simp [get?_replace, found]
      · exact fun q other => by simp [get?_replace, other]
      · intro key nonempty free
        rw [free_cons nonempty] at free
        rcases free with absent | ⟨inner, same, free⟩
        · cases found.symm.trans absent
        · cases found.symm.trans same
          exact free

/-- Free keys that lead to different places can all be given. -/
theorem exists_fill? {t : Entries} {es : List (List String × Node)} (free : ∀ e ∈ es, t.Free e.1)
    (apart : (es.map Prod.fst).Pairwise Apart) (narrow : ∀ e ∈ es, isNarrow e.2) :
    ∃ t', t.fill? es = some t' := by
  induction es generalizing t with
  | nil => exact ⟨t, rfl⟩
  | cons e es ih =>
    obtain ⟨key, n⟩ := e
    have first := free (key, n) (by simp)
    rcases List.eq_nil_or_concat key with rfl | ⟨path, k, rfl⟩
    · exact first.elim
    · obtain ⟨others, apart⟩ := List.pairwise_cons.1 apart
      obtain ⟨u, inserted, remain⟩ := Free.insert? (by simpa using first) n
      have put : t.put? (path.concat k, n) = some u := by
        simpa [put?, narrow (path.concat k, n) (by simp)] using inserted
      -- The other keys are still free, as they lead elsewhere.
      have rest : ∃ t', u.fill? es = some t' := by
        refine ih (fun e mem => remain e.1 ?_ (free e (List.mem_cons_of_mem _ mem))) apart
          fun e mem => narrow e (List.mem_cons_of_mem _ mem)
        have differ := others e.1 (List.mem_map_of_mem mem)
        rw [← List.concat_eq_append]
        exact ⟨differ.2, differ.1⟩
      obtain ⟨t', filled⟩ := rest
      exact ⟨t', by rw [fill?, List.foldlM_cons, put]; exact filled⟩

/-- Entries change only what is under the first part of a key. -/
theorem fill?_apart {t t' : Entries} {es : List (List String × Node)} (proper : t.Proper)
    (filled : t.fill? es = some t') {q : String} (other : ∀ e ∈ es, q ∉ e.1.head?) :
    t'.get? q = t.get? q := by
  induction es generalizing t with
  | nil => cases filled; rfl
  | cons e es ih =>
    obtain ⟨u, put, filled⟩ := Option.bind_eq_some_iff.1 filled
    rw [ih (put?_filled proper put).gains.proper filled
      fun e mem => other e (List.mem_cons_of_mem _ mem)]
    have differs := other e (by simp)
    rw [put?] at put
    split at put
    next =>
      obtain ⟨k, last, inserted⟩ := Option.bind_eq_some_iff.1 put
      rw [← List.dropLast_append_getLast? k last] at differs
      generalize e.1.dropLast = path at inserted differs
      -- The entry goes in at the top, under another name, or into a table with another name.
      cases path with
      | nil =>
        rw [Entries.insert?, add?] at inserted
        split at inserted
        next => cases inserted
        next =>
          have different : k ≠ q := by simpa using differs
          cases inserted
          simp [get?_append_singleton, different]
      | cons p path =>
        have different : p ≠ q := by simpa using differs
        obtain ⟨v, v', descends, -⟩ := insert?_cons proper inserted
        exact descends.apart q (Ne.symm different)
    next => cases put

/-! ### Headers -/

/-- A header can be opened, and nothing is in its table yet under some names. -/
def Opens (t : Entries) (names : List String) : (header : List String) → Prop
  | [] => False
  | [k] => ∃ u, t.begun? k = some u ∧ ∀ q ∈ names, u.get? q = none
  | p :: q :: header =>
    t.get? p = none ∨ ∃ o inner, t.get? p = some (.table o inner) ∧ Opens inner names (q :: header)

section Opens

variable {t t' : Entries} {names : List String}

/-- A header can be opened if its first part is new, or leads to a table in which the rest can. -/
theorem opens_cons {p : String} {header : List String} (nonempty : header ≠ []) :
    t.Opens names (p :: header) ↔
      t.get? p = none ∨ ∃ o inner, t.get? p = some (.table o inner) ∧ Opens inner names header := by
  cases header with
  | nil => exact absurd rfl nonempty
  | cons q header => rfl

/-- A header can be opened where there is nothing under its first part. -/
theorem opens_of_absent {k : String} (absent : t.get? k = none) (header : List String) :
    t.Opens names (k :: header) := by
  cases header with
  | nil => exact ⟨[], by simp [begun?, absent], fun _ _ => rfl⟩
  | cons q header => exact .inl absent

/-- In no entries, every header can be opened. -/
theorem opens_nil {header : List String} (nonempty : header ≠ []) : Opens [] names header := by
  cases header with
  | nil => exact absurd rfl nonempty
  | cons k header => exact opens_of_absent rfl header

/-- Whether a header can be opened depends on what is under its first part. -/
theorem Opens.of_get?_eq {k : String} (same : t'.get? k = t.get? k) {header : List String}
    (opens : t.Opens names (k :: header)) : t'.Opens names (k :: header) := by
  cases header with
  | nil => simpa only [Opens, begun?, same] using opens
  | cons q header => simpa only [Opens, same] using opens

/-- A header that can be opened can be filled, if what may be in its table can be. -/
theorem Opens.exists_within? {path : List String} {k : String} {es : List (List String × Node)}
    (opens : t.Opens names (path ++ [k]))
    (fills : ∀ u : Entries, (∀ q ∈ names, u.get? q = none) → ∃ u', u.fill? es = some u') :
    ∃ t', t.within? path (fun u => u.setTable? k es) = some t' := by
  induction path generalizing t with
  | nil =>
    obtain ⟨u, begun, empty⟩ := opens
    obtain ⟨u', filled⟩ := fills u empty
    exact ⟨t.erase k ++ [(k, .table .header u')], by simp [within?, setTable?, begun, filled]⟩
  | cons p path ih =>
    rw [List.cons_append, opens_cons (by simp)] at opens
    rcases opens with absent | ⟨o, inner, found, opens⟩
    · obtain ⟨inner', changed⟩ := ih (opens_nil (by simp))
      exact ⟨t ++ [(p, .table .deeperHeader inner')], by simp [within?, absent, changed]⟩
    · obtain ⟨inner', changed⟩ := ih opens
      exact ⟨t.replace p (.table o inner'), by simp [within?, found, changed]⟩

/-- A header that can be opened goes on inside the table under its first part. -/
theorem Opens.of_cons {p : String} {u u' : Entries} {header : List String}
    (descends : Descends t t' p u u') (nonempty : header ≠ []) (opens : t.Opens names (p :: header)) :
    u.Opens names header := by
  rw [opens_cons nonempty] at opens
  rcases descends.before with ⟨-, rfl⟩ | ⟨o, before⟩
  · exact opens_nil nonempty
  · rcases opens with absent | ⟨o', inner, found, opens⟩
    · cases before.symm.trans absent
    · cases before.symm.trans found
      exact opens

/-- A header that can be opened inside the table under its first part can be opened. -/
theorem Opens.cons {p : String} {u u' : Entries} {header : List String}
    (descends : Descends t t' p u u') (nonempty : header ≠ []) (opens : u'.Opens names header) :
    t'.Opens names (p :: header) := by
  obtain ⟨o, found, -⟩ := descends.after
  rw [opens_cons nonempty]
  exact .inr ⟨o, u', found, opens⟩

end Opens

/-- A section changes only what is under the first part of its header. -/
theorem within?_setTable?_apart {t t' : Entries} {path : List String} {k : String}
    {es : List (List String × Node)} (proper : t.Proper)
    (changed : t.within? path (fun u => u.setTable? k es) = some t') {q : String}
    (other : q ∉ (path ++ [k]).head?) : t'.get? q = t.get? q := by
  cases path with
  | nil =>
    obtain ⟨u, u', -, -, -, descends⟩ := setTable?_eq_some changed
    exact descends.apart q (by simpa [eq_comm] using other)
  | cons p path =>
    obtain ⟨o, u, u', -, -, descends, -⟩ := within?_cons proper changed
    exact descends.apart q (by simpa [eq_comm] using other)

/-- A section leaves open the header of a table that its own header leads through: nothing that is
still to be put in there is on the way. -/
theorem Opens.within?_self {t t' : Entries} {names path : List String} {p k : String}
    {es : List (List String × Node)} (proper : t.Proper)
    (changed : t.within? (p :: path) (fun u => u.setTable? k es) = some t')
    (clear : ∀ q ∈ names, ¬ [q] <+: path ++ [k]) (opens : t.Opens names [p]) :
    t'.Opens names [p] := by
  obtain ⟨o, u, u', before, found, descends, inside⟩ := within?_cons proper changed
  obtain ⟨w, begun, empty⟩ := opens
  -- Both the header and the longer one find what headers inside it have begun.
  obtain ⟨rfl, rfl⟩ : o = .deeperHeader ∧ w = u := by
    rcases begun?_eq_some begun with ⟨absent, rfl⟩ | begun
    · rcases before with ⟨-, rfl, rfl⟩ | before
      · exact ⟨rfl, rfl⟩
      · cases before.symm.trans absent
    · rcases before with ⟨absent, -⟩ | before
      · cases begun.symm.trans absent
      · cases begun.symm.trans before
        exact ⟨rfl, rfl⟩
  refine ⟨u', by simp [begun?, found], fun q mem => ?_⟩
  rw [within?_setTable?_apart (descends.proper_inner proper) inside, empty q mem]
  intro first
  refine clear q mem ?_
  cases path with
  | nil => cases first; simp
  | cons r path => cases first; simp

/-- That a header can be opened is preserved by the section of another one: the entries of that do
not lead there, and its header does not lead through what is still to be put in. -/
theorem Opens.within? {t t' : Entries} {names header path : List String} {k : String}
    {es : List (List String × Node)} (proper : t.Proper)
    (changed : t.within? path (fun u => u.setTable? k es) = some t')
    (other : header ≠ path ++ [k])
    (clear : ∀ e ∈ es, ∀ q ∈ e.1.head?, ¬ path ++ [k] ++ [q] <+: header)
    (clear' : ∀ q ∈ names, ¬ header ++ [q] <+: path ++ [k]) (opens : t.Opens names header) :
    t'.Opens names header := by
  -- By induction on the way that the section takes; the header leaves it somewhere, or goes on
  -- behind its end.
  induction path generalizing t t' header with
  | nil =>
    obtain ⟨u, u', -, filled, -, descends⟩ := setTable?_eq_some changed
    match header with
    | [] => exact opens
    | [p] =>
      have differs : p ≠ k := by
        rintro rfl
        exact other rfl
      exact opens.of_get?_eq (descends.apart p differs)
    | p :: q :: header =>
      by_cases same : p = k
      · -- The header goes on inside the table that is filled, and no entry is on its way.
        subst same
        refine Opens.cons descends (by simp) ?_
        refine (opens.of_cons descends (by simp)).of_get?_eq ?_
        refine fill?_apart (descends.proper_inner proper) filled fun e mem first => ?_
        exact clear e mem q first (by simp)
      · exact opens.of_get?_eq (descends.apart p same)
  | cons p path ih =>
    obtain ⟨o, u, u', -, -, descends, inside⟩ := within?_cons proper changed
    match header with
    | [] => exact opens
    | q :: header =>
      by_cases same : q = p
      · subst same
        by_cases nonempty : header = []
        · subst nonempty
          exact opens.within?_self proper changed fun r mem under =>
            clear' r mem (by simpa [List.cons_prefix_cons] using under)
        · refine Opens.cons descends nonempty
            (ih (descends.proper_inner proper) inside ?_ ?_ ?_ (opens.of_cons descends nonempty))
          · rintro rfl
            exact other rfl
          · intro e mem r first under
            exact clear e mem r first (by simpa [List.cons_prefix_cons] using under)
          · intro r mem under
            exact clear' r mem (by simpa [List.cons_prefix_cons] using under)
      · exact opens.of_get?_eq (descends.apart q same)

end Entries

/-! ### Documents -/

/-- The first names of a section's keys. -/
def Section.names (s : Section) : List String :=
  s.entries.filterMap fun e => e.1.head?

/-- The names of a section are the first parts of its keys. -/
theorem Section.mem_names {s : Section} {q : String} :
    q ∈ s.names ↔ ∃ e ∈ s.entries, q ∈ e.1.head? := by
  simp [names, List.mem_filterMap]

/-- Every header comes once, the keys of a part lead to different places, no header leads through
what an entry has made, and no number has more than 64 bits. -/
structure Document.Valid (doc : Document) : Prop where
  headers : ∀ s ∈ doc.sections, s.header ≠ []
  once : (doc.sections.map Section.header).Nodup
  keys : ∀ s ∈ doc.parts, ∀ e ∈ s.entries, e.1 ≠ []
  apart : ∀ s ∈ doc.parts, (s.entries.map Prod.fst).Pairwise Apart
  clear : ∀ s ∈ doc.parts, ∀ q ∈ s.names, ∀ s' ∈ doc.sections, ¬ s.header ++ [q] <+: s'.header
  narrow : ∀ s ∈ doc.parts, ∀ e ∈ s.entries, isNarrow e.2

namespace Document.Valid

variable {doc : Document} (valid : doc.Valid)
include valid

/-- The entries of a part can be put in where nothing is under the first names of their keys. -/
theorem exists_fill? {s : Section} (mem : s ∈ doc.parts) (u : Entries)
    (empty : ∀ q ∈ s.names, u.get? q = none) : ∃ u', u.fill? s.entries = some u' := by
  refine Entries.exists_fill? (fun e inside => ?_) (valid.apart s mem) (valid.narrow s mem)
  cases first : e.1 with
  | nil => exact absurd first (valid.keys s mem e inside)
  | cons q key =>
    have named : q ∈ s.names := Section.mem_names.2 ⟨e, inside, by simp [first]⟩
    exact Entries.free_of_absent (empty q named) key

/-- Sections that can be opened at first can be read one after the other. -/
theorem exists_foldlM_section? {t : Entries} {ss : List Section} (proper : t.Proper)
    (mem : ∀ s ∈ ss, s ∈ doc.sections) (once : (ss.map Section.header).Nodup)
    (opens : ∀ s ∈ ss, t.Opens s.names s.header) :
    ∃ t', ss.foldlM Entries.section? t = some t' := by
  induction ss generalizing t with
  | nil => exact ⟨t, rfl⟩
  | cons s ss ih =>
    obtain ⟨here, mem⟩ := List.forall_mem_cons.1 mem
    obtain ⟨first, opens⟩ := List.forall_mem_cons.1 opens
    obtain ⟨others, once⟩ := List.nodup_cons.1 once
    have parts : ∀ s ∈ doc.sections, s ∈ doc.parts := fun s => List.mem_cons_of_mem _
    rcases List.eq_nil_or_concat s.header with empty | ⟨path, k, header⟩
    · exact absurd empty (valid.headers s here)
    · rw [List.concat_eq_append] at header
      have unfolded := t.section?_eq s
      rw [header, List.getLast?_concat, List.dropLast_concat, Option.bind_some] at unfolded
      rw [header] at first
      obtain ⟨u, changed⟩ := first.exists_within? (valid.exists_fill? (parts s here))
      rw [← unfolded] at changed
      -- What can be opened before a section can be opened after it, too, since headers do not
      -- repeat.
      have remain : ∀ s' ∈ ss, u.Opens s'.names s'.header := by
        intro s' later
        rw [unfolded] at changed
        refine (opens s' later).within? proper changed ?_ ?_ ?_
        · rw [← header]
          exact fun same => others (List.mem_map.2 ⟨s', later, same⟩)
        · intro e inside q named
          rw [← header]
          exact valid.clear s (parts s here) q (Section.mem_names.2 ⟨e, inside, named⟩) s'
            (mem s' later)
        · rw [← header]
          exact fun q named => valid.clear s' (parts s' (mem s' later)) q named s here
      have rest := ih (Entries.section?_enters proper changed).gains.proper mem once remain
      obtain ⟨t', read⟩ := rest
      exact ⟨t', by rw [List.foldlM_cons, changed]; exact read⟩

/-- **Validity.** A valid document is accepted. -/
theorem exists_entries? : ∃ t, doc.entries? = some t := by
  have first : ⟨[], doc.top⟩ ∈ doc.parts := List.mem_cons_self
  obtain ⟨t, filled⟩ := valid.exists_fill? first [] fun q _ => rfl
  have proper := (Entries.fill?_filled Entries.proper_nil filled).gains.proper
  have opens : ∀ s ∈ doc.sections, t.Opens s.names s.header := by
    intro s mem
    have nonempty := valid.headers s mem
    have clear := fun q named => valid.clear _ first q named s mem
    cases header : s.header with
    | nil => exact absurd header nonempty
    | cons p path =>
      have new : Entries.Opens [] s.names (p :: path) := Entries.opens_nil (by simp)
      refine new.of_get?_eq (Entries.fill?_apart Entries.proper_nil filled fun e inside named => ?_)
      refine clear p (Section.mem_names.2 ⟨e, inside, named⟩) ?_
      rw [header]
      simp
  obtain ⟨t', read⟩ := valid.exists_foldlM_section? proper (fun _ => id) valid.once opens
  exact ⟨t', by rw [Document.entries?, filled]; exact read⟩

end Document.Valid

/-! ### Other orders -/

/-- Two sections with the same header, and with the same entries in some order. -/
structure Section.Reordered (s s' : Section) : Prop where
  header : s.header = s'.header
  entries : s.entries.Perm s'.entries

/-- They do not depend on the order of its entries. -/
theorem Section.Reordered.mem_names {s s' : Section} (reordered : s.Reordered s') {q : String} :
    q ∈ s'.names ↔ q ∈ s.names :=
  (reordered.entries.filterMap _).mem_iff.symm

/-- The same document with its sections, and the entries of each part, in another order. -/
structure Document.Reordered (doc doc' : Document) : Prop where
  top : doc.top.Perm doc'.top
  sections : ∃ f : Section → Section, (∀ s : Section, s.Reordered (f s)) ∧
    (doc.sections.map f).Perm doc'.sections

namespace Document.Reordered

variable {doc doc' : Document} (reordered : doc.Reordered doc')
include reordered

/-- The headers of a reordered document are the same ones. -/
theorem headers : (doc.sections.map Section.header).Perm (doc'.sections.map Section.header) := by
  obtain ⟨f, each, perm⟩ := reordered.sections
  have same : doc.sections.map Section.header = (doc.sections.map f).map Section.header := by
    rw [List.map_map]
    exact List.map_congr_left fun s _ => (each s).header
  rw [same]
  exact perm.map _

/-- Every part comes from one with the same entries. -/
theorem exists_before {s' : Section} (part : s' ∈ doc'.parts) :
    ∃ s ∈ doc.parts, s.Reordered s' := by
  obtain ⟨f, each, perm⟩ := reordered.sections
  rcases List.mem_cons.1 part with rfl | mem
  · exact ⟨_, List.mem_cons_self, rfl, reordered.top⟩
  · obtain ⟨s, held, rfl⟩ := List.mem_map.1 (perm.mem_iff.2 mem)
    exact ⟨s, List.mem_cons_of_mem _ held, each s⟩

/-- Every part goes into one with the same entries. -/
theorem exists_after {s : Section} (part : s ∈ doc.parts) : ∃ s' ∈ doc'.parts, s.Reordered s' := by
  obtain ⟨f, each, perm⟩ := reordered.sections
  rcases List.mem_cons.1 part with rfl | mem
  · exact ⟨_, List.mem_cons_self, rfl, reordered.top⟩
  · have after := perm.mem_iff.1 (List.mem_map_of_mem mem)
    exact ⟨f s, List.mem_cons_of_mem _ after, each s⟩

/-- A reordered document reaches the same tables and keys. -/
theorem reaches_iff (path : List String) : doc'.Reaches path ↔ doc.Reaches path := by
  constructor
  · rintro ⟨s', part, along⟩
    obtain ⟨s, before, same⟩ := reordered.exists_before part
    refine ⟨s, before, along.imp (same.header ▸ ·) ?_⟩
    rintro ⟨e, mem, along⟩
    exact ⟨e, same.entries.mem_iff.2 mem, same.header ▸ along⟩
  · rintro ⟨s, part, along⟩
    obtain ⟨s', after, same⟩ := reordered.exists_after part
    refine ⟨s', after, along.imp (same.header ▸ ·) ?_⟩
    rintro ⟨e, mem, along⟩
    exact ⟨e, same.entries.mem_iff.1 mem, same.header ▸ along⟩

/-- Validity does not depend on the order. -/
theorem valid (valid : doc.Valid) : doc'.Valid where
  -- Every section comes from one of before, with the same header and the same entries.
  headers s' mem := by
    obtain ⟨s, held, same⟩ :=
      List.mem_map.1 (reordered.headers.mem_iff.2 (List.mem_map_of_mem mem))
    exact same ▸ valid.headers s held
  once := reordered.headers.nodup_iff.1 valid.once
  keys s' part e mem := by
    obtain ⟨s, before, same⟩ := reordered.exists_before part
    exact valid.keys s before e (same.entries.mem_iff.2 mem)
  apart s' part := by
    obtain ⟨s, before, same⟩ := reordered.exists_before part
    exact (valid.apart s before).perm (same.entries.map _) And.symm
  clear s' part q named t' mem := by
    obtain ⟨s, before, same⟩ := reordered.exists_before part
    obtain ⟨t, held, header⟩ :=
      List.mem_map.1 (reordered.headers.mem_iff.2 (List.mem_map_of_mem mem))
    rw [← header, ← same.header]
    exact valid.clear s before q (same.mem_names.1 named) t held
  narrow s' part e mem := by
    obtain ⟨s, before, same⟩ := reordered.exists_before part
    exact valid.narrow s before e (same.entries.mem_iff.2 mem)

end Document.Reordered

end Embedder.Toml
