import Embedder.Proofs.Host.Handover
import Embedder.Proofs.Session.Globals

namespace Embedder

open Session (Answer Passes Slots Step empty hookedPrinter runWith stepWith)

/-!
# Events over a session

A runner that is made with an event hands it over to its guest, as often as it is run and whatever
happens to the session meanwhile.

* `yields_createRunner`: the step that makes a runner.
* `Session.Provides`, `Session.provides_of_passes`: what becomes of events, and that this is always so.
-/

/-- In a session, what is made with an event hands it over to its guests. -/
structure Session.Provides [Engine] (printer : Printer Slots) (s : Session) : Prop where
  /-- A step that makes a runner names it. Whatever the session passes through after that, the runs of
  the runner hand over the event that it was made with, and so do those that hooks ask for while calls
  are in flight. -/
  runners : ∀ name into bytecode eventId payload config execStack shown t,
    stepWith printer (.runtime name (.createRunner into bytecode eventId payload config execStack)) s =
      (.result (.ok shown), t) →
    ∃ id, t.app.names.get? ⟨.runner, into⟩ = some id ∧ ∀ u, Passes printer t u →
      Host.HandsOver printer u id (eventId, payload) ∧
      ∀ environment name args results (entry : Entry u environment name args results) w,
        entry.Meanwhile w → Host.HandsOver Host.emit w id (eventId, payload)
  /-- So do the runs of a benchmark, with the event of its settings. -/
  benchmarks : ∀ name x b t bytecode id u outcomes v,
    s.app.names.get? ⟨.runtime, name⟩ = some x.runtime →
    BringsUp printer x (s.retain .runtime x.runtime) b t →
      exec (Build.bringUp printer x bytecode) t = (.ok id, u) →
        Trail (fun h outcome t => b.Runs printer (Build.bench x id) h (.ok outcome) t) u outcomes v →
          Host.HandsOver printer (b.announce printer x.settings.commons v) id
            (Bytes.ofText x.run.eventId, Bytes.ofText x.run.eventPayload)

section

variable [Engine] [HookRule] {printer : Printer Slots} {s : Session} {g : Pending}

/-- **Runners.** A step that makes a runner names it, and the runner carries the event. -/
theorem yields_createRunner (traced : Traced (fun _ => True) printer)
    (cellular : Config.Cellular (⟨s, g⟩ : Config Slots)) (bounded : Config.Bounded (⟨s, g⟩ : Config Slots))
    (name into : String) (bytecode eventId payload : Bytes) (config : ModuleConfig) (execStack : Nat) :
    Yields (Session.act printer
        (.runtime name (.createRunner into bytecode eventId payload config execStack))) s
      (fun answer t => (∃ error, answer = .result (.error error)) ∨
        ∃ id, t.app.names.get? ⟨.runner, into⟩ = some id ∧
          Config.Endowed (⟨t, g⟩ : Config Slots) id (eventId, payload))
      fun _ => True := by
  simp only [Session.act, Session.actOnRuntime, SessionM.holding, yields_bind_iff, yields_find,
    yields_modify, yields_lift, yields_ofOption]
  refine ⟨fun rt named => ?_, fun _ => trivial⟩
  have retained : Leads (fun _ => True) ⟨s, g⟩ ⟨s.retain .runtime rt, g.pin .runtime rt⟩ :=
    leads_retain named rfl
  have ended := ends_createRunner_endowed traced rt bytecode eventId payload config execStack
    (retained.cellular cellular) (retained.bounded cellular.sound bounded)
  -- The runtime has a further holder while the runner is made, so this is where it is made from.
  have created : Yields (SessionM.create .runner into
        (HostM.createRunner printer rt bytecode eventId payload config execStack) Session.noView)
      (s.retain .runtime rt)
      (fun answer t => (∃ error, answer = .result (.error error)) ∨
        ∃ id, t.app.names.get? ⟨.runner, into⟩ = some id ∧
          Config.Endowed (⟨t, g.pin .runtime rt⟩ : Config Slots) id (eventId, payload))
      fun _ => True := by
    simp only [SessionM.create, yields_bind_iff, yields_host]
    unfold Ends at ended
    generalize exec (HostM.createRunner printer rt bytecode eventId payload config execStack)
      (s.retain .runtime rt) = r at ended ⊢
    obtain ⟨error | id, t⟩ := r
    · exact .inl ⟨error, rfl⟩
    · have put : Leads (fun _ => True) ⟨t, (g.pin .runtime rt).pin .runner id⟩
          ⟨Session.put t ⟨.runner, into⟩ id, g.pin .runtime rt⟩ := leads_put ⟨.runner, into⟩ id trivial
      refine .inr ⟨id, ?_, put.endowed ended⟩
      rw [Session.app_put]
      exact Table.get?_set_self _ _ _
  unfold Yields at created
  refine ⟨fun answer answered => ?_, fun _ => trivial⟩
  generalize (SessionM.create .runner into
    (HostM.createRunner printer rt bytecode eventId payload config execStack)
    Session.noView).run.run (s.retain .runtime rt) = r at created answered ⊢
  obtain ⟨_ | answer', t⟩ := r
  · cases answered
  cases answered
  rcases created with failed | ⟨id, known, endowed⟩
  · exact .inl failed
  · have released : Leads (fun _ => True) ⟨t, g.pin .runtime rt⟩ ⟨Session.release t .runtime rt, g⟩ :=
      leads_release .runtime rt
    refine .inr ⟨id, ?_, released.endowed endowed⟩
    show (Session.release t .runtime rt).app.names.get? _ = _
    rw [Session.app_release]
    exact known

/-- Where a session is in order, what is made with an event hands it over. -/
theorem provides_of_cellular (any : ∀ hook, HookRule.admits hook)
    (traced : Traced (fun _ => True) printer) (cellular : Config.Cellular (⟨s, g⟩ : Config Slots))
    (bounded : Config.Bounded (⟨s, g⟩ : Config Slots)) : s.Provides printer where
  runners := by
    intro name into bytecode eventId payload config execStack shown t made
    have yields := stepWith_of_yields
      (P := fun answer t => (∃ shown, answer = .result (.ok shown)) →
        ∃ id, t.app.names.get? ⟨.runner, into⟩ = some id ∧
          Config.Endowed (⟨t, g⟩ : Config Slots) id (eventId, payload))
      ((yields_createRunner traced cellular bounded name into bytecode eventId payload config
        execStack).mono (fun answer t either => ?_) fun _ => id) ?_
    · rw [made] at yields
      -- What the runner is endowed with stays with it, in every later session and inside its
      -- calls.
      obtain ⟨id, named, endowed⟩ := yields ⟨shown, rfl⟩
      refine ⟨id, named, fun u passes => ?_⟩
      obtain ⟨g', -, -, lead⟩ := passes.leads any (g := g) traced
      have endowed' := lead.endowed endowed
      refine ⟨endowed'.handsOver traced, ?_⟩
      intro environment name args results entry w meanwhile
      obtain ⟨g'', -, -, -, lead'⟩ := entry.leads_meanwhile any (g := g') meanwhile
      exact (lead'.endowed endowed').handsOver traced_emit
    · rintro ⟨shown, rfl⟩
      rcases either with ⟨error, failed⟩ | found
      · cases failed
      · exact found
    · rintro t - ⟨shown, absent⟩
      cases absent
  benchmarks := by
    intro name x b t bytecode id u outcomes v named brings created trail
    have retained : Leads (fun _ => True) ⟨s, g⟩
        ⟨s.retain .runtime x.runtime, g.pin .runtime x.runtime⟩ := leads_retain named rfl
    exact (retained.cellular cellular).handsOver_benchmark traced
      (retained.bounded cellular.sound bounded) brings created trail

end

namespace Session

/-- **Events.** Between any two operations of a session that starts with nothing, and for the hooks that
act while a guest runs: what is made with an event hands it over to its guests. -/
theorem provides_of_passes [Engine] {s : Session} (passes : Passes hookedPrinter empty s) :
    s.Provides hookedPrinter ∧
      ∀ environment name args results (entry : Entry s environment name args results) w,
        entry.Meanwhile w → Session.Provides Host.emit w := by
  let rule : HookRule := .any
  have any : ∀ hook, HookRule.admits hook := fun _ => trivial
  have traced : Traced (fun _ => True) hookedPrinter := traced_of_any any
  obtain ⟨g, -, -, lead⟩ := passes.leads any (g := .none) traced
  have start := cellular_empty rfl
  have bounded : Config.Bounded (⟨empty, .none⟩ : Config Slots) := by
    intro id environment e lent
    cases lent
  refine ⟨provides_of_cellular any traced (lead.cellular start) (lead.bounded start.sound bounded), ?_⟩
  intro environment name args results entry w meanwhile
  obtain ⟨g', -, -, -, lead'⟩ := entry.leads_meanwhile any (g := g) meanwhile
  have later := lead.trans lead'
  exact provides_of_cellular any traced_emit (later.cellular start) (later.bounded start.sound bounded)

/-- A program that asks how long the payload is, copies it and prints it. Its plain entry point returns
the size. -/
def telling : Bytes :=
  [0x00, 0x61, 0x73, 0x6d, 0x01, 0x00, 0x00, 0x00,
    -- two types: two numbers in, one number out; one number in
    0x01, 0x0b, 0x02, 0x60, 0x02, 0x7f, 0x7f, 0x01, 0x7f, 0x60, 0x01, 0x7f, 0x00,
    -- one function of each type is imported
    0x02, 0x35, 0x02, 0x03] ++ Bytes.ofText nativeSpace ++
    [0x19] ++ Bytes.ofText "sandbox_get_event_payload" ++ [0x00, 0x00,
    0x03] ++ Bytes.ofText nativeSpace ++ [0x0d] ++ Bytes.ofText "sandbox_print" ++ [0x00, 0x01,
    -- one function of the first type, and a memory of one page
    0x03, 0x02, 0x01, 0x00, 0x05, 0x03, 0x01, 0x00, 0x01,
    -- both are exported
    0x07, 0x19, 0x02, 0x06] ++ Bytes.ofText memoryExport ++ [0x02, 0x00,
    0x0c] ++ Bytes.ofText plainMain ++ [0x00, 0x02,
    -- its code: the copy to address 8 with no room, the copy with as much room as needed, the print
    0x0a, 0x12, 0x01, 0x10, 0x00, 0x41, 0x08, 0x41, 0x08, 0x41, 0x00, 0x10, 0x00, 0x10, 0x00,
    0x41, 0x08, 0x10, 0x01, 0x0b]

/-- A runtime. -/
def hosting : List Step :=
  [.createRuntime "rt" {} [.all] [] none []]

/-- A runner of the program is made. -/
def endowing : Step :=
  .runtime "rt" (.createRunner "r" telling [] (Bytes.ofText "hi") ⟨1, 0⟩ 1)

theorem provides_hosting : Passes hookedPrinter empty (runWith hookedPrinter hosting empty).2 ∧
    (runWith hookedPrinter hosting empty).2.Provides hookedPrinter ∧
    (stepWith hookedPrinter endowing (runWith hookedPrinter hosting empty).2).1 matches
      .result (.ok .nothing) :=
  ⟨passes_runWith _ .here hosting, (provides_of_passes (passes_runWith _ .here hosting)).1,
    by decide +kernel⟩

/-- The payload has two bytes, so that its size is three, and these two bytes are printed. -/
example : ((runWith hookedPrinter (hosting ++ [endowing, .runtime "rt" .clearOutput,
      .runner "r" .runPlain, .runtime "rt" .output]) empty).1.drop 3).map (fun
    | .result (.ok (.outcome outcome)) => some (Sum.inl outcome)
    | .plain (.output bytes) => some (Sum.inr bytes)
    | _ => none) =
      [some (Sum.inl (.returned 3)), some (Sum.inr (Bytes.ofText "\n\nRunning plain wasm...\nhi"))] := by
  decide +kernel

end Session

end Embedder
