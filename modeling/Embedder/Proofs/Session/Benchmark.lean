import Embedder.Proofs.Host.Report
import Embedder.Proofs.Session.Budgets
import Embedder.Proofs.Session.Exclusion

namespace Embedder

open Session (Kind Slots Step Payload Answer stepWith hookedPrinter runWith empty)

/-!
# Benchmarks of a session

A benchmark is asked of a runtime. Its report says how far it came, and when it is over, nothing that
it brought up is left.

* `Leads.runtime?_of_pinned`, `benchmarked_of_pinned`: the runtime stays, and so the benchmark is run.
* `Session.Restores`: everything has as many holders, and every budget is charged as much, as before.
* `Session.Benches`, `benches_of_passes`: what benchmarks report, and what they leave behind.
-/

/-! ### The runtime -/

section

variable {σ : Type} [Holder σ] [Rule σ] {allowed : Effect → Prop} {printer : Printer σ}
  {h h' : Host σ} {g : Pending} {id : Nat} {r : Runtime}

/-- A runtime stays while a hold on it is in hand. -/
theorem Leads.runtime?_of_pinned
    (lead : Leads allowed ⟨h, g.pin .runtime id⟩ ⟨h', g.pin .runtime id⟩)
    (ha : Config.Sound ⟨h, g.pin .runtime id⟩) (there : h.runtime? id = some r) :
    h'.runtime? id = some r := by
  have sound := lead.sound ha
  have counted : h'.holders .runtime id = Holder.holds h'.app .runtime id +
      (g.pin .runtime id).pins .runtime id + h'.inner .runtime id +
        (g.pin .runtime id).loaned .runtime id := sound.counted _ _ (by decide)
  have pinned : 0 < (g.pin .runtime id).pins .runtime id := by
    simp only [Pending.pin_pins, Holds.on, and_self, if_true]
    omega
  have has : h'.has .runtime id := (sound.has_iff (by decide)).2 (by omega)
  obtain ⟨c, hc⟩ := Option.isSome_iff_exists.1 has
  have after : h'.runtime? id = some c.value := by rw [Host.runtime?, hc, Option.map_some]
  obtain ⟨d, hd, -⟩ := Option.map_eq_some_iff.1 there
  have before := (lead.since ha).runtime? (Pool.lt_next_of_get?_eq_some hd) after
  rw [after, ← before, there]

/-- A benchmark of a runtime on which a hold is in hand is run to its end. -/
theorem benchmarked_of_pinned [Engine] (traced : Traced allowed printer) (fresh : Fresh allowed h)
    (ha : Config.Sound ⟨h, g.pin .runtime id⟩) (there : h.runtime? id = some r) (run : RunConfig)
    (plain instrumented : Bytes) :
    ∃ report t, Benchmarked printer ⟨id, r, run⟩ plain instrumented h report t ∧
      exec (HostM.benchmark printer id run plain instrumented) h = (.ok report, t) := by
  refine benchmarked_of_stays (x := ⟨id, r, run⟩) there fun result t ran => ?_
  have keeps := keeps_benchmarkBuild (g := g.pin .runtime id) traced fresh id run plain
    fun runner h g settling => keeps_announced traced r.commons "plain" settling
      fun h settling => keeps_runPlain traced settling
  exact (keeps.of_ok ran).runtime?_of_pinned ha there

end

/-! ### The step -/

/-- Everything has as many holders, and every budget is charged as much, as before. -/
structure Session.Restores (s t : Session) : Prop where
  holders : ∀ kind id, kind ≠ .commons → t.holders kind id = s.holders kind id
  inUse : t.inUse = s.inUse

section

variable [HookRule] {allowed : Effect → Prop} {printer : Printer Slots} {s t : Session} {g : Pending}
  {name : String} {id : Nat}

/-- Where nothing has moved, changes restore the session. -/
theorem Leads.restores (lead : Leads allowed ⟨s, g⟩ ⟨t, g⟩) (ha : Config.Sound ⟨s, g⟩)
    (balanced : Config.Balanced ⟨s, g⟩) (unmoved : s.Unmoved t) : s.Restores t where
  holders _ _ := unmoved.holders_eq (lead.since ha) ha (lead.sound ha)
  inUse := unmoved.inUse_eq (lead.since ha) ha (lead.sound ha) balanced
    (lead.induct ha (fun _ _ _ step => step.balanced) balanced)

/-- A benchmark that enters no instance but new ones makes only changes that leave everything else
unmoved. -/
theorem leads_benchmark [Engine] (traced : Traced allowed printer) (fresh : Fresh allowed s)
    (name : String) (run : RunConfig) (plain instrumented : Bytes) :
    Leads allowed ⟨s, g⟩
      ⟨(stepWith printer (.runtime name (.benchmark plain instrumented run)) s).2, g⟩ := by
  refine Session.leads_of_steers ?_
  simp only [Steers, Session.act, Session.actOnRuntime, yields_bind_iff, yields_find]
  refine ⟨fun id named => steers_holding named rfl ?_, fun _ => .refl⟩
  have fresh : Fresh allowed (s.retain .runtime id) := ⟨fresh.clears, fresh.lends, fresh.enters⟩
  have keeps := keeps_benchmark (g := g.pin .runtime id) traced fresh id run plain instrumented
  refine steers_bind (steers_host keeps) fun ended u => ?_
  split
  · exact steers_pure _
  · exact steers_pure _

omit [HookRule] in
/-- What follows an operation goes by how it ended. -/
theorem run_host_bind {α β : Type} (x : HostM Slots α) (f : Except Error α → SessionM β) (s : Session) :
    (SessionM.host x >>= f).run.run s = (f (exec x s).1).run.run (exec x s).2 := rfl

omit [HookRule] in
/-- How the step is answered, once it is known how the benchmark ends. -/
theorem stepWith_benchmark [Engine] {run : RunConfig} {plain instrumented : Bytes} {report : Report}
    (named : s.app.names.get? ⟨.runtime, name⟩ = some id)
    (ran : exec (HostM.benchmark printer id run plain instrumented) (s.retain .runtime id) =
      (.ok report, t)) :
    stepWith printer (.runtime name (.benchmark plain instrumented run)) s =
      (.plain (.report report), t.release .runtime id) := by
  refine Prod.ext_iff.2 (stepWith_of_yields (P := fun answer u => answer = .plain (.report report) ∧
    u = t.release .runtime id) (F := fun _ => False) ?_ fun _ => False.elim)
  simp only [Session.act, Session.actOnRuntime, SessionM.holding, yields_bind_iff, yields_find, named,
    Option.some.injEq, forall_eq', yields_modify, yields_lift, yields_ofOption, run_host_bind, ran]
  exact ⟨⟨fun _ ended => ⟨(Option.some.inj ended).symm, rfl⟩, by rintro ⟨⟩⟩, by rintro ⟨⟩⟩

/-- What the benchmarks of a session report, and what they leave behind. -/
structure Session.Benches [Engine] (s : Session) : Prop where
  /-- The report has the outcomes of the runs, in order, up to the first error, and this error. -/
  reports : ∀ printer name id run plain instrumented,
    printer = hookedPrinter ∨ printer = Host.emit → s.app.names.get? ⟨.runtime, name⟩ = some id →
      ∃ r report, ∃ t : Session, s.runtime? id = some r ∧
        Benchmarked printer ⟨id, r, run⟩ plain instrumented (s.retain .runtime id) report t ∧
        report.Tells run.repetitions.toNat ∧
        stepWith printer (.runtime name (.benchmark plain instrumented run)) s =
          (.plain (.report report), t.release .runtime id)
  /-- However it ends, a benchmark leaves behind what was there, and nothing else. -/
  returns : ∀ name run plain instrumented, s.Restores
    (stepWith Host.emit (.runtime name (.benchmark plain instrumented run)) s).2
  /-- So it does where hooks are run meanwhile, unless these have moved something. -/
  restores : ∀ name run plain instrumented,
    s.Unmoved (stepWith hookedPrinter (.runtime name (.benchmark plain instrumented run)) s).2 →
      s.Restores (stepWith hookedPrinter (.runtime name (.benchmark plain instrumented run)) s).2

theorem runtime?_of_named (ha : Config.Sound ⟨s, g⟩)
    (named : s.app.names.get? ⟨.runtime, name⟩ = some id) : ∃ r, s.runtime? id = some r := by
  have pos := holders_pos_of_named ha named (by simp)
  obtain ⟨c, hc⟩ := Pool.get?_of_count_pos pos
  exact ⟨c.value, by rw [Host.runtime?, hc, Option.map_some]⟩

end

namespace Session

variable {s : Session}

theorem benches_of_leads [Engine] [HookRule] (any : ∀ hook, HookRule.admits hook) {g : Pending}
    (idle : ∀ id, g.held id = none) (ha : Config.Sound ⟨s, g⟩) (balanced : Config.Balanced ⟨s, g⟩) :
    s.Benches where
  reports := by
    intro printer name id run plain instrumented either named
    have traced : Traced (fun _ => True) printer := by
      rcases either with rfl | rfl
      · exact traced_of_any any
      · exact traced_emit
    obtain ⟨r, there⟩ := runtime?_of_named ha named
    have held : Leads (fun _ => True) ⟨s, g⟩ ⟨s.retain .runtime id, g.pin .runtime id⟩ :=
      leads_retain named rfl
    have there' : (s.retain .runtime id).runtime? id = some r := by
      rw [← there]
      exact Host.runtime?_retainRuntime id id
    have fresh : Fresh (fun _ => True) (s.retain .runtime id) :=
      ⟨fun _ _ => trivial, fun _ _ => trivial, fun _ _ => trivial⟩
    obtain ⟨report, t, benchmarked, ran⟩ := benchmarked_of_pinned traced fresh (held.sound ha) there'
      run plain instrumented
    exact ⟨r, report, t, there, benchmarked, benchmarked.tells, stepWith_benchmark named ran⟩
  returns := by
    intro name run plain instrumented
    -- Nothing is renamed, and no instance is entered that is there already.
    let allowed : Effect → Prop := fun e =>
      e ≠ .renames ∧ ∀ id, e = .enters id → s.instances.next ≤ id
    have fresh : Fresh allowed s := by
      refine ⟨fun _ _ => ⟨nofun, nofun⟩, fun _ _ => ⟨nofun, nofun⟩, fun id new => ⟨nofun, ?_⟩⟩
      rintro _ ⟨⟩
      exact new
    have lead : Leads allowed ⟨s, g⟩
        ⟨(stepWith Host.emit (.runtime name (.benchmark plain instrumented run)) s).2, g⟩ :=
      leads_benchmark traced_emit fresh name run plain instrumented
    refine lead.restores ha balanced (lead.unmoved ha (fun permit => permit.1 rfl) idle ?_)
    intro id has permit
    obtain ⟨c, hc⟩ := Option.isSome_iff_exists.1 has
    exact Nat.lt_irrefl _ (Nat.lt_of_lt_of_le (Pool.lt_next_of_get?_eq_some hc) (permit.2 id rfl))
  restores name run plain instrumented unmoved :=
    (leads_benchmark (traced_of_any any) ⟨fun _ _ => trivial, fun _ _ => trivial, fun _ _ => trivial⟩
      name run plain instrumented).restores ha balanced unmoved

/-- **Benchmarks.** Between any two operations of a session that starts with nothing, a benchmark of a
runtime reports what came of its runs up to the first error, and leaves behind what was there. -/
theorem benches_of_passes [Engine] (passes : Passes hookedPrinter empty s) : s.Benches := by
  let rule : HookRule := .any
  have any : ∀ hook, HookRule.admits hook := fun _ => trivial
  obtain ⟨g, held, -, lead⟩ := passes.leads any (g := .none) (traced_of_any any)
  have start := sound_empty rfl
  exact benches_of_leads any (fun id => congrFun held id) (lead.sound start)
    (lead.induct start (fun _ _ _ step => step.balanced) balanced_empty)

theorem benches_of_hooked : Passes hookedPrinter empty (runWith hookedPrinter hooked empty).2 ∧
    (runWith hookedPrinter hooked empty).2.Benches :=
  ⟨passes_runWith _ .here hooked, benches_of_passes (passes_runWith _ .here hooked)⟩

end Session

end Embedder
