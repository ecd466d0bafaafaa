import Mathlib.Data.List.Dedup
import Mathlib.Data.List.Induction
import Workflow.Proofs.Linked
import Workflow.Proofs.Validation

/-!
Numbers of definitions. A source without imports has as many models, agents and flows as the unit that it
compiles to. Handlers of one event become one in the unit.
-/

namespace Workflow

open List Program Decl

def Decl.event? : Decl → Option HandlerEvent
  | .handler d => some d.event.node
  | _ => none

/-- The events of the handlers of a program, one for each handler. -/
def Program.events (p : Program) : List HandlerEvent := p.decls.filterMap event?

lemma Program.stats_eq (p : Program) :
    p.stats = ⟨(p.decls.filterMap model?).length, (p.decls.filterMap agent?).length,
      (p.decls.filterMap flow?).length, p.events.length⟩ := by
  rw [stats, events]
  induction p.decls using reverseRecOn with
  | nil => rfl
  | append_singleton ds d ih =>
    rw [foldl_append, ih]
    cases d <;> simp [filterMap_cons, model?, agent?, flow?, event?]

namespace CompiledUnit

variable {u : CompiledUnit} {ds : List Decl}

lemma Lowers.mem_events (h : u.Lowers ds) (event : HandlerEvent) :
    event ∈ u.handlers.map (·.1) ↔ event ∈ ds.filterMap event? := by
  have hkept : event ∈ u.handlers.map (·.1) ↔ ∃ block, u.handler? event = some block := by
    rw [← Option.isSome_iff_exists, handler?, Option.isSome_map, find?_isSome]
    simp
  rw [hkept]
  constructor
  · rintro ⟨block, hblock⟩
    have hinstrs := h.handlers event
    rw [hblock, handlerInstrs] at hinstrs
    split at hinstrs
    · cases hinstrs
    · next hbodies =>
      obtain ⟨d, hd, hevent, -⟩ := mem_handlers.1 (getLast_mem hbodies)
      exact mem_filterMap.2 ⟨_, hd, congrArg some hevent⟩
  · intro hmem
    obtain ⟨d, hd, hevent⟩ := mem_filterMap.1 hmem
    cases d with
    | handler d => exact h.exists_handler (ne_nil_of_mem (mem_handlers.2 ⟨d, hd, Option.some.inj hevent, rfl⟩))
    | _ => cases hevent

lemma Lowers.stats (h : u.Lowers ds) : u.stats = ⟨(ds.filterMap model?).length, (ds.filterMap agent?).length,
      (ds.filterMap flow?).length, (ds.filterMap event?).dedup.length⟩ := by
  have hevents : u.handlers.map (·.1) ~ (ds.filterMap event?).dedup :=
    (perm_ext_iff_of_nodup h.events (nodup_dedup _)).2 fun event => (h.mem_events event).trans mem_dedup.symm
  have hflows := h.flows.2.length_eq
  have hhandlers := hevents.length_eq
  rw [length_map] at hflows hhandlers
  rw [CompiledUnit.stats, h.models.2.length_eq, h.agents.2.length_eq, hflows, hhandlers]

end CompiledUnit

lemma Program.statsOfSource_eq {source name : String} (h : ofSource source name = .ok p) :
    statsOfSource source = .ok p.stats := by
  rw [statsOfSource, ofSource_rename h]
  rfl

/-- A source without imports has the numbers of definitions of its unit, but that the unit has one handler for
each event: all numbers agree exactly if no event has two handlers. -/
theorem stats_of_compile {config : CompilerConfig} {files : Files} {source name : String} {c : Compiled}
    (h : compile config files source name = .ok c) (halone : c.importPaths = []) :
    ∃ root counted, ofSource source name = .ok root ∧ statsOfSource source = .ok counted ∧
      counted.handlers = root.events.length ∧
      c.unit.stats = { counted with handlers := root.events.dedup.length } ∧
      (c.unit.stats = counted ↔ root.events.Nodup) := by
  obtain ⟨root, loaded, hroot, hloaded⟩ := exists_of_compile h
  have hstats := (lowers_of_compile hroot hloaded h).2.stats
  rw [load_of_alone h halone hroot hloaded, Lower.decls, flatMap_singleton] at hstats
  refine ⟨root, root.stats, hroot, statsOfSource_eq hroot, ?_, ?_, ?_⟩
  · rw [stats_eq]
  · rw [hstats, stats_eq, events]
  · rw [hstats, stats_eq, ← events, UnitStats.mk.injEq]
    simp only [true_and]
    exact ⟨fun hlength => dedup_eq_self.1 ((dedup_sublist _).eq_of_length hlength), fun hnodup => by rw [hnodup.dedup]⟩

theorem stats_of_compile_sample : ∃ c counted, compile {} [] sampleSource "main" = .ok c ∧
    c.importPaths = [] ∧ statsOfSource sampleSource = .ok counted ∧ c.unit.stats = counted := by
  obtain ⟨root, loaded, c, hroot, -, hc, hp⟩ := exists_of_compilesTo (show compilesTo []
    sampleSource "main" (fun root _ c => decide (c.importPaths = [] ∧ root.events.Nodup)) = true by decide +kernel)
  obtain ⟨halone, hnodup⟩ := of_decide_eq_true hp
  obtain ⟨root', counted, hroot', hcounted, -, -, hagree⟩ := stats_of_compile hc halone
  cases hroot.symm.trans hroot'
  exact ⟨c, counted, hc, halone, hcounted, hagree.2 hnodup⟩

/-- Two handlers of the start are one in the unit. -/
theorem stats_differ : ∃ c counted,
    compile {} [] "on start do\n  log 1\nend\non start do\n  log 2\nend\n" "main" = .ok c ∧ c.importPaths = [] ∧
    statsOfSource "on start do\n  log 1\nend\non start do\n  log 2\nend\n" = .ok counted ∧
    counted.handlers = 2 ∧ c.unit.stats.handlers = 1 := by
  obtain ⟨root, loaded, c, hroot, -, hc, hp⟩ := exists_of_compilesTo (show compilesTo []
    "on start do\n  log 1\nend\non start do\n  log 2\nend\n" "main" (fun root _ c => decide (c.importPaths = [] ∧
      root.stats.handlers = 2 ∧ c.unit.stats.handlers = 1)) = true by decide +kernel)
  obtain ⟨halone, hcounts⟩ := of_decide_eq_true hp
  exact ⟨c, root.stats, hc, halone, statsOfSource_eq hroot, hcounts⟩

end Workflow
