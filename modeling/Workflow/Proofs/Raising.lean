import Workflow.Proofs.Variables

/-!
Faults that come through. The error of a body or of a failure block is that of its flow, and the error of an
entry is that of the run.
-/

namespace Workflow

namespace Act

variable {α β : Type} {x : Act α} {k : α → Act β} {fault : RunFault}

lemma yields_lift {p : Process α} (h : p.Yields a) : (liftM p : Act α).run.Yields (.ok a) :=
  h.bind (.done _)

lemma Raises.bind (h : x.Raises fault) : (x >>= k).Raises fault := by
  obtain ⟨e, he, hfault⟩ := h
  exact ⟨e, he.bind (.done _), hfault⟩

lemma raises_of_rest (h : x.run.Yields (.ok a)) (hk : (k a).Raises fault) : (x >>= k).Raises fault := by
  obtain ⟨e, he, hfault⟩ := hk
  exact ⟨e, h.bind he, hfault⟩

end Act

/-! ### Flows and runs -/

namespace Scene

variable {s : Scene} {calls : Calls} {bound : Nat} {name : String} {f : FlowUnit} {args : List Json}
  {block : List Instr} {e : RunError} {frame : Frame} {fault : RunFault}

lemma raises_runBody (hblock : f.onFailure = none)
    (hraises : s.Raises calls bound f.body (s.flowFrame f args) fault) :
    (s.runBody calls bound f args).Raises fault := by
  obtain ⟨e, frame, hyields, rfl⟩ := hraises
  refine Act.raises_of_rest (Act.yields_lift hyields) ?_
  dsimp only
  rw [hblock]
  exact ⟨e, .done _, rfl⟩

lemma raises_failure (hblock : f.onFailure = some block)
    (hfails : ((s.execBlock calls bound f.body).run.run (s.flowFrame f args)).Yields (.error e, frame))
    (hfatal : e.fault.isFatal = false) (hraises : s.Raises calls bound block (frame.failed e) fault) :
    (s.runBody calls bound f args).Raises fault := by
  obtain ⟨e', frame', hyields, rfl⟩ := hraises
  refine Act.raises_of_rest (Act.yields_lift hfails) ?_
  dsimp only
  rw [hblock, hfatal]
  refine Act.raises_of_rest (Act.yields_lift (.tell (.done ()))) ?_
  exact Act.raises_of_rest (Act.yields_lift hyields) ⟨e', .done _, rfl⟩

lemma raises_runFlow (hf : s.unit.flows.get? name = some f) (hargs : f.params.length = args.length ∨ f.params = [])
    (hraises : (s.runBody calls bound f args).Raises fault) :
    (s.runFlow calls bound name args).Raises fault := by
  have hentry : (Act.ofExcept (Context.entry "flow" s.unit.flows name)).run.Yields (.ok f) := by
    rw [Context.entry, hf]
    exact .done _
  have hfits : ¬ (!f.params.isEmpty && decide (f.params.length ≠ args.length)) = true := by
    rcases hargs with h | h <;> simp [h]
  refine Act.raises_of_rest hentry ?_
  dsimp only
  rw [if_neg hfits]
  exact Act.raises_of_rest (Act.yields_lift (.tell (.done ()))) hraises.bind

end Scene

namespace Context

variable {c : Context} {fuel : Nat} {args : List Json} {globals : Table Json} {fault : RunFault}

lemma raises_process {entry : Entry} (hstart : (c.start fuel (flowInput args)).run.Yields (.ok globals))
    (hraises : (enter ⟨c, globals⟩ fuel args entry).Raises fault) :
    (c.process fuel entry args).Raises fault := by
  obtain ⟨e, he, rfl⟩ := hraises
  exact Act.raises_of_rest hstart ⟨e, he.bind (.tell (.done _)), rfl⟩

lemma raises_flow (hf : c.unit.flows.get? name = some f) (hargs : f.params.length = args.length ∨ f.params = [])
    (hstart : (c.start (fuel + 1) (flowInput args)).run.Yields (.ok globals))
    (hraises : (Scene.runBody ⟨c, globals⟩ (Scene.calls ⟨c, globals⟩ fuel) fuel f args).Raises fault) :
    (c.process (fuel + 1) (.flow name) args).Raises fault := by
  refine raises_process hstart (Act.Raises.bind ?_)
  rw [Scene.callFlow]
  exact Scene.raises_runFlow hf hargs hraises

end Context

end Workflow
